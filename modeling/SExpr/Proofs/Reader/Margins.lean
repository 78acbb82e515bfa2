import Mathlib.Data.List.Induction
import SExpr.Proofs.Reader.LineEnds

/-!
# Blanks around a text

Blanks in front of a text, or behind it, change nothing but the places of errors.  In front they
move every place on by what they take.  Behind the text they move only an error at its end, to the
new end; but a backslash that the text ends with must not escape the first of them, nor a line feed
join a carriage return that is escaped.

## What is here

* `trailingBackslashes`, `EndsInEscape` — does a text end with a backslash that would escape what
  follows?  It does where the mode of its end says so (`Mode.escapes_behind`).
* `StandsApart` — the texts that blanks can be appended to.
* `Reader.Halts.blanks_append`, `Reader.Halts.append_blanks` — the runs over the longer texts.
* `Value.Moved` — the same reading with the place of an error moved; `Value.parseWith_margins`.
-/

set_option autoImplicit false

namespace SExpr

/-! ## Escapes at the end of a text -/

/-- How many backslashes a text ends with. -/
def trailingBackslashes (cs : List Char) : Nat :=
  (cs.reverse.takeWhile (· == '\\')).length

/-- Does a text end with a backslash that would escape what follows?  The backslashes in front of it
escape each other in pairs. -/
def EndsInEscape (cs : List Char) : Prop :=
  trailingBackslashes cs % 2 = 1

instance (cs : List Char) : Decidable (EndsInEscape cs) :=
  inferInstanceAs (Decidable (_ = _))

theorem trailingBackslashes_append_singleton (cs : List Char) (c : Char) :
    trailingBackslashes (cs ++ [c]) = if c = '\\' then trailingBackslashes cs + 1 else 0 := by
  rw [trailingBackslashes, List.reverse_append, List.reverse_singleton, List.singleton_append,
    List.takeWhile_cons]
  by_cases hc : c = '\\' <;> simp [hc, trailingBackslashes]

theorem not_endsInEscape_of_ne {c : Char} (h : c ≠ '\\') (cs : List Char) :
    ¬EndsInEscape (cs ++ [c]) := by
  rw [EndsInEscape, trailingBackslashes_append_singleton, if_neg h]
  exact Nat.zero_ne_one

/-- Would the next character be escaped? -/
def Mode.escapes : Mode → Bool
  | .plain | .string => false
  | .escape | .stringEscape => true

/-- Only a backslash that is not escaped itself escapes. -/
theorem Mode.escapes_next (mode : Mode) (c : Char) :
    (mode.next c).escapes = (!mode.escapes && c == '\\') := by
  cases mode with
  | plain | string =>
    rw [next]
    repeat' split
    all_goals simp_all [escapes]
  | escape | stringEscape => rfl

/-- **Whether the end of a text escapes shows in the number of backslashes there.** -/
theorem Mode.escapes_behind (cs : List Char) :
    (Mode.plain.behind cs).escapes = true ↔ EndsInEscape cs := by
  induction cs using List.reverseRecOn with
  | nil => decide
  | append_singleton cs c ih =>
    have hlast : Mode.plain.behind (cs ++ [c]) = (Mode.plain.behind cs).next c :=
      List.foldl_append
    rw [hlast, escapes_next, EndsInEscape, trailingBackslashes_append_singleton]
    rw [EndsInEscape] at ih
    by_cases hc : c = '\\'
    · have hparity : (Mode.plain.behind cs).escapes = false ↔ ¬trailingBackslashes cs % 2 = 1 := by
        rw [← ih, Bool.not_eq_true]
      simp only [hc, beq_self_eq_true, Bool.and_true, Bool.not_eq_true', if_true, hparity]
      omega
    · simp [hc]

/-- What is appended to a text is not escaped by the text, nor does it add to a character that is. -/
structure StandsApart (text more : String) : Prop where
  /-- The text does not end with a backslash that would escape it. -/
  not_escaped : ¬EndsInEscape text.toList
  /-- The text does not end with an escaped carriage return that a line feed would join. -/
  not_joined : ¬(text.toList.getLast? = some '\r' ∧ EndsInEscape text.toList.dropLast ∧
    more.toList.head? = some '\n')

/-- A character behind a text is a unit of its own, unless it completes a pair. -/
theorem TextUnit.ofChars_append_singleton {cs : List Char} {c : Char}
    (h : ¬(cs.getLast? = some '\r' ∧ c = '\n')) : ofChars (cs ++ [c]) = ofChars cs ++ [.char c] := by
  have hseam : ¬(cs.getLast? = some '\r' ∧ [c].head? = some '\n') := by simpa using h
  have hunit : ofChars [c] = [.char c] := cons_of_ne (by simp)
  rw [ofChars_append hseam, hunit]

namespace Reader

variable {limit : Nat} {state next last : State} {cs : List Char}

/-! ## The mode behind a text -/

/-- Behind a pair, a run is in the mode behind both of its characters. -/
theorem mode_of_step_crlf (h : step limit state .crlf = .go next) :
    next.mode = (state.mode.next '\r').next '\n' := by
  cases state with
  | between | comma | atom =>
    rw [step_of_isBlank rfl rfl] at h
    obtain rfl := Step.go.inj h
    rfl
  | atomEscape | string | stringEscape =>
    obtain rfl := Step.go.inj h
    rfl

/-- **The state behind units has the mode behind their characters.** -/
theorem mode_of_after {us : List TextUnit} (h : state.after? limit us = some next) :
    next.mode = state.mode.behind (TextUnit.toChars us) := by
  induction us generalizing state with
  | nil =>
    obtain rfl := Option.some.inj h
    rfl
  | cons u us ih =>
    cases hstep : step limit state u with
    | go mid =>
      rw [State.after?_cons_of_go hstep] at h
      rw [ih h]
      cases u with
      | char c =>
        rw [mode_of_step hstep]
        rfl
      | crlf =>
        rw [mode_of_step_crlf hstep]
        rfl
    | stop outcome => simp [State.after?, hstep] at h

/-- A run behind a text escapes what follows if the text ends in an escape. -/
theorem escapes_of_after (h : State.start.after? limit (TextUnit.ofChars cs) = some last) :
    last.mode.escapes = true ↔ EndsInEscape cs := by
  rw [mode_of_after h, TextUnit.toChars_ofChars]
  exact Mode.escapes_behind cs

/-- One more unit is one more step. -/
theorem State.after?_concat {us : List TextUnit} {u : TextUnit} {mid : State}
    (h : state.after? limit us = some mid) (hstep : step limit mid u = .go next) :
    state.after? limit (us ++ [u]) = some next := by
  rw [State.after?_append, h]
  exact State.after?_cons_of_go hstep []

/-! ## Blanks behind a text -/

/-- **A blank that is not escaped changes nothing of what is reported at the end.** -/
theorem exists_step_of_isBlank {u : TextUnit} (hblank : isBlank u.lead = true)
    (h : state.mode.escapes ≠ true) :
    ∃ next, step limit state u = .go next ∧ finish next = finish state := by
  cases state with
  | between | comma | atom => exact ⟨_, step_of_isBlank hblank rfl, rfl⟩
  | string text stack =>
    refine ⟨.string (text ++ u.text) stack, ?_, rfl⟩
    rw [step, if_neg (ne_of_isBlank hblank (by decide)), if_neg (ne_of_isBlank hblank (by decide))]
  | atomEscape | stringEscape => exact absurd rfl h

/-- A line feed may complete a pair with a carriage return that is not escaped. -/
theorem exists_after_append_lf
    (h : State.start.after? limit (TextUnit.ofChars (cs ++ ['\r'])) = some last)
    (hescape : ¬EndsInEscape cs) :
    ∃ next, State.start.after? limit (TextUnit.ofChars (cs ++ ['\r'] ++ ['\n'])) = some next ∧
      finish next = finish last := by
  have hpair : TextUnit.ofChars (cs ++ ['\r'] ++ ['\n']) = TextUnit.ofChars cs ++ [.crlf] := by
    rw [List.append_assoc]
    exact TextUnit.ofChars_append (by simp)
  rw [TextUnit.ofChars_append_singleton (by simp), State.after?_append] at h
  obtain ⟨mid, hmid, hlast⟩ := Option.bind_eq_some_iff.1 h
  -- both units are blanks for the state in front of them
  have hstate : mid.mode.escapes ≠ true := fun htrue => hescape ((escapes_of_after hmid).1 htrue)
  obtain ⟨single, hsingle, hsame⟩ :=
    @exists_step_of_isBlank limit mid (.char '\r') (by decide) hstate
  obtain ⟨pair, hstep, hfinish⟩ := @exists_step_of_isBlank limit mid .crlf (by decide) hstate
  rw [State.after?_cons_of_go hsingle] at hlast
  obtain rfl := Option.some.inj hlast
  exact ⟨pair, by rw [hpair, State.after?_concat hmid hstep], hfinish.trans hsame.symm⟩

theorem exists_after_append_blank {c : Char}
    (h : State.start.after? limit (TextUnit.ofChars cs) = some last) (hblank : isBlank c = true)
    (hescape : ¬EndsInEscape cs)
    (hjoin : ¬(cs.getLast? = some '\r' ∧ EndsInEscape cs.dropLast ∧ c = '\n')) :
    ∃ next, State.start.after? limit (TextUnit.ofChars (cs ++ [c])) = some next ∧
      finish next = finish last := by
  by_cases hseam : cs.getLast? = some '\r' ∧ c = '\n'
  · obtain ⟨hreturn, rfl⟩ := hseam
    obtain ⟨front, rfl⟩ := List.getLast?_eq_some_iff.1 hreturn
    rw [List.dropLast_concat] at hjoin
    exact exists_after_append_lf h fun hfront => hjoin ⟨hreturn, hfront, rfl⟩
  · obtain ⟨next, hstep, hfinish⟩ := @exists_step_of_isBlank limit last (.char c) hblank
      fun htrue => hescape ((escapes_of_after h).1 htrue)
    exact ⟨next, by rw [TextUnit.ofChars_append_singleton hseam, State.after?_concat h hstep],
      hfinish⟩

/-- **Blanks that stand apart from a text leave what is reported at its end.** -/
theorem exists_after_append_blanks {blanks : List Char}
    (h : State.start.after? limit (TextUnit.ofChars cs) = some last)
    (hblanks : ∀ c ∈ blanks, isBlank c = true) (hescape : ¬EndsInEscape cs)
    (hjoin : ¬(cs.getLast? = some '\r' ∧ EndsInEscape cs.dropLast ∧ blanks.head? = some '\n')) :
    ∃ next, State.start.after? limit (TextUnit.ofChars (cs ++ blanks)) = some next ∧
      finish next = finish last := by
  induction blanks generalizing cs last with
  | nil => exact ⟨last, by rwa [List.append_nil], rfl⟩
  | cons c blanks ih =>
    have hblank : isBlank c = true := hblanks c List.mem_cons_self
    obtain ⟨mid, hmid, hsame⟩ := exists_after_append_blank h hblank hescape
      (by simpa using hjoin)
    -- what stands in front of the next blank is a blank, and no backslash in front of that one
    obtain ⟨next, hnext, hfinish⟩ := ih hmid (fun d hd => hblanks d (List.mem_cons_of_mem _ hd))
      (not_endsInEscape_of_ne (ne_of_isBlank hblank (by decide)) cs)
      (by rw [List.dropLast_concat]; exact fun hnext => hescape hnext.2.1)
    exact ⟨next, by rwa [List.append_cons], hfinish.trans hsame⟩

/-! ## Blanks in front of a text -/

/-- A blank in front of a text is taken with the blanks there, if there are some. -/
theorem after?_blank_cons {c : Char} (hblank : isBlank c = true) (progress : Progress)
    (cs : List Char) :
    (State.between progress).after? limit (TextUnit.ofChars (c :: cs)) =
      (State.between progress).after? limit (TextUnit.ofChars cs) := by
  have htaken : ∀ u : TextUnit, isBlank u.lead = true → ∀ us,
      (State.between progress).after? limit (u :: us) = (State.between progress).after? limit us :=
    fun u hu => State.after?_cons_of_go (continues_of_isBlank hu progress)
  rw [TextUnit.ofChars_cons]
  rcases TextUnit.cons_cases c (TextUnit.ofChars cs) with h | ⟨-, tail, htail, h⟩
  · rw [h, htaken (.char c) hblank]
  · -- the line feed would have been taken as well
    rw [h, htail, htaken .crlf (by decide), htaken (.char '\n') (by decide)]

theorem after?_blanks_append {blanks : List Char} (h : ∀ c ∈ blanks, isBlank c = true)
    (progress : Progress) (cs : List Char) :
    (State.between progress).after? limit (TextUnit.ofChars (blanks ++ cs)) =
      (State.between progress).after? limit (TextUnit.ofChars cs) := by
  induction blanks with
  | nil => rfl
  | cons c blanks ih =>
    rw [List.cons_append, after?_blank_cons (h c List.mem_cons_self),
      ih fun d hd => h d (List.mem_cons_of_mem _ hd)]

/-! ## Runs over the longer texts -/

variable {text front back blanks : String} {outcome : Outcome}

/-- No run ends in front of a blank. -/
theorem Halts.head?_ne_of_isBlank (h : Halts limit text front back last outcome) {c : Char}
    (hc : isBlank c = true) : back.toList.head? ≠ some c := by
  rw [← TextUnit.map_lead_head?_ofChars, ← TextUnit.ofString]
  rcases h.ends with ⟨hback, -⟩ | ⟨u, us, hback, hstop⟩
  · rw [hback]
    rintro ⟨⟩
  · rw [hback]
    rintro hlead
    rw [← Option.some.inj hlead, isBlank_eq_false_of_step_stop hstop] at hc
    cases hc

/-- **Blanks in front of a text are taken with what a run takes of it.** -/
theorem Halts.blanks_append (h : Halts limit text front back last outcome)
    (hblanks : ∀ c ∈ blanks.toList, isBlank c = true) :
    Halts limit (blanks ++ text) (blanks ++ front) back last outcome := by
  refine ⟨⟨?_, ?_, rfl⟩, ?_, h.ends⟩
  · rw [String.append_assoc, h.divides.append_eq]
  · exact fun hseam => h.head?_ne_of_isBlank (by decide) hseam.2
  · rw [TextUnit.ofString, String.toList_append, State.start, after?_blanks_append hblanks]
    exact h.after

/-- **Blanks behind a text are taken only by a run that takes all of the text.** -/
theorem Halts.append_blanks (h : Halts limit text front back last outcome)
    (hblanks : ∀ c ∈ blanks.toList, isBlank c = true) (happart : StandsApart text blanks) :
    ∃ front' back' last', Halts limit (text ++ blanks) front' back' last' outcome ∧
      back'.toList.head? = back.toList.head? ∧
      front'.utf8ByteSize = if front.utf8ByteSize < text.utf8ByteSize then front.utf8ByteSize
        else (text ++ blanks).utf8ByteSize := by
  have hsize : text.utf8ByteSize = front.utf8ByteSize + back.utf8ByteSize := by
    rw [← h.divides.append_eq, String.utf8ByteSize_append]
  rcases h.ends with ⟨hback, hfinish⟩ | ⟨u, us, hback, hstop⟩
  · obtain rfl := TextUnit.eq_empty_of_ofString_eq_nil hback
    obtain rfl : front = text := by rw [← h.divides.append_eq, String.append_empty]
    obtain ⟨next, hnext, hsame⟩ :=
      exists_after_append_blanks h.after hblanks happart.not_escaped happart.not_joined
    rw [← String.toList_append] at hnext
    exact ⟨front ++ blanks, "", next, ⟨.at_end _, hnext, Or.inl ⟨rfl, by rw [hfinish, hsame]⟩⟩, rfl,
      by rw [if_neg (Nat.lt_irrefl _)]⟩
  · -- the run ends in front of the same character, whatever is appended
    have hlead : back.toList.head? = some u.lead := by
      rw [← TextUnit.map_lead_head?_ofChars, ← TextUnit.ofString, hback]
      rfl
    have hhead : (back ++ blanks).toList.head? = some u.lead := by
      rw [String.toList_append, List.head?_append, hlead]
      rfl
    have hne : back.utf8ByteSize ≠ 0 := by
      intro hzero
      rw [String.utf8ByteSize_eq_zero_iff.1 hzero] at hlead
      cases hlead
    refine ⟨front, back ++ blanks, last, ?_, hhead.trans hlead.symm, by rw [if_pos (by omega)]⟩
    rw [← h.divides.append_eq, String.append_assoc]
    exact h.of_stop hback hstop hhead

end Reader

/-! ## Whole texts -/

namespace Value

open Reader

variable {limits : Limits} {text text' front front' back back' : String}

/-- Another text is read like this one: as the same value, or with the same error at a place of its
own, whose offset `move` computes from that of the place in this text. -/
inductive Moved (text' : String) (move : Nat → Nat) :
    Except SyntaxError Value → Except SyntaxError Value → Prop where
  | value (v : Value) : Moved text' move (.ok v) (.ok v)
  | error {cause : SyntaxError.Cause} {pos pos' : Position} {front back : String}
    (divides : pos'.Divides text' front back) (offset_eq : pos'.offset = move pos.offset) :
    Moved text' move (.error ⟨cause, pos⟩) (.error ⟨cause, pos'⟩)

/-- **Two runs with the same outcome in front of the same character are reported alike.** -/
theorem moved_of_halts {last last' : State} {outcome : Outcome} {move : Nat → Nat}
    (h : Halts limits.maxDepth text front back last outcome)
    (h' : Halts limits.maxDepth text' front' back' last' outcome)
    (hhead : back'.toList.head? = back.toList.head?)
    (hmove : front'.utf8ByteSize = move front.utf8ByteSize) :
    Moved text' move (parseWith limits text) (parseWith limits text') := by
  cases hcause : outcome.cause? back.toList.head? with
  | some cause =>
    have herror : parseWith limits text = .error ⟨cause, .behind front⟩ :=
      parseWith_eq_error_iff.2 ⟨front, back, last, outcome, h, hcause, rfl⟩
    have herror' : parseWith limits text' = .error ⟨cause, .behind front'⟩ :=
      parseWith_eq_error_iff.2 ⟨front', back', last', outcome, h', by rw [hhead, hcause], rfl⟩
    rw [herror, herror']
    exact .error h'.divides hmove
  | none =>
    obtain ⟨v, rfl, hnone⟩ : ∃ v, outcome = .value v ∧ back.toList.head? = none := by
      cases outcome with
      | value v => exact ⟨v, rfl, Option.map_eq_none_iff.1 hcause⟩
      | nothing | failed => cases hcause
    have hempty : ∀ {s : String}, s.toList.head? = none → TextUnit.ofString s = [] := by
      intro s hs
      rw [TextUnit.ofString, List.head?_eq_none_iff.1 hs, TextUnit.ofChars_nil]
    rw [(parseWith_eq_ok_iff_of_halts h).2 ⟨rfl, hempty hnone⟩,
      (parseWith_eq_ok_iff_of_halts h').2 ⟨rfl, hempty (hhead.trans hnone)⟩]
    exact .value v

/-- **Blanks around a text make no difference to what it denotes**, nor to what is wrong with it.
In front of the text they move the place of an error on by their bytes.  Behind it, where they stand
apart from its last escape, they move it only from the end of the text to the new end.  Line and
column are those of the new place. -/
theorem parseWith_margins (limits : Limits) (text blanks : String)
    (hblanks : ∀ c ∈ blanks.toList, isBlank c = true) :
    Moved (blanks ++ text) (fun offset => blanks.utf8ByteSize + offset) (parseWith limits text)
        (parseWith limits (blanks ++ text)) ∧
      (StandsApart text blanks →
        Moved (text ++ blanks) (fun offset =>
            if offset < text.utf8ByteSize then offset else (text ++ blanks).utf8ByteSize)
          (parseWith limits text) (parseWith limits (text ++ blanks))) := by
  obtain ⟨front, back, last, outcome, hhalts⟩ := exists_halts limits.maxDepth text
  refine ⟨moved_of_halts hhalts (hhalts.blanks_append hblanks) rfl (String.utf8ByteSize_append ..),
    fun happart => ?_⟩
  obtain ⟨front', back', last', hhalts', hhead, hsize⟩ := hhalts.append_blanks hblanks happart
  exact moved_of_halts hhalts hhalts' hhead hsize

/-- Two backslashes escape each other, so a line feed may stand behind the carriage return. -/
theorem parseWith_margins_pair :
    (∃ pos, parseWith ⟨1⟩ ("\n " ++ "(a\\\\\r") = .error ⟨.expectedClose none, pos⟩ ∧ pos.offset = 7) ∧
      ∃ pos, parseWith ⟨1⟩ ("(a\\\\\r" ++ "\n ") = .error ⟨.expectedClose none, pos⟩ ∧
        pos.offset = 7 := by
  have hopen : parseWith ⟨1⟩ "(a\\\\\r" = .error ⟨.expectedClose none, ⟨5, 1, 0⟩⟩ := rfl
  have hblanks : ∀ c ∈ "\n ".toList, isBlank c = true := List.all_eq_true.1 rfl
  obtain ⟨hfront, hbehind⟩ := parseWith_margins ⟨1⟩ "(a\\\\\r" "\n " hblanks
  have happart : StandsApart "(a\\\\\r" "\n " := ⟨by decide, by decide⟩
  have hbehind := hbehind happart
  rw [hopen] at hfront hbehind
  refine ⟨?_, ?_⟩
  · generalize parseWith ⟨1⟩ ("\n " ++ "(a\\\\\r") = result at hfront
    cases hfront with
    | error hdivides hoffset => exact ⟨_, rfl, hoffset⟩
  · generalize parseWith ⟨1⟩ ("(a\\\\\r" ++ "\n ") = result at hbehind
    cases hbehind with
    | error hdivides hoffset => exact ⟨_, rfl, hoffset⟩

end Value

end SExpr
