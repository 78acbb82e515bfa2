import SExpr.Proofs.Reader.Completion
import SExpr.Proofs.Reader.Texts

/-!
# Line ends

A text whose lines end with line feeds is read alike when each line feed gets a carriage return in
front of it.  A line break that is part of an atom or of a string becomes a pair there; all others
leave no trace.

## What is here

* `pairLineFeeds` — the conversion.
* `joinBreaks` — the texts of leaves, up to the conversion.
* `Mode`, `Mode.BreaksApart` — is a place in a text inside of a string, or behind a backslash?
* `Reader.run_lineUnit` — the two runs, side by side.
* `Value.parseWith_pairLineFeeds` — the two readings.
-/

set_option autoImplicit false

namespace SExpr

/-! ## The conversion -/

/-- A character with a carriage return in front of it, if it is a line feed. -/
def pairLineFeed (c : Char) : List Char :=
  if c = '\n' then ['\r', '\n'] else [c]

/-- A text in which each line feed gets a carriage return in front of it. -/
def pairLineFeeds (text : String) : String :=
  String.ofList (text.toList.flatMap pairLineFeed)

/-- A text without its carriage returns. -/
def dropReturns (text : String) : String :=
  String.ofList (text.toList.filter (· ≠ '\r'))

namespace TextUnit

/-- The unit of a character, with the pair for a line feed. -/
def lineUnit (c : Char) : TextUnit :=
  if c = '\n' then .crlf else .char c

theorem lineUnit_of_ne {c : Char} (h : c ≠ '\n') : lineUnit c = .char c :=
  if_neg h

/-- Without a carriage return, each character is a unit of its own. -/
theorem ofChars_eq_map {cs : List Char} (h : '\r' ∉ cs) : ofChars cs = cs.map .char := by
  induction cs with
  | nil => rfl
  | cons c cs ih =>
    rw [List.mem_cons, not_or] at h
    rw [ofChars_cons_of_ne (Ne.symm h.1), ih h.2, List.map_cons]

/-- **The conversion makes a pair of each line feed**, and leaves the other units alone. -/
theorem ofChars_flatMap_pairLineFeed {cs : List Char} (h : '\r' ∉ cs) :
    ofChars (cs.flatMap pairLineFeed) = cs.map lineUnit := by
  induction cs with
  | nil => rfl
  | cons c cs ih =>
    rw [List.mem_cons, not_or] at h
    rw [List.flatMap_cons, List.map_cons, ← ih h.2]
    by_cases hfeed : c = '\n'
    · subst hfeed
      exact ofChars_crlf _
    · rw [lineUnit_of_ne hfeed, pairLineFeed, if_neg hfeed, List.singleton_append,
        ofChars_cons_of_ne (Ne.symm h.1)]

end TextUnit

/-! ## Texts up to the conversion -/

/-- A character in front of others; a carriage return is left out in front of a line feed. -/
def joinBreak (c : Char) (cs : List Char) : List Char :=
  if c = '\r' ∧ cs.head? = some '\n' then cs else c :: cs

/-- A text with the carriage returns left out that stand in front of line feeds. -/
def joinBreaks (text : String) : String :=
  String.ofList (text.toList.foldr joinBreak [])

theorem joinBreak_ne_nil (c : Char) (cs : List Char) : joinBreak c cs ≠ [] := by
  rw [joinBreak]
  split
  · rename_i h
    rintro rfl
    simp at h
  · simp

/-- What is left out makes no difference in front of other characters. -/
theorem foldr_joinBreak_foldr (cs ds : List Char) :
    (cs.foldr joinBreak []).foldr joinBreak ds = cs.foldr joinBreak ds := by
  induction cs with
  | nil => rfl
  | cons c cs ih =>
    rw [List.foldr_cons, List.foldr_cons, ← ih, joinBreak]
    split
    · rename_i h
      obtain ⟨hreturn, hfeed⟩ := h
      -- what begins with a line feed still does in front of more characters
      obtain ⟨tail, htail⟩ := List.head?_eq_some_iff.1 hfeed
      have hline : joinBreak '\n' (tail.foldr joinBreak ds) = '\n' :: tail.foldr joinBreak ds := rfl
      rw [htail, List.foldr_cons, hline, joinBreak, if_pos ⟨hreturn, rfl⟩]
    · rfl

theorem filter_foldr_joinBreak (cs : List Char) :
    (cs.foldr joinBreak []).filter (· ≠ '\r') = cs.filter (· ≠ '\r') := by
  induction cs with
  | nil => rfl
  | cons c cs ih =>
    rw [List.foldr_cons, List.filter_cons, ← ih, joinBreak]
    split
    · rename_i h
      simp [h.1]
    · rw [List.filter_cons]

theorem dropReturns_joinBreaks (text : String) : dropReturns (joinBreaks text) = dropReturns text := by
  rw [dropReturns, joinBreaks, String.toList_ofList, filter_foldr_joinBreak, dropReturns]

/-- A line break that is appended may be of either kind. -/
theorem joinBreaks_append_crlf (text : String) :
    joinBreaks (text ++ TextUnit.crlf.text) = joinBreaks (text ++ (TextUnit.char '\n').text) := by
  simp only [joinBreaks, String.toList_append, TextUnit.toList_text, List.foldr_append]
  rfl

theorem blurs_joinBreaks : Reader.Blurs joinBreaks where
  append s t := by
    simp only [joinBreaks, String.toList_append, String.toList_ofList, List.foldr_append,
      foldr_joinBreak_foldr]
  isEmpty s := by
    rw [Bool.eq_iff_iff, String.isEmpty_iff, String.isEmpty_iff, ← String.toList_eq_nil_iff,
      ← String.toList_eq_nil_iff, joinBreaks, String.toList_ofList]
    cases s.toList with
    | nil => simp
    | cons c cs => simp [joinBreak_ne_nil]

/-! ## Positions up to the conversion -/

namespace Position

/-- Two positions on the same line and in the same column. -/
structure SamePlace (p q : Position) : Prop where
  /-- On the same line. -/
  line_eq : p.line = q.line
  /-- In the same column. -/
  column_eq : p.column = q.column

/-- A line break is one step down, whatever it is made of. -/
theorem SamePlace.advance_lineUnit {p q : Position} (h : p.SamePlace q) (c : Char) :
    (p.advance (TextUnit.lineUnit c)).SamePlace (q.advance (.char c)) := by
  by_cases hfeed : c = '\n'
  · subst hfeed
    exact ⟨congrArg (· + 1) h.line_eq, rfl⟩
  · rw [TextUnit.lineUnit_of_ne hfeed, advance, advance]
    split
    · exact ⟨congrArg (· + 1) h.line_eq, rfl⟩
    · exact ⟨h.line_eq, congrArg (· + 1) h.column_eq⟩

end Position

/-! ## Places of line breaks -/

/-- What the characters in front of a place make of those behind it. -/
inductive Mode where
  /-- Not inside of a string, nor behind a backslash that escapes. -/
  | plain
  /-- Behind such a backslash. -/
  | escape
  /-- Inside of a string. -/
  | string
  /-- Inside of a string, behind a backslash that escapes. -/
  | stringEscape
  deriving DecidableEq

/-- The mode behind one more character. -/
def Mode.next (c : Char) : Mode → Mode
  | .plain => if c = '\\' then .escape else if c = '"' then .string else .plain
  | .escape => .plain
  | .string => if c = '\\' then .stringEscape else if c = '"' then .plain else .string
  | .stringEscape => .string

theorem Mode.next_plain_of_ne {c : Char} (hescape : c ≠ '\\') (hquote : c ≠ '"') :
    Mode.plain.next c = .plain := by
  rw [next, if_neg hescape, if_neg hquote]

theorem Mode.next_string_of_ne {c : Char} (hescape : c ≠ '\\') (hquote : c ≠ '"') :
    Mode.string.next c = .string := by
  rw [next, if_neg hescape, if_neg hquote]

/-- The mode behind more characters. -/
def Mode.behind (front : List Char) (mode : Mode) : Mode :=
  front.foldl (fun mode c => mode.next c) mode

/-- No line break of the characters behind a place is inside of a string, or directly behind a
backslash that escapes it. -/
def Mode.BreaksApart (mode : Mode) (cs : List Char) : Prop :=
  ∀ front back, cs = front ++ '\n' :: back → mode.behind front = .plain

theorem Mode.breaksApart_cons {mode : Mode} {c : Char} {cs : List Char} :
    mode.BreaksApart (c :: cs) ↔ (c = '\n' → mode = .plain) ∧ (mode.next c).BreaksApart cs := by
  constructor
  · intro h
    refine ⟨?_, ?_⟩
    · rintro rfl
      exact h [] cs rfl
    · rintro front back rfl
      exact h (c :: front) back rfl
  · rintro ⟨hhere, hbehind⟩ front back hcs
    cases front with
    | nil =>
      obtain ⟨rfl, -⟩ := List.cons.inj hcs
      exact hhere rfl
    | cons d front =>
      obtain ⟨rfl, rfl⟩ := List.cons.inj hcs
      exact hbehind front back rfl

instance Mode.decidableBreaksApart : (mode : Mode) → (cs : List Char) →
    Decidable (mode.BreaksApart cs)
  | _, [] => .isTrue (by rintro front back hcs; simp at hcs)
  | mode, c :: cs =>
    have := decidableBreaksApart (mode.next c) cs
    decidable_of_iff _ breaksApart_cons.symm

example : Mode.plain.BreaksApart "(a\\\"\n\"b\\\"\")".toList := by decide
example : ¬Mode.plain.BreaksApart "\"a\\\"\n\"".toList := by decide

namespace Reader

/-- The mode of the places at which a run is in this state. -/
def State.mode : State → Mode
  | .between _ | .comma _ | .atom _ _ => .plain
  | .atomEscape _ _ => .escape
  | .string _ _ => .string
  | .stringEscape _ _ => .stringEscape

variable {limit : Nat} {f : String → String}

theorem mode_of_begins {stack : List Frame} {c : Char} {next : State}
    (h : begins limit stack (.char c) = .go next) : next.mode = Mode.plain.next c := by
  rcases lead_cases c with hc | rfl | rfl | rfl | rfl | rfl | rfl | rfl | hc
  · rw [begins_of_isBlank (u := .char c) hc] at h
    obtain rfl := Step.go.inj h
    exact (Mode.next_plain_of_ne (ne_of_isBlank hc (by decide)) (ne_of_isBlank hc (by decide))).symm
  · obtain ⟨-, rfl⟩ := enter_eq_go h
    rfl
  · match stack, h with
    | .list items :: outer, h =>
      obtain rfl := Step.go.inj h
      rfl
  · obtain rfl := Step.go.inj h
    rfl
  · obtain rfl := Step.go.inj h
    rfl
  · obtain ⟨-, rfl⟩ := enter_eq_go h
    rfl
  · obtain ⟨-, rfl⟩ := enter_eq_go h
    rfl
  · obtain ⟨-, rfl⟩ := enter_eq_go h
    rfl
  · rw [begins_of_endsAtom (u := .char c) hc] at h
    obtain rfl := Step.go.inj h
    exact (Mode.next_plain_of_ne (ne_of_endsAtom hc (by decide))
      (ne_of_endsAtom hc (by decide))).symm

theorem mode_of_continues {progress : Progress} {c : Char} {next : State}
    (h : continues limit progress (.char c) = .go next) : next.mode = Mode.plain.next c := by
  cases progress with
  | within stack => exact mode_of_begins h
  | complete v =>
    rw [continues] at h
    split at h
    · rename_i hc
      obtain rfl := Step.go.inj h
      exact (Mode.next_plain_of_ne (ne_of_isBlank hc (by decide)) (ne_of_isBlank hc (by decide))).symm
    · cases h

/-- **The state of a run has the mode of the place.** -/
theorem mode_of_step {state next : State} {c : Char}
    (h : step limit state (.char c) = .go next) : next.mode = state.mode.next c := by
  cases state with
  | between progress => exact mode_of_continues h
  | comma stack =>
    rw [step] at h
    split at h
    · rename_i hat
      obtain rfl : c = '@' := hat
      obtain rfl := Step.go.inj h
      rfl
    · exact mode_of_begins h
  | atom text stack =>
    rw [step] at h
    split at h
    · rename_i hescape
      obtain rfl : c = '\\' := hescape
      obtain rfl := Step.go.inj h
      rfl
    · rename_i hescape
      split at h
      · exact mode_of_continues h
      · rename_i hends
        obtain rfl := Step.go.inj h
        have hquote : c ≠ '"' := ne_of_endsAtom (Bool.eq_false_iff.2 hends) (by decide)
        exact (Mode.next_plain_of_ne hescape hquote).symm
  | atomEscape text stack =>
    obtain rfl := Step.go.inj h
    rfl
  | string text stack =>
    rw [step] at h
    split at h
    · rename_i hquote
      obtain rfl : c = '"' := hquote
      obtain rfl := Step.go.inj h
      rfl
    · rename_i hquote
      split at h
      · rename_i hescape
        obtain rfl : c = '\\' := hescape
        obtain rfl := Step.go.inj h
        rfl
      · rename_i hescape
        obtain rfl := Step.go.inj h
        exact (Mode.next_string_of_ne hescape hquote).symm
  | stringEscape text stack =>
    obtain rfl := Step.go.inj h
    rfl

/-! ## Line breaks in a run -/

/-- The change forgets if a line feed that is appended has a carriage return in front of it. -/
def ForgetsReturns (f : String → String) : Prop :=
  ∀ s, f (s ++ TextUnit.crlf.text) = f (s ++ (TextUnit.char '\n').text)

variable {state state' : State}

/-- A line feed and a pair lead to the same, up to a change that forgets which of them was added to
a text. -/
theorem step_crlf (h : state.mode = .plain ∨ ForgetsReturns f) :
    (step limit state .crlf).mapTexts f = (step limit state (.char '\n')).mapTexts f := by
  cases state with
  | between | comma | atom =>
    -- both are blanks here
    rw [step_of_isBlank rfl rfl, step_of_isBlank rfl rfl]
  | atomEscape text stack =>
    have hforgets : ForgetsReturns f := h.resolve_left Mode.noConfusion
    exact congrArg (fun text => Step.go (.atom text (stack.map (Frame.mapTexts f)))) (hforgets text)
  | string text stack | stringEscape text stack =>
    have hforgets : ForgetsReturns f := h.resolve_left Mode.noConfusion
    exact congrArg (fun text => Step.go (.string text (stack.map (Frame.mapTexts f)))) (hforgets text)

/-- **A step over the conversion of a character is one over the character.** -/
theorem step_lineUnit (hf : Blurs f) (hstate : state'.mapTexts f = state.mapTexts f) {c : Char}
    (h : c = '\n' → state.mode = .plain ∨ ForgetsReturns f) :
    (step limit state' (TextUnit.lineUnit c)).mapTexts f =
      (step limit state (.char c)).mapTexts f := by
  have hunit : (step limit state (TextUnit.lineUnit c)).mapTexts f =
      (step limit state (.char c)).mapTexts f := by
    by_cases hfeed : c = '\n'
    · subst hfeed
      exact step_crlf (h rfl)
    · rw [TextUnit.lineUnit_of_ne hfeed]
  rw [← hf.step limit state', hstate, hf.step, hunit]

/-- Two runs end alike. -/
structure EndAlike (f : String → String) (result result' : Outcome × Cursor) : Prop where
  /-- With the same outcome, up to a change to texts. -/
  outcome_eq : result.1.mapTexts f = result'.1.mapTexts f
  /-- In front of the same character. -/
  peek_eq : result.2.peek = result'.2.peek
  /-- On the same line, in the same column. -/
  pos : result.2.pos.SamePlace result'.2.pos

/-- **The run over the conversion of a text ends like the run over the text.** -/
theorem run_lineUnit (hf : Blurs f) {cs : List Char} {pos pos' : Position}
    (hstate : state'.mapTexts f = state.mapTexts f) (hpos : pos'.SamePlace pos)
    (hbreaks : state.mode.BreaksApart cs ∨ ForgetsReturns f) :
    EndAlike f (run limit state' pos' (cs.map TextUnit.lineUnit))
      (run limit state pos (cs.map .char)) := by
  induction cs generalizing state state' pos pos' with
  | nil => exact ⟨by rw [List.map_nil, run_nil, ← hf.finish, hstate, hf.finish]; rfl, rfl, hpos⟩
  | cons c cs ih =>
    have hsame : (step limit state' (TextUnit.lineUnit c)).mapTexts f =
        (step limit state (.char c)).mapTexts f :=
      step_lineUnit hf hstate fun hfeed =>
        hbreaks.imp_left fun h => (Mode.breaksApart_cons.1 h).1 hfeed
    rw [List.map_cons, List.map_cons]
    cases hstep : step limit state (.char c) with
    | go next =>
      rw [hstep] at hsame
      obtain ⟨next', hstep', hnext⟩ := exists_go_of_mapTexts hsame
      rw [run_cons_of_go hstep, run_cons_of_go hstep']
      refine ih hnext (hpos.advance_lineUnit c) (hbreaks.imp_left fun h => ?_)
      rw [mode_of_step hstep]
      exact (Mode.breaksApart_cons.1 h).2
    | stop outcome =>
      rw [hstep] at hsame
      obtain ⟨outcome', hstep', houtcome⟩ := exists_stop_of_mapTexts hsame
      rw [run_cons_of_stop hstep, run_cons_of_stop hstep']
      have hfeed : c ≠ '\n' := by
        rintro rfl
        cases isBlank_eq_false_of_step_stop hstep
      exact ⟨houtcome, by rw [TextUnit.lineUnit_of_ne hfeed]; rfl, hpos⟩

/-! ## Whole texts -/

/-- No report depends on a text that was read. -/
theorem cause?_mapTexts (f : String → String) (outcome : Outcome) (next : Option Char) :
    (outcome.mapTexts f).cause? next = outcome.cause? next := by
  cases outcome <;> rfl

end Reader

namespace Value

open Reader

variable {f : String → String} {limits : Limits} {text : String}

/-- Two readings are alike: they give the same value, up to a change to texts, or the same error on
the same line and in the same column. -/
inductive ReadAlike (f : String → String) :
    Except SyntaxError Value → Except SyntaxError Value → Prop where
  | ok {v w : Value} : v.mapTexts f = w.mapTexts f → ReadAlike f (.ok v) (.ok w)
  | error {e e' : SyntaxError} : e.cause = e'.cause → e.pos.SamePlace e'.pos →
    ReadAlike f (.error e) (.error e')

/-- What a reader gives for its last form is settled by the end of the run. -/
theorem readAlike_of_endAlike {r r' : Reader}
    (h : EndAlike f (run r.allowance .start r.cursor.pos r.cursor.rest)
      (run r'.allowance .start r'.cursor.pos r'.cursor.rest)) : ReadAlike f r.last r'.last := by
  cases hlast : r'.last with
  | ok w =>
    obtain ⟨hvalue, hrest⟩ := last_eq_ok_iff.1 hlast
    obtain ⟨v, hvalue', hvw⟩ := exists_value_of_mapTexts (hvalue ▸ h.outcome_eq)
    have hrest' := h.peek_eq
    rw [Cursor.peek, Cursor.peek, hrest] at hrest'
    have hread : r.last = .ok v := last_eq_ok_iff.2 ⟨hvalue', by simpa using hrest'⟩
    rw [hread]
    exact .ok hvw
  | error e =>
    obtain ⟨hcause, hpos⟩ := last_eq_error_iff.1 hlast
    rw [← cause?_mapTexts f, ← h.outcome_eq, cause?_mapTexts, ← h.peek_eq] at hcause
    have hread : r.last =
        .error ⟨e.cause, (run r.allowance .start r.cursor.pos r.cursor.rest).2.pos⟩ :=
      last_eq_error_iff.2 ⟨hcause, rfl⟩
    rw [hread]
    exact .error rfl (hpos ▸ h.pos)

/-- The reading of the conversion of a text is like that of the text. -/
theorem readAlike_pairLineFeeds (hf : Blurs f) (htext : '\r' ∉ text.toList)
    (hbreaks : Mode.plain.BreaksApart text.toList ∨ ForgetsReturns f) :
    ReadAlike f (parseWith limits (pairLineFeeds text)) (parseWith limits text) := by
  refine readAlike_of_endAlike ?_
  have hrest : (Reader.ofString limits text).cursor.rest = text.toList.map .char :=
    TextUnit.ofChars_eq_map htext
  have hrest' : (Reader.ofString limits (pairLineFeeds text)).cursor.rest =
      text.toList.map TextUnit.lineUnit := by
    rw [← TextUnit.ofChars_flatMap_pairLineFeed htext]
    simp [Reader.ofString, Cursor.ofString, TextUnit.ofString, pairLineFeeds]
  rw [hrest, hrest']
  exact run_lineUnit hf rfl ⟨rfl, rfl⟩ hbreaks

/-- **How the lines of a text end makes no difference**, except for the line breaks that are part of
an atom or a string.  A text without carriage returns is read if and only if its conversion is; errors
are the same, on the same line and in the same column; and values are the same up to the carriage
returns in their leaves, which are not there if no line break is part of one. -/
theorem parseWith_pairLineFeeds (limits : Limits) (text : String) (htext : '\r' ∉ text.toList) :
    ((∃ v, parseWith limits (pairLineFeeds text) = .ok v) ↔ ∃ v, parseWith limits text = .ok v) ∧
    (∀ e e', parseWith limits (pairLineFeeds text) = .error e' → parseWith limits text = .error e →
      e'.cause = e.cause ∧ e'.pos.SamePlace e.pos) ∧
    ∀ v v', parseWith limits (pairLineFeeds text) = .ok v' → parseWith limits text = .ok v →
      v'.shape = v.shape ∧ v'.mapTexts dropReturns = v.mapTexts dropReturns ∧
        (Mode.plain.BreaksApart text.toList → v' = v) := by
  have halike : ReadAlike joinBreaks (parseWith limits (pairLineFeeds text)) (parseWith limits text) :=
    readAlike_pairLineFeeds blurs_joinBreaks htext (Or.inr joinBreaks_append_crlf)
  refine ⟨?_, fun e e' he' he => ?_, fun v v' hv' hv => ?_⟩
  · generalize parseWith limits (pairLineFeeds text) = result' at halike
    generalize parseWith limits text = result at halike
    cases halike with
    | ok => simp
    | error => simp
  · rw [he, he'] at halike
    cases halike with
    | error hcause hpos => exact ⟨hcause, hpos⟩
  · rw [hv, hv'] at halike
    cases halike with
    | ok hjoined =>
      refine ⟨mapTexts_congr (f := fun _ => "") (fun _ => rfl) hjoined,
        mapTexts_congr dropReturns_joinBreaks hjoined, fun hbreaks => ?_⟩
      have hsame : ReadAlike id _ _ :=
        @readAlike_pairLineFeeds id limits text blurs_id htext (Or.inl hbreaks)
      rw [hv, hv'] at hsame
      cases hsame with
      | ok hid => rwa [mapTexts_id, mapTexts_id] at hid

/-- A line break in a string is part of the value, and one in front of it is not.  Both are one line
further down for an error. -/
theorem parseWith_pairLineFeeds_string :
    (∃ v, parseWith ⟨1⟩ (pairLineFeeds "(a\n\"b\nc\")") = .ok v ∧
        v.mapTexts dropReturns = .list [.atom "a", .string "b\nc"]) ∧
      parseWith ⟨1⟩ (pairLineFeeds "(a\n\"b\")") = .ok (.list [.atom "a", .string "b"]) ∧
      ∃ e, parseWith ⟨1⟩ (pairLineFeeds "(a\n\"b\nc\"") = .error e ∧
        e.cause = .expectedClose none ∧ e.pos.SamePlace ⟨8, 2, 2⟩ := by
  have hread : parseWith ⟨1⟩ "(a\n\"b\nc\")" = .ok (.list [.atom "a", .string "b\nc"]) := rfl
  have happart : parseWith ⟨1⟩ "(a\n\"b\")" = .ok (.list [.atom "a", .string "b"]) := rfl
  have hopen : parseWith ⟨1⟩ "(a\n\"b\nc\"" = .error ⟨.expectedClose none, ⟨8, 2, 2⟩⟩ := rfl
  refine ⟨?_, ?_, ?_⟩
  · obtain ⟨hiff, -, hvalues⟩ := parseWith_pairLineFeeds ⟨1⟩ "(a\n\"b\nc\")" (by decide)
    obtain ⟨v, hv⟩ := hiff.2 ⟨_, hread⟩
    exact ⟨v, hv, (hvalues _ v hv hread).2.1⟩
  · obtain ⟨hiff, -, hvalues⟩ := parseWith_pairLineFeeds ⟨1⟩ "(a\n\"b\")" (by decide)
    obtain ⟨v, hv⟩ := hiff.2 ⟨_, happart⟩
    rw [hv, (hvalues _ v hv happart).2.2 (by decide)]
  · obtain ⟨hiff, herrors, -⟩ := parseWith_pairLineFeeds ⟨1⟩ "(a\n\"b\nc\"" (by decide)
    cases hparse : parseWith ⟨1⟩ (pairLineFeeds "(a\n\"b\nc\"") with
    | ok v =>
      obtain ⟨w, hw⟩ := hiff.1 ⟨v, hparse⟩
      rw [hopen] at hw
      cases hw
    | error e => exact ⟨e, rfl, herrors _ e hparse hopen⟩

end Value

end SExpr
