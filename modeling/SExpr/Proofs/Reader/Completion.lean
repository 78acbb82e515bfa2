import SExpr.Proofs.Reader.Failure
import SExpr.Proofs.Reader.Recognition

/-!
# Texts that can be completed

The place of an error is where the text stopped making sense.  What stands in front of it is the
beginning of some text that is read; and if anything stands behind it, no continuation helps.  So an
error at the end of a text says that the text is not complete, and an error in front of the end says
that it never will be.

## What is here

* `Value.Completable` — the texts that are read once something is appended.
* `State.ending` — what completes a state of the machine (`exists_after_ending`).
* `step_stop_of_lead` — the machine refuses a unit for its first character alone.
* `parseWith_error_completable` — errors by what could have followed.
-/

set_option autoImplicit false

namespace SExpr
namespace Reader

variable {limit : Nat}

/-! ## What completes a state -/

/-- A parenthesis for each list that is open.  Marks complete themselves. -/
def closers : List Frame → List Char
  | [] => []
  | .list _ :: outer => ')' :: closers outer
  | .quoted _ :: outer => closers outer

/-- Behind a value, the parentheses complete all open forms. -/
theorem exists_after_closers (limit : Nat) (v : Value) (stack : List Frame) :
    ∃ w, (State.between (deliver v stack)).after? limit (TextUnit.ofChars (closers stack)) =
      some (.between (.complete w)) := by
  induction stack generalizing v with
  | nil => exact ⟨v, rfl⟩
  | cons frame outer ih =>
    cases frame with
    | list items =>
      obtain ⟨w, hw⟩ := ih (.list (v :: items).reverse)
      have hclose : step limit (.between (.within (.list (v :: items) :: outer))) (.char ')') =
          .go (.between (deliver (.list (v :: items).reverse) outer)) := rfl
      exact ⟨w, by rw [closers, TextUnit.ofChars_cons_of_ne (by decide), deliver,
        State.after?_cons_of_go hclose, hw]⟩
    | quoted kind => exact ih (.quoted kind v)

/-- A blank ends an atom. -/
theorem exists_after_blank_closers (text : String) (stack : List Frame) :
    ∃ w, (State.atom text stack).after? limit (TextUnit.ofChars (' ' :: closers stack)) =
      some (.between (.complete w)) := by
  obtain ⟨w, hw⟩ := exists_after_closers limit (.atom text) stack
  have hblank : step limit (.atom text stack) (.char ' ') =
      .go (.between (deliver (.atom text) stack)) := step_of_isBlank rfl rfl
  exact ⟨w, by rw [TextUnit.ofChars_cons_of_ne (by decide), State.after?_cons_of_go hblank, hw]⟩

/-- A quotation mark ends a string. -/
theorem exists_after_quote_closers (text : String) (stack : List Frame) :
    ∃ w, (State.string text stack).after? limit (TextUnit.ofChars ('"' :: closers stack)) =
      some (.between (.complete w)) := by
  obtain ⟨w, hw⟩ := exists_after_closers limit (.string text) stack
  have hquote : step limit (.string text stack) (.char '"') =
      .go (.between (deliver (.string text) stack)) := rfl
  exact ⟨w, by rw [TextUnit.ofChars_cons_of_ne (by decide), State.after?_cons_of_go hquote, hw]⟩

/-- What brings a state to a value: a letter, which every state but that of a complete form takes
into a token, then the end of the token and of the forms around it. -/
def State.ending : State → List Char
  | .between (.complete _) => []
  | .between (.within stack) | .comma stack | .atom _ stack | .atomEscape _ stack =>
    'a' :: ' ' :: closers stack
  | .string _ stack | .stringEscape _ stack => 'a' :: '"' :: closers stack

/-- **Every state can be brought to a value.** -/
theorem exists_after_ending (limit : Nat) (state : State) :
    ∃ w, state.after? limit (TextUnit.ofChars state.ending) = some (.between (.complete w)) := by
  have hletter : ∀ cs, TextUnit.ofChars ('a' :: cs) = .char 'a' :: TextUnit.ofChars cs :=
    TextUnit.ofChars_cons_of_ne (by decide)
  match state with
  | .between (.complete v) => exact ⟨v, rfl⟩
  | .between (.within stack) =>
    rw [State.ending, hletter]
    exact exists_after_blank_closers _ stack
  | .comma stack =>
    rw [State.ending, hletter]
    exact exists_after_blank_closers _ (.quoted .unquote :: stack)
  | .atom text stack | .atomEscape text stack =>
    rw [State.ending, hletter]
    exact exists_after_blank_closers _ stack
  | .string text stack | .stringEscape text stack =>
    rw [State.ending, hletter]
    exact exists_after_quote_closers _ stack

/-! ## What no state takes -/

/-- No blank is refused. -/
theorem isBlank_eq_false_of_step_stop {state : State} {u : TextUnit} {outcome : Outcome}
    (h : step limit state u = .stop outcome) : isBlank u.lead = false := by
  refine Bool.eq_false_iff.2 fun hblank => ?_
  cases state with
  | between | comma | atom =>
    rw [step_of_isBlank hblank rfl] at h
    cases h
  | string text stack =>
    rw [step, if_neg (ne_of_isBlank hblank (by decide)),
      if_neg (ne_of_isBlank hblank (by decide))] at h
    cases h
  | atomEscape | stringEscape => cases h

/-- **A unit is refused for its first character alone.**  A line break is a blank, so a unit that is
refused is no pair. -/
theorem step_stop_of_lead {state : State} {u u' : TextUnit} {outcome : Outcome}
    (h : step limit state u = .stop outcome) (hlead : u'.lead = u.lead) :
    step limit state u' = .stop outcome := by
  have hne : u.lead ≠ '\r' := by
    intro hreturn
    have hblank := isBlank_eq_false_of_step_stop h
    rw [hreturn] at hblank
    cases hblank
  rwa [TextUnit.eq_char_of_lead hlead hne, ← TextUnit.eq_char_of_lead rfl hne]

/-- **One character stops a run**, whatever follows it. -/
theorem Halts.of_stop {text front back back' : String} {last : State} {outcome : Outcome}
    {u : TextUnit} {us : List TextUnit} (h : Halts limit text front back last outcome)
    (hback : TextUnit.ofString back = u :: us) (hstop : step limit last u = .stop outcome)
    (hhead : back'.toList.head? = some u.lead) :
    Halts limit (front ++ back') front back' last outcome := by
  have hsame : back'.toList.head? = back.toList.head? := by
    rw [hhead, ← TextUnit.map_lead_head?_ofChars back.toList, ← TextUnit.ofString, hback]
    rfl
  -- the next unit may be another one, but it begins with the same character
  obtain ⟨u', us', hunits, hlead⟩ := TextUnit.exists_ofChars_cons hhead
  exact ⟨⟨rfl, by rw [hsame]; exact h.divides.whole, rfl⟩, h.after,
    Or.inr ⟨u', us', hunits, step_stop_of_lead hstop hlead⟩⟩

end Reader

/-! ## Texts that can be completed -/

namespace Value

open Reader

variable {limits : Limits} {text front back : String}

/-- Is the text the beginning of one that is read? -/
def Completable (limits : Limits) (text : String) : Prop :=
  ∃ more v, parseWith limits (text ++ more) = .ok v

/-- A text is read if the run takes all of it and ends with a value, and only then. -/
theorem parseWith_eq_ok_iff_of_halts {last : State} {outcome : Outcome} {v : Value}
    (h : Halts limits.maxDepth text front back last outcome) :
    parseWith limits text = .ok v ↔ outcome = .value v ∧ TextUnit.ofString back = [] := by
  have hlast : parseWith limits text = .ok v ↔
      (run limits.maxDepth .start .start (TextUnit.ofString text)).1 = .value v ∧
        (run limits.maxDepth .start .start (TextUnit.ofString text)).2.rest = [] := last_eq_ok_iff
  rw [hlast, run_of_halts h]

/-- **What a run takes can be completed.** -/
theorem completable_of_after {last : State}
    (h : State.start.after? limits.maxDepth (TextUnit.ofString front) = some last) :
    Completable limits front := by
  obtain ⟨v, hending⟩ := exists_after_ending limits.maxDepth last
  have hfeed : last.ending.head? ≠ some '\n' := by
    unfold State.ending
    split <;> simp
  have hunits : TextUnit.ofString (front ++ String.ofList last.ending) =
      TextUnit.ofString front ++ TextUnit.ofChars last.ending := by
    rw [TextUnit.ofString, String.toList_append, String.toList_ofList]
    exact TextUnit.ofChars_append fun hseam => hfeed hseam.2
  refine ⟨String.ofList last.ending, v, ?_⟩
  have hafter : State.start.after? limits.maxDepth
      (TextUnit.ofString (front ++ String.ofList last.ending)) =
        some (.between (.complete v)) := by
    rw [hunits, State.after?_append, h]
    exact hending
  exact (parseWith_eq_ok_iff_of_halts ⟨.at_end _, hafter, Or.inl ⟨rfl, rfl⟩⟩).2 ⟨rfl, rfl⟩

/-- **What a run refuses cannot be completed.** -/
theorem not_completable_of_stop {last : State} {outcome : Outcome} {u : TextUnit}
    {us : List TextUnit} (h : Halts limits.maxDepth text front back last outcome)
    (hback : TextUnit.ofString back = u :: us)
    (hstop : step limits.maxDepth last u = .stop outcome) : ¬Completable limits text := by
  rintro ⟨more, v, hv⟩
  obtain ⟨tail, htail, -, -⟩ := TextUnit.eq_append_of_ofChars_eq_cons hback
  have hhead : (back ++ more).toList.head? = some u.lead := by
    rw [String.toList_append, htail, List.append_assoc, head?_chars_append]
  have hmore := h.of_stop hback hstop hhead
  rw [← String.append_assoc, h.divides.append_eq] at hmore
  obtain ⟨-, hnil⟩ := (parseWith_eq_ok_iff_of_halts hmore).1 hv
  rw [← TextUnit.map_lead_head?_ofChars, ← TextUnit.ofString, hnil] at hhead
  cases hhead

/-- **Errors by what could have followed.**  What stands in front of the place of an error can be
completed.  The text as a whole can be completed exactly if the place is at its end. -/
theorem parseWith_error_completable {e : SyntaxError} (h : parseWith limits text = .error e) :
    ∃ front back, e.pos.Divides text front back ∧ Completable limits front ∧
      (e.pos.offset = text.utf8ByteSize ↔ Completable limits text) := by
  obtain ⟨front, back, last, outcome, hhalts, -, hpos⟩ := parseWith_eq_error_iff.1 h
  have hdivides : e.pos.Divides text front back := hpos ▸ hhalts.divides
  have hfront := completable_of_after hhalts.after
  refine ⟨front, back, hdivides, hfront, ?_, ?_⟩
  · intro hoffset
    obtain ⟨rfl, -, -⟩ := hdivides.unique (.at_end text) hoffset
    exact hfront
  · intro htext
    rcases hhalts.ends with ⟨hback, -⟩ | ⟨u, us, hback, hstop⟩
    · obtain rfl := TextUnit.eq_empty_of_ofString_eq_nil hback
      rw [hdivides.offset_eq, ← hdivides.append_eq, String.append_empty]
    · exact absurd htext (not_completable_of_stop hhalts hback hstop)

/-- An open string can be completed.  A parenthesis that closes nothing cannot, but what stands in
front of it can. -/
theorem completable_in_front_of_close :
    Completable ⟨1⟩ "(\"a" ∧ Completable ⟨2⟩ "('" ∧ ¬Completable ⟨2⟩ "(')" := by
  have hopen : parseWith ⟨1⟩ "(\"a" = .error ⟨.unterminatedString, ⟨3, 0, 3⟩⟩ := rfl
  have hclosed : parseWith ⟨2⟩ "(')" = .error ⟨.missingOperand .quote (some ')'), ⟨2, 0, 2⟩⟩ := rfl
  obtain ⟨_, _, _, _, hend⟩ := parseWith_error_completable hopen
  obtain ⟨front, back, hdivides, hfront, htext⟩ := parseWith_error_completable hclosed
  have hplace : (Position.behind "('").Divides "(')" "('" ")" := ⟨rfl, by decide, rfl⟩
  obtain ⟨rfl, -, -⟩ := hdivides.unique hplace rfl
  exact ⟨hend.1 rfl, hfront, fun h => absurd (htext.2 h) (by decide)⟩

end Value

end SExpr
