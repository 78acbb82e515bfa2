import SExpr.Reader.Basic
import SExpr.Proofs.Reader.Excess
import SExpr.Proofs.Reader.Soundness

/-!
# The reader recognises the grammar

Both halves put together, for whole texts: the reader gives the value that the grammar derives, and
it gives no other.

## What is here

* `parseWith_of_input` — a derivation within the limit is read.
* `parseWith_overrun` — a derivation beyond the limit fails for that reason.
* `input_of_parseWith` — what is read has a derivation.
* `parseWith_eq_ok_iff` — the reader accepts exactly the grammar.
-/

set_option autoImplicit false

namespace SExpr

open Grammar

namespace Reader

/-- The first and only form of a text, with the blanks around it. -/
theorem exists_form_of_input {text : List Char} {v : Value} (h : Input text v) :
    ∃ spaced behind, Blanks text spaced ∧ Form spaced v behind ∧ Blanks behind [] := by
  cases h with
  | cons blanks form forms =>
    cases forms with
    | nil blanks' => exact ⟨_, _, blanks, form, blanks'⟩

/-- A derivation within the limit ends the run with its value, and nothing is left. -/
theorem run_of_input {limit : Nat} {text : List Char} {v : Value} (h : Input text v)
    (hdepth : v.depth ≤ limit) (pos : Position) :
    (run limit .start pos (TextUnit.ofChars text)).1 = .value v ∧
      (run limit .start pos (TextUnit.ofChars text)).2.rest = [] := by
  obtain ⟨spaced, behind, hblanks, hform, hend⟩ := exists_form_of_input h
  have hreach : Reaches limit .start (TextUnit.ofChars text) (.between (.complete v)) [] :=
    ((reaches_of_blanks hblanks (hform.head?_ne (by decide)) (.within [])).trans
      (reaches_of_form hform [] (by simpa using hdepth))).trans
      (reaches_of_blanks hend (by simp) (.complete v))
  obtain ⟨taken, -, hrun⟩ := hreach
  rw [hrun, run_nil]
  exact ⟨rfl, rfl⟩

/-- A derivation beyond the limit ends the run for that reason. -/
theorem overruns_of_input {limit : Nat} {text : List Char} {v : Value} (h : Input text v)
    (hdepth : limit < v.depth) : Overruns limit .start (TextUnit.ofChars text) := by
  obtain ⟨spaced, behind, hblanks, hform, -⟩ := exists_form_of_input h
  exact (reaches_of_blanks hblanks (hform.head?_ne (by decide)) (.within [])).overruns
    (overruns_of_form hform [] (Nat.zero_le limit) (by simpa using hdepth))

/-- A run that ends with a value and leaves nothing has read a whole text of the grammar. -/
theorem input_of_run {limit : Nat} {text : List Char} {v : Value} {pos : Position}
    (h : (run limit .start pos (TextUnit.ofChars text)).1 = .value v)
    (hrest : (run limit .start pos (TextUnit.ofChars text)).2.rest = []) : Input text v := by
  have hyields := yields_of_run h
  rw [hrest] at hyields
  obtain ⟨spaced, x, behind, hblanks, hform, rfl, hend⟩ := hyields
  exact .cons hblanks hform (.nil hend)

/-- The last form is what the run gives, if the run gives a form and leaves nothing. -/
theorem last_eq_ok_iff {r : Reader} {v : Value} :
    r.last = .ok v ↔ (run r.allowance .start r.cursor.pos r.cursor.rest).1 = .value v ∧
      (run r.allowance .start r.cursor.pos r.cursor.rest).2.rest = [] := by
  rw [last, next]
  rcases run r.allowance .start r.cursor.pos r.cursor.rest with ⟨outcome, rest, pos⟩
  cases outcome with
  | value w => cases rest <;> simp
  | nothing => cases rest <;> simp
  | failed cause openForms => simp

theorem last_of_overruns {r : Reader}
    (h : Overruns r.allowance .start r.cursor.rest) :
    ∃ pos, r.last = .error ⟨.nestingTooDeep, pos⟩ := by
  have hrun := h r.cursor.pos
  rw [last, next]
  rcases hout : run r.allowance .start r.cursor.pos r.cursor.rest with ⟨outcome, cursor⟩
  rw [hout] at hrun
  obtain rfl : outcome = .failed .nestingTooDeep r.allowance := hrun
  exact ⟨cursor.pos, rfl⟩

end Reader

namespace Value

open Reader

/-- A derivation within the limit is read. -/
theorem parseWith_of_input {limits : Limits} {text : String} {v : Value}
    (h : Input text.toList v) (hdepth : v.depth ≤ limits.maxDepth) :
    parseWith limits text = .ok v :=
  last_eq_ok_iff.2 (run_of_input h hdepth .start)

/-- A derivation beyond the limit is not read, and the error says why. -/
theorem parseWith_overrun {limits : Limits} {text : String} {v : Value}
    (h : Input text.toList v) (hdepth : limits.maxDepth < v.depth) :
    ∃ pos, parseWith limits text = .error ⟨.nestingTooDeep, pos⟩ :=
  last_of_overruns (overruns_of_input h hdepth)

/-- What is read has a derivation. -/
theorem input_of_parseWith {limits : Limits} {text : String} {v : Value}
    (h : parseWith limits text = .ok v) : Input text.toList v := by
  obtain ⟨hvalue, hrest⟩ := last_eq_ok_iff.1 h
  exact input_of_run hvalue hrest

/-- What is read is not nested deeper than the limit. -/
theorem depth_le_of_parseWith {limits : Limits} {text : String} {v : Value}
    (h : parseWith limits text = .ok v) : v.depth ≤ limits.maxDepth := by
  refine Nat.le_of_not_lt fun hdepth => ?_
  obtain ⟨pos, herror⟩ := parseWith_overrun (input_of_parseWith h) hdepth
  rw [h] at herror
  cases herror

/-- **The reader accepts exactly the grammar**, up to the nesting depth that is allowed, and gives
the value that the grammar derives. -/
theorem parseWith_eq_ok_iff (limits : Limits) (text : String) (v : Value) :
    parseWith limits text = .ok v ↔ Input text.toList v ∧ v.depth ≤ limits.maxDepth :=
  ⟨fun h => ⟨input_of_parseWith h, depth_le_of_parseWith h⟩,
    fun h => parseWith_of_input h.1 h.2⟩

end Value

end SExpr
