import SExpr.Reader.Basic
import SExpr.Reader.Run
import SExpr.Proofs.Text.Place

/-!
# Where a reading stops

A run over a text divides it: the units in front were taken, and the machine stopped in front of
the rest, or there is no rest.  What is reported follows from the outcome and from the character
at the place.

## What is here

* `Halts` — a run over a text, by the two parts it divides the text into.  There is exactly one
  (`exists_halts`, `run_of_halts`).
* `Outcome.cause?` — the cause that is reported for an outcome.
* `Value.parseWith_eq_error_iff` — errors by the run over the text.
* `Value.divides_of_parseWith` — the place of an error is a place in the text.
-/

set_option autoImplicit false

namespace SExpr
namespace Reader

/-! ## The two parts of a text -/

/-- `Halts limit text front back last outcome`: the run over the text takes `front`, which leads to
the state `last`, and ends in front of `back`. -/
structure Halts (limit : Nat) (text front back : String) (last : State) (outcome : Outcome) :
    Prop where
  /-- The run ends at a place in the text. -/
  divides : (Position.behind front).Divides text front back
  /-- All of the first part is taken. -/
  after : State.start.after? limit (TextUnit.ofString front) = some last
  /-- The text is at its end, or its next unit is refused. -/
  ends : (TextUnit.ofString back = [] ∧ outcome = finish last) ∨
    ∃ u us, TextUnit.ofString back = u :: us ∧ step limit last u = .stop outcome

variable {limit : Nat} {text front back : String} {last : State} {outcome : Outcome}

theorem Halts.ofString_eq (h : Halts limit text front back last outcome) :
    TextUnit.ofString text = TextUnit.ofString front ++ TextUnit.ofString back := by
  rw [← h.divides.append_eq, TextUnit.ofString, String.toList_append]
  exact TextUnit.ofChars_append h.divides.whole

/-- The run that takes the first part of a text, wherever the text begins. -/
theorem Halts.run_eq (h : Halts limit text front back last outcome) (pos : Position) :
    run limit .start pos (TextUnit.ofString text) =
      (outcome, ⟨TextUnit.ofString back, pos.advanceAll (TextUnit.ofString front)⟩) := by
  rw [h.ofString_eq, run_append h.after]
  rcases h.ends with ⟨hback, rfl⟩ | ⟨u, us, hback, hstop⟩
  · rw [hback, run_nil]
  · rw [hback, run_cons_of_stop hstop]

theorem run_of_halts (h : Halts limit text front back last outcome) :
    run limit .start .start (TextUnit.ofString text) =
      (outcome, ⟨TextUnit.ofString back, .behind front⟩) := by
  rw [h.run_eq, Position.advanceAll_start]

/-- **Every run divides its text.** -/
theorem exists_halts (limit : Nat) (text : String) :
    ∃ front back last outcome, Halts limit text front back last outcome := by
  obtain ⟨taken, last, hafter, htext, -, hend⟩ :=
    exists_after_of_run limit .start .start (TextUnit.ofString text)
  obtain ⟨front, back, hdivides, rfl, hback⟩ := Position.divides_of_ofString htext.symm
  rw [Position.advanceAll_start] at hdivides
  refine ⟨front, back, last, (run limit .start .start (TextUnit.ofString text)).1, hdivides, hafter,
    ?_⟩
  rw [hback]
  exact hend

/-! ## What is reported -/

/-- The cause that is reported for an outcome, by the character in front of which the run ends. -/
def Outcome.cause? (next : Option Char) : Outcome → Option SyntaxError.Cause
  | .failed cause _ => some cause
  | .value _ => next.map .superfluous
  | .nothing => some (next.elim .emptyInput .superfluous)

theorem last_eq_error_iff {r : Reader} {e : SyntaxError} :
    r.last = .error e ↔
      (run r.allowance .start r.cursor.pos r.cursor.rest).1.cause?
          (run r.allowance .start r.cursor.pos r.cursor.rest).2.peek = some e.cause ∧
        (run r.allowance .start r.cursor.pos r.cursor.rest).2.pos = e.pos := by
  obtain ⟨cause, place⟩ := e
  rw [last, next]
  rcases run r.allowance .start r.cursor.pos r.cursor.rest with ⟨outcome, rest, pos⟩
  cases outcome with
  | value w => cases rest <;> simp [Outcome.cause?]
  | nothing => cases rest <;> simp [Outcome.cause?]
  | failed cause openForms => simp [Outcome.cause?]

theorem peek_ofString (back : String) (pos : Position) :
    (Cursor.mk (TextUnit.ofString back) pos).peek = back.toList.head? :=
  TextUnit.map_lead_head?_ofChars back.toList

end Reader

namespace Value

open Reader

variable {limits : Limits} {text : String}

/-- **Errors by the run over the text.** -/
theorem parseWith_eq_error_iff {e : SyntaxError} :
    parseWith limits text = .error e ↔
      ∃ front back last outcome, Halts limits.maxDepth text front back last outcome ∧
        outcome.cause? back.toList.head? = some e.cause ∧ e.pos = .behind front := by
  have hlast : parseWith limits text = .error e ↔ _ := last_eq_error_iff
  rw [hlast]
  show (run limits.maxDepth .start .start (TextUnit.ofString text)).1.cause?
      (run limits.maxDepth .start .start (TextUnit.ofString text)).2.peek = some e.cause ∧
    (run limits.maxDepth .start .start (TextUnit.ofString text)).2.pos = e.pos ↔ _
  constructor
  · rintro ⟨hcause, hpos⟩
    obtain ⟨front, back, last, outcome, h⟩ := exists_halts limits.maxDepth text
    rw [run_of_halts h, peek_ofString] at hcause
    rw [run_of_halts h] at hpos
    exact ⟨front, back, last, outcome, h, hcause, hpos.symm⟩
  · rintro ⟨front, back, last, outcome, h, hcause, hpos⟩
    rw [run_of_halts h, peek_ofString]
    exact ⟨hcause, hpos.symm⟩

/-- The place of an error is a place in the text. -/
theorem divides_of_parseWith {e : SyntaxError} (h : parseWith limits text = .error e) :
    ∃ front back, e.pos.Divides text front back := by
  obtain ⟨front, back, last, outcome, hhalts, -, hpos⟩ := parseWith_eq_error_iff.1 h
  exact ⟨front, back, hpos ▸ hhalts.divides⟩

end Value

end SExpr
