import SExpr.Reader.Machine

/-!
# Runs of the reading machine

A run takes units as long as the machine goes on, and then ends: because the text does, or in
front of a unit that the machine refuses.  Here the two parts are taken apart.

## What is here

* `State.after?` — the state behind units that the machine takes all of.
* `State.stack` — the forms that are open in a state.
* `run_append` — a run over a text that begins with such units is a run over what follows them.
* `exists_after_of_run` — conversely, every run takes some units and then ends in one of the two
  ways; the cursor it leaves stands right there.
-/

set_option autoImplicit false

namespace SExpr
namespace Reader

/-- The state behind units that are all taken. -/
def State.after? (limit : Nat) (state : State) : List TextUnit → Option State
  | [] => some state
  | u :: us =>
    match step limit state u with
    | .go next => next.after? limit us
    | .stop _ => none

/-- The forms that are open in a state, the innermost first.  A comma has opened a form, though
the next unit settles which. -/
def State.stack : State → List Frame
  | .between (.within stack) => stack
  | .between (.complete _) => []
  | .comma stack => .quoted .unquote :: stack
  | .atom _ stack | .atomEscape _ stack | .string _ stack | .stringEscape _ stack => stack

@[simp] theorem State.after?_nil (limit : Nat) (state : State) :
    state.after? limit [] = some state := rfl

theorem State.after?_cons_of_go {limit : Nat} {state next : State} {u : TextUnit}
    (h : step limit state u = .go next) (us : List TextUnit) :
    state.after? limit (u :: us) = next.after? limit us := by
  rw [State.after?, h]

/-- Taking two runs of units is taking them joined. -/
theorem State.after?_append (limit : Nat) (us vs : List TextUnit) (state : State) :
    state.after? limit (us ++ vs) = (state.after? limit us).bind (·.after? limit vs) := by
  induction us generalizing state with
  | nil => rfl
  | cons u us ih =>
    cases h : step limit state u with
    | go next =>
      rw [List.cons_append, State.after?_cons_of_go h, State.after?_cons_of_go h]
      exact ih next
    | stop outcome => simp [State.after?, h]

/-- **A run goes on behind the units it takes**, from the state that they lead to. -/
theorem run_append {limit : Nat} {state next : State} {us : List TextUnit}
    (h : state.after? limit us = some next) (pos : Position) (rest : List TextUnit) :
    run limit state pos (us ++ rest) = run limit next (pos.advanceAll us) rest := by
  induction us generalizing state pos with
  | nil =>
    cases h
    rfl
  | cons u us ih =>
    cases hs : step limit state u with
    | go mid =>
      rw [State.after?_cons_of_go hs] at h
      rw [List.cons_append, run_cons_of_go hs, ih h, Position.advanceAll_cons]
    | stop outcome => simp [State.after?, hs] at h

/-- **How a run ends.**  It takes some units; then either the text is at its end, or the machine
refuses the next unit. -/
theorem exists_after_of_run (limit : Nat) (state : State) (pos : Position)
    (text : List TextUnit) :
    ∃ taken last, state.after? limit taken = some last ∧
      taken ++ (run limit state pos text).2.rest = text ∧
      (run limit state pos text).2.pos = pos.advanceAll taken ∧
      (((run limit state pos text).2.rest = [] ∧ (run limit state pos text).1 = finish last) ∨
        ∃ u rest, (run limit state pos text).2.rest = u :: rest ∧
          step limit last u = .stop (run limit state pos text).1) := by
  induction text generalizing state pos with
  | nil => exact ⟨[], state, rfl, rfl, rfl, Or.inl ⟨rfl, rfl⟩⟩
  | cons u text ih =>
    cases h : step limit state u with
    | go next =>
      obtain ⟨taken, last, hlast, htext, hpos, hend⟩ := ih next (pos.advance u)
      rw [run_cons_of_go h]
      refine ⟨u :: taken, last, ?_, ?_, hpos, hend⟩
      · rw [State.after?_cons_of_go h, hlast]
      · rw [List.cons_append, htext]
    | stop outcome =>
      rw [run_cons_of_stop h]
      exact ⟨[], state, rfl, rfl, rfl, Or.inr ⟨u, text, rfl, h⟩⟩

end Reader

end SExpr
