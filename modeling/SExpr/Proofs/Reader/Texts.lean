import SExpr.Proofs.Reader.Reach

/-!
# The texts of leaves

No decision of the reading machine depends on what the atoms and strings hold that it has read.  It
only asks if the atom it is in is still empty.  So a change to these texts changes nothing but the
texts of the result.

## What is here

* `Value.mapTexts` — a change to the texts of all leaves, with the same on open forms, states and
  outcomes; `Value.shape` is what no such change touches.
* `Blurs` — a change that forgets something about texts, but not what is appended to them.
* `Blurs.step`, `Blurs.finish` — states that differ only in what was forgotten behave alike.
-/

set_option autoImplicit false

namespace SExpr

namespace Value

mutual

/-- A change to the texts of all atoms and strings. -/
def mapTexts (f : String → String) : Value → Value
  | .atom text => .atom (f text)
  | .string text => .string (f text)
  | .list items => .list (mapTextsAll f items)
  | .quoted kind operand => .quoted kind (mapTexts f operand)

/-- The same for several values. -/
def mapTextsAll (f : String → String) : List Value → List Value
  | [] => []
  | v :: vs => mapTexts f v :: mapTextsAll f vs

end

/-- What is left of a value without the texts of its leaves. -/
def shape (v : Value) : Value :=
  v.mapTexts fun _ => ""

variable {f g h : String → String}

theorem mapTextsAll_eq_map (f : String → String) (vs : List Value) :
    mapTextsAll f vs = vs.map (mapTexts f) := by
  induction vs with
  | nil => rfl
  | cons v vs ih => rw [mapTextsAll, ih, List.map_cons]

mutual

/-- Two changes, one after the other. -/
theorem mapTexts_mapTexts (hcomp : ∀ s, f (g s) = h s) :
    ∀ v : Value, (v.mapTexts g).mapTexts f = v.mapTexts h
  | .atom text | .string text => by simp [mapTexts, hcomp]
  | .list items => by simp [mapTexts, mapTextsAll_mapTextsAll hcomp items]
  | .quoted kind operand => by simp [mapTexts, mapTexts_mapTexts hcomp operand]

theorem mapTextsAll_mapTextsAll (hcomp : ∀ s, f (g s) = h s) :
    ∀ vs : List Value, mapTextsAll f (mapTextsAll g vs) = mapTextsAll h vs
  | [] => rfl
  | v :: vs => by
    simp [mapTextsAll, mapTexts_mapTexts hcomp v, mapTextsAll_mapTextsAll hcomp vs]

end

mutual

theorem mapTexts_id : ∀ v : Value, v.mapTexts id = v
  | .atom _ | .string _ => rfl
  | .list items => by simp [mapTexts, mapTextsAll_id items]
  | .quoted kind operand => by simp [mapTexts, mapTexts_id operand]

theorem mapTextsAll_id : ∀ vs : List Value, mapTextsAll id vs = vs
  | [] => rfl
  | v :: vs => by simp [mapTextsAll, mapTexts_id v, mapTextsAll_id vs]

end

/-- What a change leaves alike, a coarser one does too. -/
theorem mapTexts_congr (hcomp : ∀ s, f (g s) = f s) {v w : Value}
    (hvw : v.mapTexts g = w.mapTexts g) : v.mapTexts f = w.mapTexts f := by
  rw [← mapTexts_mapTexts hcomp v, ← mapTexts_mapTexts hcomp w, hvw]

end Value

namespace Reader

/-! ## Texts in the machine -/

/-- A change to the texts of the elements that an open form has. -/
def Frame.mapTexts (f : String → String) : Frame → Frame
  | .list items => .list (items.map (Value.mapTexts f))
  | .quoted kind => .quoted kind

/-- A change to all texts that are held between two tokens. -/
def Progress.mapTexts (f : String → String) : Progress → Progress
  | .within stack => .within (stack.map (Frame.mapTexts f))
  | .complete v => .complete (v.mapTexts f)

/-- A change to all texts that a state holds, the unfinished one included. -/
def State.mapTexts (f : String → String) : State → State
  | .between progress => .between (progress.mapTexts f)
  | .comma stack => .comma (stack.map (Frame.mapTexts f))
  | .atom text stack => .atom (f text) (stack.map (Frame.mapTexts f))
  | .atomEscape text stack => .atomEscape (f text) (stack.map (Frame.mapTexts f))
  | .string text stack => .string (f text) (stack.map (Frame.mapTexts f))
  | .stringEscape text stack => .stringEscape (f text) (stack.map (Frame.mapTexts f))

/-- A change to the texts of a form that was read. -/
def Outcome.mapTexts (f : String → String) : Outcome → Outcome
  | .value v => .value (v.mapTexts f)
  | .nothing => .nothing
  | .failed cause openForms => .failed cause openForms

/-- A change to what a unit leads to. -/
def Step.mapTexts (f : String → String) : Step → Step
  | .go next => .go (next.mapTexts f)
  | .stop outcome => .stop (outcome.mapTexts f)

variable {f : String → String} {limit : Nat}

/-- Where a value goes is settled by the open forms alone. -/
theorem mapTexts_deliver (f : String → String) (v : Value) (stack : List Frame) :
    (deliver v stack).mapTexts f = deliver (v.mapTexts f) (stack.map (Frame.mapTexts f)) := by
  induction stack generalizing v with
  | nil => rfl
  | cons frame outer ih =>
    cases frame with
    | list items => rfl
    | quoted kind => exact ih (.quoted kind v)

/-- That no form is found is reported without looking at others. -/
theorem noForm_map (f : String → String) (seen : Option Char) (stack : List Frame) :
    noForm seen (stack.map (Frame.mapTexts f)) = (noForm seen stack).mapTexts f := by
  match stack with
  | [] => rfl
  | .list items :: outer | .quoted kind :: outer =>
    simp [noForm, Frame.mapTexts, Outcome.mapTexts]

theorem finish_mapTexts (f : String → String) (progress : Progress) :
    (progress.mapTexts f).finish = progress.finish.mapTexts f := by
  cases progress with
  | within stack => exact noForm_map f none stack
  | complete v => rfl

theorem enter_congr {stack : List Frame} {next next' : State}
    (h : next.mapTexts f = next'.mapTexts f) :
    (enter limit (stack.map (Frame.mapTexts f)) next).mapTexts f =
      (enter limit stack next').mapTexts f := by
  rw [enter, enter, List.length_map]
  split
  · exact congrArg Step.go h
  · rfl

theorem exists_go_of_mapTexts {result : Step} {next : State}
    (h : result.mapTexts f = (Step.go next).mapTexts f) :
    ∃ next', result = .go next' ∧ next'.mapTexts f = next.mapTexts f := by
  cases result with
  | go next' => exact ⟨next', rfl, Step.go.inj h⟩
  | stop outcome => cases h

theorem exists_stop_of_mapTexts {result : Step} {outcome : Outcome}
    (h : result.mapTexts f = (Step.stop outcome).mapTexts f) :
    ∃ outcome', result = .stop outcome' ∧ outcome'.mapTexts f = outcome.mapTexts f := by
  cases result with
  | go next => cases h
  | stop outcome' => exact ⟨outcome', rfl, Step.stop.inj h⟩

theorem exists_value_of_mapTexts {outcome : Outcome} {w : Value}
    (h : outcome.mapTexts f = (Outcome.value w).mapTexts f) :
    ∃ v, outcome = .value v ∧ v.mapTexts f = w.mapTexts f := by
  cases outcome with
  | value v => exact ⟨v, rfl, Outcome.value.inj h⟩
  | nothing | failed => cases h

/-! ## Changes that are not seen -/

/-- A change that forgets something about texts.  Nothing of it shows again when more is appended,
and it does not make texts empty. -/
structure Blurs (f : String → String) : Prop where
  /-- What is forgotten about a text has no effect on what is appended. -/
  append : ∀ s t, f (f s ++ t) = f (s ++ t)
  /-- An empty text stays empty, and no other one becomes so. -/
  isEmpty : ∀ s, (f s).isEmpty = s.isEmpty

/-- Nothing may be forgotten. -/
theorem blurs_id : Blurs id :=
  ⟨fun _ _ => rfl, fun _ => rfl⟩

namespace Blurs

theorem apply_apply (hf : Blurs f) (s : String) : f (f s) = f s := by
  have happend := hf.append s ""
  rwa [String.append_empty, String.append_empty] at happend

theorem value (hf : Blurs f) (v : Value) : (v.mapTexts f).mapTexts f = v.mapTexts f :=
  Value.mapTexts_mapTexts hf.apply_apply v

theorem stack (hf : Blurs f) (stack : List Frame) :
    (stack.map (Frame.mapTexts f)).map (Frame.mapTexts f) = stack.map (Frame.mapTexts f) := by
  rw [List.map_map]
  refine List.map_congr_left fun frame _ => ?_
  cases frame with
  | list items => simp [Frame.mapTexts, hf.value]
  | quoted kind => rfl

theorem progress (hf : Blurs f) (progress : Progress) :
    (progress.mapTexts f).mapTexts f = progress.mapTexts f := by
  cases progress with
  | within stack => exact congrArg Progress.within (hf.stack stack)
  | complete v => exact congrArg Progress.complete (hf.value v)

theorem outcome (hf : Blurs f) (outcome : Outcome) :
    (outcome.mapTexts f).mapTexts f = outcome.mapTexts f := by
  cases outcome with
  | value v => exact congrArg Outcome.value (hf.value v)
  | nothing | failed => rfl

theorem deliver (hf : Blurs f) (v : Value) (stack : List Frame) :
    (Reader.deliver (v.mapTexts f) (stack.map (Frame.mapTexts f))).mapTexts f =
      (Reader.deliver v stack).mapTexts f := by
  rw [← mapTexts_deliver, hf.progress]

theorem noForm (hf : Blurs f) (seen : Option Char) (stack : List Frame) :
    (Reader.noForm seen (stack.map (Frame.mapTexts f))).mapTexts f =
      (Reader.noForm seen stack).mapTexts f := by
  rw [noForm_map, hf.outcome]

theorem begins (hf : Blurs f) (stack : List Frame) (u : TextUnit) :
    (Reader.begins limit (stack.map (Frame.mapTexts f)) u).mapTexts f =
      (Reader.begins limit stack u).mapTexts f := by
  have hopen : ∀ frame : Frame,
      (State.between (.within (frame :: stack.map (Frame.mapTexts f)))).mapTexts f =
        (State.between (.within (frame :: stack))).mapTexts f := by
    intro frame
    simp only [State.mapTexts, Progress.mapTexts, List.map_cons, hf.stack]
  rcases u.unit_cases with hu | rfl | rfl | rfl | rfl | rfl | rfl | rfl | hu
  · rw [begins_of_isBlank hu, begins_of_isBlank hu]
    simp only [Step.mapTexts, State.mapTexts, Progress.mapTexts, hf.stack]
  · exact enter_congr (hopen (.list []))
  · match stack with
    | [] => rfl
    | .quoted kind :: outer => exact congrArg Step.stop (hf.noForm (some ')') (.quoted kind :: outer))
    | .list items :: outer =>
      have hdeliver := hf.deliver (.list items.reverse) outer
      rw [Value.mapTexts, Value.mapTextsAll_eq_map, List.map_reverse] at hdeliver
      exact congrArg (fun progress => Step.go (.between progress)) hdeliver
  · simp only [begins_string, Step.mapTexts, State.mapTexts, hf.stack]
  · simp only [begins_escape, Step.mapTexts, State.mapTexts, hf.stack]
  · exact enter_congr (hopen (.quoted .quote))
  · exact enter_congr (hopen (.quoted .quasiquote))
  · exact enter_congr (congrArg State.comma (hf.stack stack))
  · rw [begins_of_endsAtom hu, begins_of_endsAtom hu]
    simp only [Step.mapTexts, State.mapTexts, hf.stack]

theorem continues (hf : Blurs f) (progress : Progress) (u : TextUnit) :
    (Reader.continues limit (progress.mapTexts f) u).mapTexts f =
      (Reader.continues limit progress u).mapTexts f := by
  cases progress with
  | within stack => exact hf.begins stack u
  | complete v =>
    simp only [Reader.continues, Progress.mapTexts]
    split
    · simp only [Step.mapTexts, State.mapTexts, Progress.mapTexts, hf.value]
    · simp only [Step.mapTexts, Outcome.mapTexts, hf.value]

/-- **What was forgotten has no effect on a step**, and is forgotten behind it, too. -/
theorem step (hf : Blurs f) (limit : Nat) (state : State) (u : TextUnit) :
    (Reader.step limit (state.mapTexts f) u).mapTexts f =
      (Reader.step limit state u).mapTexts f := by
  cases state with
  | between progress => exact hf.continues progress u
  | comma stack =>
    simp only [Reader.step, State.mapTexts]
    split
    · simp only [Step.mapTexts, State.mapTexts, Progress.mapTexts, List.map_cons, hf.stack]
    · exact hf.begins (.quoted .unquote :: stack) u
  | atom text stack =>
    simp only [Reader.step, State.mapTexts]
    split
    · simp only [Step.mapTexts, State.mapTexts, hf.apply_apply, hf.stack]
    · split
      · rw [← hf.continues (Reader.deliver (.atom text) stack), mapTexts_deliver, Value.mapTexts]
      · simp only [Step.mapTexts, State.mapTexts, hf.append, hf.stack]
  | atomEscape text stack =>
    simp only [Reader.step, Step.mapTexts, State.mapTexts, hf.append, hf.stack]
  | string text stack =>
    simp only [Reader.step, State.mapTexts]
    split
    · exact congrArg (fun progress => Step.go (.between progress)) (hf.deliver (.string text) stack)
    · split
      · simp only [Step.mapTexts, State.mapTexts, hf.apply_apply, hf.stack]
      · simp only [Step.mapTexts, State.mapTexts, hf.append, hf.stack]
  | stringEscape text stack =>
    simp only [Reader.step, Step.mapTexts, State.mapTexts, hf.append, hf.stack]

/-- **Nor has it an effect at the end of the text.** -/
theorem finish (hf : Blurs f) (state : State) :
    (Reader.finish (state.mapTexts f)).mapTexts f = (Reader.finish state).mapTexts f := by
  have hatom : ∀ text stack,
      ((Reader.deliver (.atom (f text)) (stack.map (Frame.mapTexts f))).finish).mapTexts f =
        ((Reader.deliver (.atom text) stack).finish).mapTexts f := by
    intro text stack
    rw [← finish_mapTexts, ← finish_mapTexts]
    exact congrArg Progress.finish (hf.deliver (.atom text) stack)
  cases state with
  | between progress =>
    rw [Reader.finish, State.mapTexts, Reader.finish, finish_mapTexts, hf.outcome]
  | comma stack => exact hf.noForm none (.quoted .unquote :: stack)
  | atom text stack => exact hatom text stack
  | atomEscape text stack =>
    simp only [Reader.finish, State.mapTexts, hf.isEmpty]
    split
    · exact hf.noForm none stack
    · exact hatom text stack
  | string text stack | stringEscape text stack =>
    simp only [Reader.finish, State.mapTexts, List.length_map]

end Blurs

end Reader

end SExpr
