import SExpr.Proofs.Printer.ReadBack
import SExpr.Proofs.Reader.Sequence

/-!
# The values that texts denote

Every value without an empty atom is read from some text, as long as it is not nested deeper than
the limits allow, and no call of a reader ever gives another value.  Printed text does not show
this: an atom that ends in a carriage return must not stand in front of the end of a line.  So every
value is written on one line here, with a blank behind each element of a list.

## What is here

* `Value.oneLine` — a value on one line, and that it is read back (`Value.form_oneLine`).
* `Halts.bounds_of_value` — what a run gives has no empty atom and is not nested too deep.
* `parseWith_image` — which values are read, from whole texts and from any number of calls.
-/

set_option autoImplicit false

namespace SExpr

open Grammar

namespace Value

/-! ## A value on one line -/

mutual

/-- The characters of a value on one line.  Behind a mark stands a blank, so that a comma remains
a mark of its own. -/
def oneLine : Value → List Char
  | .atom text => text.toList.flatMap Escape.atomChar
  | .string text => stringChars text
  | .list items => '(' :: (oneLineAll items ++ [')'])
  | .quoted kind operand => kind.mark.toList ++ ' ' :: oneLine operand

/-- The characters of several values, with a blank behind each of them. -/
def oneLineAll : List Value → List Char
  | [] => []
  | v :: vs => oneLine v ++ ' ' :: oneLineAll vs

end

/-- What may stand behind a value on one line: the end of the text, or a delimiter that ends an atom
and makes no line break pair with it. -/
def EndsLineAt (tail : List Char) : Prop :=
  EndsAtomAt tail ∧ tail.head? ≠ some '\n'

theorem endsLineAt_nil : EndsLineAt [] :=
  ⟨by rintro c ⟨⟩, by simp⟩

theorem endsLineAt_blank (tail : List Char) : EndsLineAt (' ' :: tail) :=
  ⟨by rintro c ⟨⟩; exact ⟨by decide, by decide⟩, by simp⟩

mutual

/-- **A value on one line is that value**, if none of its atoms is empty. -/
theorem form_oneLine : ∀ (v : Value), (∀ a ∈ v.atoms, a ≠ "") →
    ∀ {tail : List Char}, EndsLineAt tail → Form (oneLine v ++ tail) v tail
  | .atom text, hatoms, tail, htail => by
    have hbody : AtomBody (text.toList.flatMap Escape.atomChar ++ tail) (text.toList ++ []) tail :=
      (atomBody_written_iff fun hseam => htail.2 hseam.2).2 ⟨[], rfl, .done htail.1⟩
    have hform : Form _ (.atom (String.ofList (text.toList ++ []))) tail :=
      .atom hbody (by simpa using hatoms text List.mem_cons_self)
    rwa [List.append_nil, String.ofList_toList] at hform
  | .string text, _, tail, _ => by
    have hform : Form _ (.string (String.ofList text.toList)) tail :=
      .string (stringBody_written_iff.2 ⟨rfl, rfl⟩)
    rw [String.ofList_toList] at hform
    rw [oneLine, stringChars]
    simpa using hform
  | .list items, hatoms, tail, _ => by
    rw [oneLine, List.cons_append, List.append_assoc]
    exact .list (forms_oneLineAll items hatoms tail)
  | .quoted kind operand, hatoms, tail, htail => by
    rw [oneLine, List.append_assoc]
    exact .quoted ((mark_iff fun _ => by simp).2 ⟨rfl, rfl⟩) (.cons (by decide) (.none _))
      (form_oneLine operand hatoms htail)

/-- Several values on one line are the elements of a list. -/
theorem forms_oneLineAll : ∀ (vs : List Value), (∀ a ∈ atomsAll vs, a ≠ "") →
    ∀ tail : List Char, Forms (oneLineAll vs ++ ')' :: tail) vs (')' :: tail)
  | [], _, tail => .nil (.none _)
  | v :: vs, hatoms, tail => by
    rw [atomsAll] at hatoms
    rw [oneLineAll, List.append_assoc]
    exact .cons (.none _)
      (form_oneLine v (fun a ha => hatoms a (List.mem_append_left _ ha)) (endsLineAt_blank _))
      (forms_of_blanks (.cons (by decide) (.none _))
        (forms_oneLineAll vs (fun a ha => hatoms a (List.mem_append_right _ ha)) tail))

end

/-- A value on one line is a whole text. -/
theorem input_oneLine {v : Value} (h : ∀ a ∈ v.atoms, a ≠ "") : Input (oneLine v) v := by
  have hform := form_oneLine v h endsLineAt_nil
  rw [List.append_nil] at hform
  exact .cons (.none _) hform (.nil (.none []))

end Value

namespace Reader

/-! ## What calls give -/

variable {limit : Nat} {text front back : String} {last : State} {v : Value} {r : Reader}

/-- **What a run gives** has no empty atom and is not nested deeper than the limit. -/
theorem Halts.bounds_of_value (h : Halts limit text front back last (.value v)) :
    (∀ a ∈ v.atoms, a ≠ "") ∧ v.depth ≤ limit := by
  have hvalue : (run limit .start .start (TextUnit.ofChars text.toList)).1 = .value v :=
    congrArg Prod.fst (run_of_halts h)
  obtain ⟨spaced, x, behind, hblanks, hform, rfl, -⟩ := yields_of_run hvalue
  refine ⟨hform.atom_ne_empty, Nat.le_of_not_lt fun hdeep => ?_⟩
  have hover : Overruns limit .start (TextUnit.ofChars text.toList) :=
    (reaches_of_blanks hblanks (hform.head?_ne (by decide)) (.within [])).overruns
      (overruns_of_form hform [] (Nat.zero_le limit) hdeep)
  rw [hover .start] at hvalue
  cases hvalue

/-- A call in a text gives only such values, with its allowance for the limit. -/
theorem StandsAt.bounds_of_given (hr : r.StandsAt text front back)
    (hvalue : r.given 0 = .ok (some v)) : (∀ a ∈ v.atoms, a ≠ "") ∧ v.depth ≤ r.allowance := by
  obtain ⟨mid, behind, last, outcome, hhalts⟩ := exists_halts r.allowance back
  rw [given, afterCalls, hr.next_eq hhalts] at hvalue
  cases outcome with
  | value w =>
    obtain rfl := Option.some.inj (Except.ok.inj hvalue)
    exact hhalts.bounds_of_value
  | nothing => cases hvalue
  | failed cause openForms => cases hvalue

/-- No call adds to the allowance. -/
theorem allowance_next_le (r : Reader) : r.next.2.allowance ≤ r.allowance := by
  rw [Reader.next]
  split
  · exact Nat.le_refl _
  · exact Nat.le_refl _
  · exact Nat.sub_le _ _

theorem allowance_afterCalls_le (r : Reader) (n : Nat) :
    (r.afterCalls n).allowance ≤ r.allowance := by
  induction n with
  | zero => exact Nat.le_refl _
  | succ n ih => exact Nat.le_trans (allowance_next_le _) ih

/-- Calls leave a reader in its text. -/
theorem StandsAt.exists_afterCalls (hr : r.StandsAt text front back) (n : Nat) :
    ∃ front back, (r.afterCalls n).StandsAt text front back := by
  induction n with
  | zero => exact ⟨front, back, hr⟩
  | succ n ih =>
    obtain ⟨front, back, hstands⟩ := ih
    obtain ⟨mid, behind, last, outcome, hhalts⟩ := exists_halts (r.afterCalls n).allowance back
    exact ⟨_, _, hstands.next hhalts⟩

end Reader

namespace Value

open Reader

/-- **The values that texts denote.**  Exactly those without an empty atom are read from some text,
if they are not nested deeper than the limits allow.  No call of a reader gives any other value,
however many calls were made before, and whether they failed or not. -/
theorem parseWith_image (limits : Limits) :
    (∀ v, (∃ text, parseWith limits text = .ok v) ↔
      (∀ a ∈ v.atoms, a ≠ "") ∧ v.depth ≤ limits.maxDepth) ∧
    ∀ text n v, (Reader.ofString limits text).given n = .ok (some v) →
      (∀ a ∈ v.atoms, a ≠ "") ∧ v.depth ≤ limits.maxDepth := by
  refine ⟨fun v => ⟨?_, ?_⟩, fun text n v hvalue => ?_⟩
  · rintro ⟨text, hv⟩
    exact ⟨atom_ne_empty_of_input (input_of_parseWith hv), depth_le_of_parseWith hv⟩
  · rintro ⟨hatoms, hdepth⟩
    refine ⟨String.ofList (oneLine v), parseWith_of_input ?_ hdepth⟩
    rw [String.toList_ofList]
    exact input_oneLine hatoms
  · obtain ⟨front, back, hstands⟩ := (standsAt_ofString limits text).exists_afterCalls n
    obtain ⟨hatoms, hdepth⟩ := hstands.bounds_of_given (v := v) hvalue
    exact ⟨hatoms, Nat.le_trans hdepth (allowance_afterCalls_le _ n)⟩

/-- A list of a carriage return is read, one of an empty atom is not, and what a second call gives
is as it must be. -/
theorem parseWith_image_return :
    (∃ text, parseWith ⟨1⟩ text = .ok (.list [.atom "\r"])) ∧
      (¬ ∃ text, parseWith ⟨1⟩ text = .ok (.list [.atom ""])) ∧
      (Reader.ofString ⟨1⟩ "a '\"b\"").given 1 = .ok (some (.quoted .quote (.string "b"))) ∧
      (Value.quoted .quote (.string "b")).depth ≤ 1 := by
  have hread := (parseWith_image ⟨1⟩).1
  have hsecond : (Reader.ofString ⟨1⟩ "a '\"b\"").given 1 =
      .ok (some (.quoted .quote (.string "b"))) := rfl
  refine ⟨(hread _).2 (by decide), fun h => ?_, hsecond,
    ((parseWith_image ⟨1⟩).2 _ 1 _ hsecond).2⟩
  exact ((hread _).1 h).1 "" (by decide) rfl

end Value

end SExpr
