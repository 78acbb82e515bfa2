import SExpr.Value.Basic

/-!
# The shape of a value

What can be said of a tree as a whole: how deep it is nested, which texts its leaves hold, and the
tree that is left when every quoted form is spelled out as a list.

## What is here

* `Value.depth` — the nesting depth that reading limits.
* `Value.atoms`, `Value.strings` — the texts of all atoms and of all strings, in reading order.
* `Value.unquotedAtoms` — the atoms that stand directly behind an unquote mark.
* `Value.desugar` — each quoted form as the list of its kind's name and its operand.  It keeps the
  depth (`Value.depth_desugar`) and leaves nothing to spell out (`Value.desugar_desugar`).
-/

set_option autoImplicit false

namespace SExpr
namespace Value

/-! ## Nesting -/

mutual

/-- How many lists and quoted forms are open at the innermost place of a value. -/
def depth : Value → Nat
  | .atom _ | .string _ => 0
  | .list items => depthAll items + 1
  | .quoted _ operand => depth operand + 1

/-- The depth of the deepest of several values. -/
def depthAll : List Value → Nat
  | [] => 0
  | v :: vs => max (depth v) (depthAll vs)

end

/-! ## Leaves -/

mutual

/-- The texts of all atoms, in reading order. -/
def atoms : Value → List String
  | .atom text => [text]
  | .string _ => []
  | .list items => atomsAll items
  | .quoted _ operand => atoms operand

/-- The texts of all atoms of several values. -/
def atomsAll : List Value → List String
  | [] => []
  | v :: vs => atoms v ++ atomsAll vs

end

mutual

/-- The contents of all strings, in reading order. -/
def strings : Value → List String
  | .atom _ => []
  | .string text => [text]
  | .list items => stringsAll items
  | .quoted _ operand => strings operand

/-- The contents of all strings of several values. -/
def stringsAll : List Value → List String
  | [] => []
  | v :: vs => strings v ++ stringsAll vs

end

mutual

/-- The texts of those atoms that are the operand of an unquote form.  In front of such an atom
stands a comma, which a first character `@` would change into another mark. -/
def unquotedAtoms : Value → List String
  | .atom _ | .string _ => []
  | .list items => unquotedAtomsAll items
  | .quoted .unquote (.atom text) => [text]
  | .quoted _ operand => unquotedAtoms operand

/-- The same for several values. -/
def unquotedAtomsAll : List Value → List String
  | [] => []
  | v :: vs => unquotedAtoms v ++ unquotedAtomsAll vs

end

/-! ## Spelling out quoted forms -/

mutual

/-- Every quoted form as a list of two: the name of its kind, and its operand. -/
def desugar : Value → Value
  | .atom text => .atom text
  | .string text => .string text
  | .list items => .list (desugarAll items)
  | .quoted kind operand => .list [.atom kind.name, desugar operand]

/-- The same for several values. -/
def desugarAll : List Value → List Value
  | [] => []
  | v :: vs => desugar v :: desugarAll vs

end

mutual

/-- **Spelling out keeps the depth:** the list takes the place of the quoted form. -/
theorem depth_desugar : ∀ v : Value, v.desugar.depth = v.depth
  | .atom _ | .string _ => rfl
  | .list items => by simp [desugar, depth, depthAll_desugarAll items]
  | .quoted kind operand => by simp [desugar, depth, depthAll, depth_desugar operand]

theorem depthAll_desugarAll : ∀ vs : List Value, depthAll (desugarAll vs) = depthAll vs
  | [] => rfl
  | v :: vs => by simp [desugarAll, depthAll, depth_desugar v, depthAll_desugarAll vs]

end

mutual

/-- Nothing is left to spell out. -/
theorem desugar_desugar : ∀ v : Value, v.desugar.desugar = v.desugar
  | .atom _ | .string _ => rfl
  | .list items => by simp [desugar, desugarAll_desugarAll items]
  | .quoted kind operand => by simp [desugar, desugarAll, desugar_desugar operand]

theorem desugarAll_desugarAll : ∀ vs : List Value,
    desugarAll (desugarAll vs) = desugarAll vs
  | [] => rfl
  | v :: vs => by simp [desugarAll, desugar_desugar v, desugarAll_desugarAll vs]

end

end Value

end SExpr
