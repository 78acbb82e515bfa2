/-!
# Text units

A reader takes a text one *unit* at a time.  A unit is a single character, except that a carriage
return directly followed by a line feed makes one unit of two characters.  So a line break is
always one unit, however it is written, and nothing can come to stand between the two characters
of a pair.

## What is here

* `TextUnit` — a character or a pair, with its first character (`TextUnit.lead`), all its
  characters (`TextUnit.chars`) and its size in bytes (`TextUnit.byteSize`).
* `TextUnit.ofChars`, `TextUnit.toChars` — cutting a list of characters into units and joining
  units again.  Cutting loses nothing (`TextUnit.toChars_ofChars`), and two texts can be cut one by
  one unless a pair stands across the seam (`TextUnit.ofChars_append`).
* `TextUnit.ofString`, `TextUnit.toString` — the same on strings.
-/

set_option autoImplicit false

namespace SExpr

/-- What a reader takes from a text in one step. -/
inductive TextUnit where
  /-- One character. -/
  | char (c : Char)
  /-- A carriage return together with the line feed that follows it. -/
  | crlf
  deriving DecidableEq

namespace TextUnit

/-- The characters of a unit, in order. -/
def chars : TextUnit → List Char
  | .char c => [c]
  | .crlf => ['\r', '\n']

/-- The first character of a unit.  Every decision on what to do with a unit is taken on it. -/
def lead : TextUnit → Char
  | .char c => c
  | .crlf => '\r'

/-- A unit as a text of its own. -/
def text (u : TextUnit) : String :=
  String.ofList u.chars

/-- How many bytes a unit takes in UTF-8. -/
def byteSize : TextUnit → Nat
  | .char c => c.utf8Size
  | .crlf => 2

/-- A unit that ends a line: a pair, or either of its characters on its own. -/
def isLineBreak : TextUnit → Bool
  | .char c => c == '\r' || c == '\n'
  | .crlf => true

/-! ## Cutting a text into units -/

/-- Puts a character in front of units that are already cut. -/
def cons (c : Char) (us : List TextUnit) : List TextUnit :=
  match c, us with
  | '\r', .char '\n' :: rest => .crlf :: rest
  | c, us => .char c :: us

/-- The units of a list of characters. -/
def ofChars (cs : List Char) : List TextUnit :=
  cs.foldr cons []

/-- The characters of a list of units. -/
def toChars (us : List TextUnit) : List Char :=
  us.flatMap chars

/-- The units of a text. -/
def ofString (s : String) : List TextUnit :=
  ofChars s.toList

/-- The text that a list of units makes. -/
def toString (us : List TextUnit) : String :=
  String.ofList (toChars us)

@[simp] theorem ofChars_nil : ofChars [] = [] := rfl

@[simp] theorem ofChars_cons (c : Char) (cs : List Char) :
    ofChars (c :: cs) = cons c (ofChars cs) := rfl

@[simp] theorem toChars_nil : toChars [] = [] := rfl

@[simp] theorem toChars_cons (u : TextUnit) (us : List TextUnit) :
    toChars (u :: us) = u.chars ++ toChars us := rfl

@[simp] theorem toChars_append (us vs : List TextUnit) :
    toChars (us ++ vs) = toChars us ++ toChars vs :=
  List.flatMap_append

/-- Whether or not a pair is made, the characters stay what they were. -/
theorem toChars_cons_char (c : Char) (us : List TextUnit) :
    toChars (cons c us) = c :: toChars us := by
  unfold cons
  split <;> rfl

/-- **Cutting a text into units loses nothing.** -/
@[simp] theorem toChars_ofChars (cs : List Char) : toChars (ofChars cs) = cs := by
  induction cs with
  | nil => rfl
  | cons c cs ih => rw [ofChars_cons, toChars_cons_char, ih]

/-- There are no more units than characters. -/
theorem length_le_toChars (us : List TextUnit) : us.length ≤ (toChars us).length := by
  induction us with
  | nil => exact Nat.le_refl 0
  | cons u us ih =>
    rw [toChars_cons, List.length_append, List.length_cons]
    have hpos : 1 ≤ u.chars.length := by cases u <;> simp [chars]
    omega

/-- Without a line feed in front, nothing joins. -/
theorem cons_of_ne {c : Char} {us : List TextUnit}
    (h : ¬(c = '\r' ∧ us.head? = some (.char '\n'))) : cons c us = .char c :: us := by
  unfold cons
  split
  · exact absurd ⟨rfl, rfl⟩ h
  · rfl

/-- The first unit of a text is a line feed only if its first character is. -/
theorem head?_ofChars_eq_lf {cs : List Char}
    (h : (ofChars cs).head? = some (.char '\n')) : cs.head? = some '\n' := by
  cases cs with
  | nil => simp at h
  | cons c cs =>
    rw [ofChars_cons] at h
    unfold cons at h
    split at h
    · simp at h
    · simpa using h

/-- **Two texts are cut one by one** unless a line break pair stands across the seam. -/
theorem ofChars_append {cs ds : List Char}
    (h : ¬(cs.getLast? = some '\r' ∧ ds.head? = some '\n')) :
    ofChars (cs ++ ds) = ofChars cs ++ ofChars ds := by
  induction cs with
  | nil => rfl
  | cons c cs ih =>
    rw [List.cons_append, ofChars_cons, ofChars_cons]
    cases cs with
    | nil =>
      have single : cons c [] = [.char c] := cons_of_ne (by simp)
      rw [List.nil_append, ofChars_nil, single]
      refine cons_of_ne ?_
      rintro ⟨rfl, hd⟩
      exact h ⟨rfl, head?_ofChars_eq_lf hd⟩
    | cons c' cs =>
      rw [ih (by simpa using h)]
      have hne : ofChars (c' :: cs) ≠ [] := by
        intro he
        simpa [he] using toChars_ofChars (c' :: cs)
      obtain ⟨u, us, hu⟩ := List.exists_cons_of_ne_nil hne
      rw [hu, List.cons_append]
      unfold cons
      split <;> simp_all

@[simp] theorem toString_ofString (s : String) : toString (ofString s) = s := by
  simp [toString, ofString]

end TextUnit

end SExpr
