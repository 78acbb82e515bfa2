import SExpr.Text.CharTable

/-!
# Characters that separate

Two classes of characters.  *Blanks* stand between forms and mean nothing.  *Delimiters* end an
atom: the blanks, and the seven characters that have a meaning of their own.

## What is here

* `isBlank` — the white space of Unicode with two exceptions: the next-line control U+0085 is an
  ordinary character, and the byte order mark U+FEFF is a blank.
* `endsAtom` — the delimiters.  A backslash is one of them, so an atom is also interrupted where
  an escape begins.
* `lead_cases` — every character is a blank, one of the seven with a meaning of its own, or part
  of an atom.
-/

set_option autoImplicit false

namespace SExpr

/-- The blanks. -/
def blanks : CharTable :=
  [(0x09, 0x0D), (0x20, 0x20), (0xA0, 0xA0), (0x1680, 0x1680), (0x2000, 0x200A),
   (0x2028, 0x2029), (0x202F, 0x202F), (0x205F, 0x205F), (0x3000, 0x3000), (0xFEFF, 0xFEFF)]

/-- Is this a character that only separates? -/
def isBlank (c : Char) : Bool :=
  blanks.has c

/-- The characters that have a meaning of their own: the escape, the string delimiter, the marks
of quoted forms and the parentheses. -/
def isSpecial (c : Char) : Bool :=
  c == '\\' || c == '"' || c == '\'' || c == '\x60' || c == ',' || c == '(' || c == ')'

/-- Does this character end an atom?  It can be part of one only behind a backslash. -/
def endsAtom (c : Char) : Bool :=
  isBlank c || isSpecial c

/-! ## Characters by their meaning -/

/-- Every character is a blank, has a meaning of its own, or is part of an atom. -/
theorem lead_cases (c : Char) : isBlank c = true ∨ c = '(' ∨ c = ')' ∨ c = '"' ∨ c = '\\' ∨
    c = '\'' ∨ c = '\x60' ∨ c = ',' ∨ endsAtom c = false := by
  cases hb : isBlank c with
  | true => exact Or.inl rfl
  | false =>
    cases hs : isSpecial c with
    | false => simp [endsAtom, hb, hs]
    | true =>
      simp only [isSpecial, Bool.or_eq_true, beq_iff_eq] at hs
      rcases hs with (((((h | h) | h) | h) | h) | h) | h <;> simp [h]

theorem isBlank_eq_false_of_endsAtom {c : Char} (h : endsAtom c = false) : isBlank c = false := by
  simp only [endsAtom, Bool.or_eq_false_iff] at h
  exact h.1

theorem ne_of_isBlank {c d : Char} (h : isBlank c = true) (hd : isBlank d = false) : c ≠ d := by
  rintro rfl
  rw [h] at hd
  cases hd

/-- A part of an atom is none of the characters with a meaning of their own. -/
theorem ne_of_endsAtom {c d : Char} (h : endsAtom c = false) (hd : endsAtom d = true) : c ≠ d := by
  rintro rfl
  rw [h] at hd
  cases hd

/-- What can begin an atom is no blank. -/
theorem isBlank_eq_false_of_beginsAtom {c : Char} (h : endsAtom c = false ∨ c = '\\') :
    isBlank c = false := by
  rcases h with h | rfl
  · exact isBlank_eq_false_of_endsAtom h
  · decide

/-- What can begin an atom is no delimiter but the backslash. -/
theorem ne_of_beginsAtom {c d : Char} (h : endsAtom c = false ∨ c = '\\') (hd : endsAtom d = true)
    (hescape : d ≠ '\\') : c ≠ d := by
  rcases h with h | rfl
  · exact ne_of_endsAtom h hd
  · exact hescape.symm

end SExpr
