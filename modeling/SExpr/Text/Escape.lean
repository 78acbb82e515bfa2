import SExpr.Text.Blank

/-!
# Backslash escapes

A backslash takes away the meaning of the character behind it.  Inside a string, five letters
behind a backslash stand for control characters; inside an atom every character stands for
itself.

## What is here

* `Escape.denoted` — the character that a letter stands for behind a backslash in a string.
* `Escape.letter?` — the letter to write for a character that must not stand raw in a string; the
  two agree (`Escape.denoted_of_letter?`).
* `Escape.resolve` — what a whole unit behind a backslash stands for.
* `Escape.string`, `Escape.atom` — the written forms of the contents of strings and atoms, with
  what they begin with (`Escape.exists_atomChar_cons`).
-/

set_option autoImplicit false

namespace SExpr
namespace Escape

/-- The backspace control character. -/
def backspace : Char := '\x08'

/-- The form feed control character. -/
def formFeed : Char := '\x0c'

/-- What `c` stands for behind a backslash in a string: itself, unless it is one of five
letters. -/
def denoted (c : Char) : Char :=
  match c with
  | 'r' => '\r'
  | 't' => '\t'
  | 'n' => '\n'
  | 'f' => formFeed
  | 'b' => backspace
  | c => c

/-- The letter that is written behind a backslash for a character that must not stand raw between
the delimiters of a string. -/
def letter? (c : Char) : Option Char :=
  if c = '"' then some '"'
  else if c = '\\' then some '\\'
  else if c = '\r' then some 'r'
  else if c = '\t' then some 't'
  else if c = '\n' then some 'n'
  else if c = formFeed then some 'f'
  else if c = backspace then some 'b'
  else none

/-- The whole escape for such a character, backslash and letter. -/
def sequence? (c : Char) : Option String :=
  (letter? c).map fun letter => String.ofList ['\\', letter]

/-- What a text behind a backslash stands for in a string.  The text is what was taken in one
step; a line break pair, like everything that is not a single character, stands for itself. -/
def resolve (taken : String) : String :=
  match taken.toList with
  | [c] => String.singleton (denoted c)
  | _ => taken

/-! ## Written forms -/

/-- One character as it is written inside a string. -/
def stringChar (c : Char) : List Char :=
  match letter? c with
  | some letter => ['\\', letter]
  | none => [c]

/-- One character as it is written inside an atom. -/
def atomChar (c : Char) : List Char :=
  if endsAtom c then ['\\', c] else [c]

/-- The contents of a string as they are written between its delimiters. -/
def string (s : String) : String :=
  String.ofList (s.toList.flatMap stringChar)

/-- The text of an atom as it is written. -/
def atom (s : String) : String :=
  String.ofList (s.toList.flatMap atomChar)

@[simp] theorem toList_string (s : String) : (string s).toList = s.toList.flatMap stringChar := by
  simp [string]

@[simp] theorem toList_atom (s : String) : (atom s).toList = s.toList.flatMap atomChar := by
  simp [atom]

/-- **A written letter denotes the character it was written for.** -/
theorem denoted_of_letter? {c letter : Char} (h : letter? c = some letter) :
    denoted letter = c := by
  unfold letter? at h
  repeat' split at h
  all_goals cases h
  all_goals exact Eq.symm ‹c = _›

/-! ## By the character that is written -/

theorem atomChar_of_endsAtom {c : Char} (h : endsAtom c = true) : atomChar c = ['\\', c] :=
  if_pos h

theorem atomChar_of_not_endsAtom {c : Char} (h : endsAtom c = false) : atomChar c = [c] :=
  if_neg (by simp [h])

/-- What is written for an atom begins with a backslash or with a part of an atom. -/
theorem exists_atomChar_cons (c : Char) :
    ∃ d more, atomChar c = d :: more ∧ (endsAtom d = false ∨ d = '\\') := by
  cases h : endsAtom c with
  | true => exact ⟨_, _, atomChar_of_endsAtom h, Or.inr rfl⟩
  | false => exact ⟨_, _, atomChar_of_not_endsAtom h, Or.inl h⟩

theorem ne_of_letter?_eq_none {c d : Char} (h : letter? c = none) (hd : letter? d ≠ none) :
    c ≠ d := by
  rintro rfl
  exact hd h

end Escape

end SExpr
