/-!
# Values

The trees that texts denote.  Every atom is plain text: numbers are not told apart from symbols.
Strings are kept apart from atoms because they are written between delimiters.

## What is here

* `QuoteKind` — the four kinds of quoted forms, each with a name and a mark.
* `Value` — atoms, strings, lists and quoted forms, with the views `Value.atom?`,
  `Value.string?` and `Value.list?`.
* Equality of values is decidable.
-/

set_option autoImplicit false

namespace SExpr

/-! ## Kinds of quoted forms -/

/-- The ways in which a form can be quoted. -/
inductive QuoteKind where
  | quote
  | quasiquote
  | unquote
  | unquoteSplicing
  deriving DecidableEq

namespace QuoteKind

/-- All kinds. -/
def all : List QuoteKind :=
  [.quote, .quasiquote, .unquote, .unquoteSplicing]

/-- The atom that stands in front when a quoted form is written as a list. -/
def name : QuoteKind → String
  | .quote => "quote"
  | .quasiquote => "quasiquote"
  | .unquote => "unquote"
  | .unquoteSplicing => "unquote-splicing"

/-- What is written in front of the quoted form otherwise. -/
def mark : QuoteKind → String
  | .quote => "'"
  | .quasiquote => "`"
  | .unquote => ","
  | .unquoteSplicing => ",@"

/-- The kind that a single character introduces.  The splicing kind has a mark of two characters,
and a comma alone does not settle which of the two kinds it introduces. -/
def ofChar? (c : Char) : Option QuoteKind :=
  if c = '\'' then some .quote
  else if c = '\x60' then some .quasiquote
  else if c = ',' then some .unquote
  else none

end QuoteKind

/-! ## Trees -/

/-- What a text denotes. -/
inductive Value where
  /-- A bare word. -/
  | atom (text : String)
  /-- The contents of a string literal, with its escapes resolved. -/
  | string (text : String)
  /-- Forms between parentheses. -/
  | list (items : List Value)
  /-- A form behind a mark. -/
  | quoted (kind : QuoteKind) (operand : Value)

namespace Value

instance : Inhabited Value := ⟨.list []⟩

/-- The text of an atom. -/
def atom? : Value → Option String
  | .atom text => some text
  | _ => none

/-- The contents of a string. -/
def string? : Value → Option String
  | .string text => some text
  | _ => none

/-- The elements of a list. -/
def list? : Value → Option (List Value)
  | .list items => some items
  | _ => none

/-! ## Equality -/

mutual

/-- Compares two values from the top down. -/
def decEq : (v w : Value) → Decidable (v = w)
  | .atom s, .atom t => if h : s = t then .isTrue (by rw [h]) else .isFalse (by simp [h])
  | .string s, .string t => if h : s = t then .isTrue (by rw [h]) else .isFalse (by simp [h])
  | .list vs, .list ws =>
    match decEqAll vs ws with
    | .isTrue h => .isTrue (by rw [h])
    | .isFalse h => .isFalse (by simp [h])
  | .quoted j v, .quoted k w =>
    if hk : j = k then
      match decEq v w with
      | .isTrue h => .isTrue (by rw [hk, h])
      | .isFalse h => .isFalse (by simp [h])
    else .isFalse (by simp [hk])
  | .atom _, .string _ | .atom _, .list _ | .atom _, .quoted _ _
  | .string _, .atom _ | .string _, .list _ | .string _, .quoted _ _
  | .list _, .atom _ | .list _, .string _ | .list _, .quoted _ _
  | .quoted _ _, .atom _ | .quoted _ _, .string _ | .quoted _ _, .list _ => .isFalse (by simp)

/-- Compares two lists of values element by element. -/
def decEqAll : (vs ws : List Value) → Decidable (vs = ws)
  | [], [] => .isTrue rfl
  | [], _ :: _ | _ :: _, [] => .isFalse (by simp)
  | v :: vs, w :: ws =>
    match decEq v w with
    | .isFalse h => .isFalse (by simp [h])
    | .isTrue hv =>
      match decEqAll vs ws with
      | .isTrue h => .isTrue (by rw [hv, h])
      | .isFalse h => .isFalse (by simp [h])

end

instance : DecidableEq Value := decEq

end Value

end SExpr
