import SExpr.Text.Escape
import SExpr.Value.Basic

/-!
# The grammar

Which texts denote which values, as rules of derivation.  Nothing here says how a text is read;
the rules only relate characters to values.

An atom ends where the next delimiter stands, so what follows a form takes part in its rules: each
relation tells a text, what its beginning denotes, and the text that is left.

## What is here

* `Grammar.Blanks` — a text and what is left behind blanks.
* `Grammar.AtomBody`, `Grammar.StringBody`, `Grammar.Mark` — the tokens.
* `Grammar.Form`, `Grammar.Forms` — forms, and the elements of a list.
* `Grammar.Input` — whole texts: one form, with blanks around it.
-/

set_option autoImplicit false

namespace SExpr
namespace Grammar

/-! ## Tokens -/

/-- `Blanks text rest`: the text is blanks and then `rest`. -/
inductive Blanks : List Char → List Char → Prop where
  | none (text : List Char) : Blanks text text
  | cons {c : Char} {text rest : List Char} (blank : isBlank c = true) :
    Blanks text rest → Blanks (c :: text) rest

/-- Can no atom go on here?  At the end of a text, and in front of every delimiter but the
backslash. -/
def EndsAtomAt (rest : List Char) : Prop :=
  ∀ c ∈ rest.head?, endsAtom c = true ∧ c ≠ '\\'

/-- Would this character make a line break pair with the text behind it? -/
def Pairs (c : Char) (text : List Char) : Prop :=
  c = '\r' ∧ text.head? = some '\n'

/-- `AtomBody text chars rest`: as much as can belong to an atom stands in front of `rest`, and
its text is `chars`.  Behind a backslash every character belongs to it, and so does every line
break pair.  A backslash at the end of the text adds nothing. -/
inductive AtomBody : List Char → List Char → List Char → Prop where
  | done {rest : List Char} (ends : EndsAtomAt rest) : AtomBody rest [] rest
  | plain {c : Char} {text chars rest : List Char} (plain : endsAtom c = false) :
    AtomBody text chars rest → AtomBody (c :: text) (c :: chars) rest
  | escapedPair {text chars rest : List Char} :
    AtomBody text chars rest →
    AtomBody ('\\' :: '\r' :: '\n' :: text) ('\r' :: '\n' :: chars) rest
  | escaped {c : Char} {text chars rest : List Char} (alone : ¬Pairs c text) :
    AtomBody text chars rest → AtomBody ('\\' :: c :: text) (c :: chars) rest
  | cutOff : AtomBody ['\\'] [] []

/-- `StringBody text chars rest`: the rest of a string literal with its closing delimiter stands
in front of `rest`, and it contains `chars`. -/
inductive StringBody : List Char → List Char → List Char → Prop where
  | done (rest : List Char) : StringBody ('"' :: rest) [] rest
  | plain {c : Char} {text chars rest : List Char} (notQuote : c ≠ '"') (notEscape : c ≠ '\\') :
    StringBody text chars rest → StringBody (c :: text) (c :: chars) rest
  | escapedPair {text chars rest : List Char} :
    StringBody text chars rest →
    StringBody ('\\' :: '\r' :: '\n' :: text) ('\r' :: '\n' :: chars) rest
  | escaped {c : Char} {text chars rest : List Char} :
    StringBody text chars rest → StringBody ('\\' :: c :: text) (Escape.denoted c :: chars) rest

/-- `Mark text kind rest`: the text is the mark of a kind and then `rest`.  A comma in front of an
at sign is no mark of its own. -/
inductive Mark : List Char → QuoteKind → List Char → Prop where
  | quote (rest : List Char) : Mark ('\'' :: rest) .quote rest
  | quasiquote (rest : List Char) : Mark ('\x60' :: rest) .quasiquote rest
  | unquote {rest : List Char} (alone : rest.head? ≠ some '@') : Mark (',' :: rest) .unquote rest
  | unquoteSplicing (rest : List Char) : Mark (',' :: '@' :: rest) .unquoteSplicing rest

/-! ## Forms -/

mutual

/-- `Form text v rest`: the text is a form that denotes `v` and then `rest`. -/
inductive Form : List Char → Value → List Char → Prop where
  | atom {text chars rest : List Char} :
    AtomBody text chars rest → chars ≠ [] → Form text (.atom (String.ofList chars)) rest
  | string {text chars rest : List Char} :
    StringBody text chars rest → Form ('"' :: text) (.string (String.ofList chars)) rest
  | list {text rest : List Char} {items : List Value} :
    Forms text items (')' :: rest) → Form ('(' :: text) (.list items) rest
  | quoted {text behind spaced rest : List Char} {kind : QuoteKind} {operand : Value} :
    Mark text kind behind → Blanks behind spaced → Form spaced operand rest →
    Form text (.quoted kind operand) rest

/-- `Forms text items rest`: the text is forms that denote `items`, with blanks around them, and
then `rest`. -/
inductive Forms : List Char → List Value → List Char → Prop where
  | nil {text rest : List Char} : Blanks text rest → Forms text [] rest
  | cons {text spaced behind rest : List Char} {v : Value} {items : List Value} :
    Blanks text spaced → Form spaced v behind → Forms behind items rest →
    Forms text (v :: items) rest

end

/-- The text is one form that denotes `v`, with blanks around it. -/
def Input (text : List Char) (v : Value) : Prop :=
  Forms text [v] []

end Grammar

end SExpr
