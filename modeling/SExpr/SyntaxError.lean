import SExpr.Text.Position
import SExpr.Value.Basic

/-!
# Syntax errors

Why a text could not be read, and where that showed.

## What is here

* `SyntaxError.Cause` — the reasons, each with what its message tells.
* `SyntaxError` — a reason and a position.
* `SyntaxError.Cause.message`, `SyntaxError.display` — the wording.
-/

set_option autoImplicit false

namespace SExpr

/-- The reasons for which reading stops.  `seen` is the character that was found instead of what
was wanted, or `none` at the end of the text. -/
inductive SyntaxError.Cause where
  /-- The text ends inside a string. -/
  | unterminatedString
  /-- A list does not begin with its parenthesis. -/
  | expectedOpen (seen : Option Char)
  /-- A list is not closed. -/
  | expectedClose (seen : Option Char)
  /-- No form follows a mark. -/
  | missingOperand (kind : QuoteKind) (seen : Option Char)
  /-- Something follows the one form that was wanted. -/
  | superfluous (found : Char)
  /-- There is no form. -/
  | emptyInput
  /-- One more form would be open than the limits allow. -/
  | nestingTooDeep
  deriving DecidableEq

/-- A reason, with the place where reading stopped. -/
structure SyntaxError where
  /-- Why reading stopped. -/
  cause : SyntaxError.Cause
  /-- In front of what it stopped. -/
  pos : Position
  deriving DecidableEq

namespace SyntaxError

/-- What was found, as messages name it. -/
def describeSeen : Option Char → String
  | some c => "`" ++ c.toString ++ "`"
  | none => "end of input"

/-- The wording of a reason. -/
def Cause.message : Cause → String
  | .unterminatedString => "Unterminated string literal"
  | .expectedOpen seen => "Expected `(` - saw " ++ describeSeen seen ++ " instead."
  | .expectedClose seen => "Expected `)` - saw: " ++ describeSeen seen
  | .missingOperand kind seen =>
    "Unexpected " ++ describeSeen seen ++ " after `" ++ kind.mark ++ "`"
  | .superfluous found =>
    "Superfluous characters after expression: " ++ describeSeen (some found)
  | .emptyInput => "Expected an expression, saw end of input"
  | .nestingTooDeep => "Nesting too deep"

/-- The wording of an error, without its place. -/
def message (e : SyntaxError) : String :=
  e.cause.message

/-- The line of an error, counted from one. -/
def line (e : SyntaxError) : Nat :=
  e.pos.lineNumber

/-- The column of an error, counted from one. -/
def column (e : SyntaxError) : Nat :=
  e.pos.columnNumber

/-- An error on a line of its own. -/
def display (e : SyntaxError) : String :=
  "Syntax error: " ++ e.message ++ " " ++ e.pos.display

end SyntaxError

end SExpr
