import SExpr.Reader.Basic
import SExpr.Printer

/-!
# Reformatting

Reading a text and printing what it denotes.
-/

set_option autoImplicit false

namespace SExpr

/-- The printed form of what a text denotes. -/
def reformatWith (settings : Settings) (text : String) : Except SyntaxError String :=
  (Value.parseWith settings.limits text).map (Value.print settings.format)

/-- The same with a width for each level of nesting and otherwise standard settings. -/
def reformat (indentWidth : Nat) (text : String) : Except SyntaxError String :=
  reformatWith { Settings.standard with format := { Format.standard with indentWidth } } text

end SExpr
