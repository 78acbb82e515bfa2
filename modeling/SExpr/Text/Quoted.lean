import SExpr.Text.Invisible

/-!
# Quoted names

Names of files are shown in messages between quotation marks, in a form that stays on one line and
hides nothing: quotation marks, backslashes and characters without a shape of their own are
escaped.
-/

set_option autoImplicit false

namespace SExpr
namespace Quoted

/-- The code point of a character in hexadecimal digits. -/
def codePoint (c : Char) : List Char :=
  Nat.toDigits 16 c.toNat

/-- One character between quotation marks. -/
def char (c : Char) : List Char :=
  if c = '"' || c = '\\' then ['\\', c]
  else if c = '\x00' then ['\\', '0']
  else if c = '\t' then ['\\', 't']
  else if c = '\r' then ['\\', 'r']
  else if c = '\n' then ['\\', 'n']
  else if isInvisible c then ['\\', 'u', '\x7b'] ++ codePoint c ++ ['\x7d']
  else [c]

/-- A name between quotation marks. -/
def string (s : String) : String :=
  String.ofList (['"'] ++ s.toList.flatMap char ++ ['"'])

end Quoted

end SExpr
