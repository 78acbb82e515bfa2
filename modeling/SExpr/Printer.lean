import SExpr.Text.Escape
import SExpr.Value.Basic
import SExpr.Settings

/-!
# Printing

A value is printed with one token on a line: every atom and string on its own, a list as a line
for each parenthesis with the elements one level deeper between them.

## What is here

* `Line` — a token with the level of nesting it stands at.
* `Value.lines` — the lines of a value, before the width of a level is known.
* `Line.render`, `Value.print` — indented text.

Marks are collected on the way down and written in front of the first token of their operand.
`Value.lines` therefore takes the marks that are still to be written, the innermost first.
-/

set_option autoImplicit false

namespace SExpr

/-- One line of output. -/
structure Line where
  /-- How many levels it is indented. -/
  level : Nat
  /-- What stands behind the indentation. -/
  text : String
  deriving DecidableEq

namespace Line

/-- Spaces for a level of nesting. -/
def indentation (width level : Nat) : String :=
  String.ofList (List.replicate (width * level) ' ')

/-- The line with its indentation and its line feed. -/
def render (width : Nat) (line : Line) : String :=
  indentation width line.level ++ line.text ++ "\n"

end Line

namespace Value

/-- Marks as they are written, from the outermost to the innermost. -/
def writeMarks (marks : List QuoteKind) : String :=
  String.join (marks.reverse.map QuoteKind.mark)

/-- Would this atom, written behind these marks, turn a comma into the splicing mark? -/
def joinsComma (marks : List QuoteKind) (text : String) : Bool :=
  (writeMarks marks).toList.getLast? == some ',' && text.toList.head? == some '@'

/-- An atom behind its marks.  With escaping on, it reads back as the same atom. -/
def writeAtom (format : Format) (marks : List QuoteKind) (text : String) : String :=
  if format.escaping then
    (if joinsComma marks text then "\\" else "") ++ Escape.atom text
  else text

/-- A string with its delimiters. -/
def writeString (format : Format) (text : String) : String :=
  "\"" ++ (if format.escaping then Escape.string text else text) ++ "\""

mutual

/-- The lines of a value at a level of nesting, behind marks that are still to be written. -/
def lines (format : Format) (level : Nat) (marks : List QuoteKind) : Value → List Line
  | .atom text => [⟨level, writeMarks marks ++ writeAtom format marks text⟩]
  | .string text => [⟨level, writeMarks marks ++ writeString format text⟩]
  | .list items =>
    ⟨level, writeMarks marks ++ "("⟩ :: (linesAll format (level + 1) items ++ [⟨level, ")"⟩])
  | .quoted kind operand =>
    match format.quoteStyle with
    | .shorthand => lines format level (kind :: marks) operand
    | .list =>
      ⟨level, writeMarks marks ++ "("⟩ :: ⟨level + 1, kind.name⟩ ::
        (lines format (level + 1) [] operand ++ [⟨level, ")"⟩])

/-- The lines of the elements of a list. -/
def linesAll (format : Format) (level : Nat) : List Value → List Line
  | [] => []
  | v :: vs => lines format level [] v ++ linesAll format level vs

end

/-- A value as indented text, one token on a line. -/
def print (format : Format) (v : Value) : String :=
  String.join ((lines format 0 [] v).map (Line.render format.indentWidth))

end Value

end SExpr
