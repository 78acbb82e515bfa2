import SExpr.Text.Unit

/-!
# Positions in a text

A position says how much of a text lies before it, in three measures: bytes, line breaks, and
characters since the last line break.  All three count from zero; only the display form
`@line.column` counts from one.

## What is here

* `Position`, with `Position.start` and `Position.newline`.
* `Position.advance`, `Position.advanceAll` — the position behind one unit, and behind several.
* `Position.display` — the form shown in messages.
-/

set_option autoImplicit false

namespace SExpr

/-- A place between two characters of a text. -/
@[ext] structure Position where
  /-- Bytes of UTF-8 before this place. -/
  offset : Nat
  /-- Line breaks before this place. -/
  line : Nat
  /-- Characters since the last line break. -/
  column : Nat
  deriving DecidableEq

namespace Position

/-- The place before the first character. -/
def start : Position := ⟨0, 0, 0⟩

/-- The first column of the next line.  The offset is left alone: a line break is counted in
bytes by whoever takes it. -/
def newline (p : Position) : Position :=
  { p with line := p.line + 1, column := 0 }

/-- The place behind a unit that is taken at `p`. -/
def advance (p : Position) (u : TextUnit) : Position :=
  let moved := { p with offset := p.offset + u.byteSize }
  if u.isLineBreak then moved.newline else { moved with column := p.column + 1 }

/-- The place behind several units that are taken one after another. -/
def advanceAll (p : Position) (us : List TextUnit) : Position :=
  us.foldl advance p

/-- The line as people count it. -/
def lineNumber (p : Position) : Nat := p.line + 1

/-- The column as people count it. -/
def columnNumber (p : Position) : Nat := p.column + 1

/-- The form that follows the name of a file in a message. -/
def display (p : Position) : String :=
  s!"@{p.lineNumber}.{p.columnNumber}"

@[simp] theorem advanceAll_nil (p : Position) : p.advanceAll [] = p := rfl

@[simp] theorem advanceAll_cons (p : Position) (u : TextUnit) (us : List TextUnit) :
    p.advanceAll (u :: us) = (p.advance u).advanceAll us := rfl

/-- Taking two runs of units is taking them joined. -/
theorem advanceAll_append (p : Position) (us vs : List TextUnit) :
    p.advanceAll (us ++ vs) = (p.advanceAll us).advanceAll vs :=
  List.foldl_append

@[simp] theorem offset_advance (p : Position) (u : TextUnit) :
    (p.advance u).offset = p.offset + u.byteSize := by
  unfold advance
  split <;> rfl

end Position

end SExpr
