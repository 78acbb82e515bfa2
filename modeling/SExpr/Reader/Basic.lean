import SExpr.Reader.Machine

/-!
# Readers

A reader takes forms from a text one after another.  Besides its place in the text it keeps an
*allowance*: how many forms may still be open at once.  Forms that are completed give back what
they used; forms that a failure leaves open do not.

## What is here

* `Reader`, `Reader.ofString`, `Reader.next` — the reader and its one operation.
* `Reader.last` — the one form that is left, with nothing behind it.
* `Value.parseWith`, `Value.parse` — the value of a whole text.
-/

set_option autoImplicit false

namespace SExpr

/-- A place in a text from which forms are read. -/
@[ext] structure Reader where
  /-- What is still to be read. -/
  cursor : Cursor
  /-- How many forms may be open at once. -/
  allowance : Nat
  deriving DecidableEq

namespace Reader

/-- In front of a text, with the full allowance. -/
def ofString (limits : Limits) (text : String) : Reader :=
  ⟨.ofString text, limits.maxDepth⟩

/-- The next form with the blanks around it, or `none` if there is none: at the end of the text,
or at a closing parenthesis.  The reader stops where the form ends or where it failed. -/
def next (r : Reader) : Except SyntaxError (Option Value) × Reader :=
  match run r.allowance .start r.cursor.pos r.cursor.rest with
  | (.value v, cursor) => (.ok (some v), { r with cursor })
  | (.nothing, cursor) => (.ok none, { r with cursor })
  | (.failed cause openForms, cursor) =>
    (.error ⟨cause, cursor.pos⟩, ⟨cursor, r.allowance - openForms⟩)

/-- The one form that is left.  That something stands behind it is reported before the form is
missed. -/
def last (r : Reader) : Except SyntaxError Value :=
  match r.next with
  | (.error e, _) => .error e
  | (.ok v?, r) =>
    match r.cursor.peek, v? with
    | some c, _ => .error ⟨.superfluous c, r.cursor.pos⟩
    | none, some v => .ok v
    | none, none => .error ⟨.emptyInput, r.cursor.pos⟩

end Reader

/-- The value that a whole text denotes, within the given limits. -/
def Value.parseWith (limits : Limits) (text : String) : Except SyntaxError Value :=
  (Reader.ofString limits text).last

/-- The value that a whole text denotes. -/
def Value.parse (text : String) : Except SyntaxError Value :=
  Value.parseWith .standard text

end SExpr
