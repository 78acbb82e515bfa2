import SExpr.Text.Position

/-!
# Cursors

A cursor walks over a text from its start to its end.  It is what is still ahead, cut into units,
together with the position it has reached.

## What is here

* `Cursor`, `Cursor.ofString`, `Cursor.atEnd`, `Cursor.peek`.
* `Cursor.next?` — taking one unit.
* `Cursor.takeUntil`, `Cursor.skipWhile` — taking all units up to one that a test stops at,
  keeping them or not.

`Cursor.takeUntil` tests the first character of a unit and takes the whole unit.  So a test that
stops at a line feed does not separate it from the carriage return in front of it.
-/

set_option autoImplicit false

namespace SExpr

/-- A place in a text and all that follows it. -/
@[ext] structure Cursor where
  /-- What is still ahead. -/
  rest : List TextUnit
  /-- Where it begins. -/
  pos : Position
  deriving DecidableEq

namespace Cursor

/-- The cursor in front of a whole text. -/
def ofString (text : String) : Cursor :=
  ⟨TextUnit.ofString text, .start⟩

/-- Is nothing left? -/
def atEnd (c : Cursor) : Bool :=
  c.rest.isEmpty

/-- The next character, which stays where it is. -/
def peek (c : Cursor) : Option Char :=
  c.rest.head?.map TextUnit.lead

/-- The next unit and the cursor behind it. -/
def next? (c : Cursor) : Option (TextUnit × Cursor) :=
  match c.rest with
  | [] => none
  | u :: rest => some (u, ⟨rest, c.pos.advance u⟩)

/-- The units ahead whose first character `stop` refuses, and the cursor behind them. -/
def takeUntil (stop : Char → Bool) (c : Cursor) : List TextUnit × Cursor :=
  let taken := c.rest.takeWhile fun u => !stop u.lead
  (taken, ⟨c.rest.dropWhile fun u => !stop u.lead, c.pos.advanceAll taken⟩)

/-- The cursor behind the units ahead whose first character passes the test. -/
def skipWhile (test : Char → Bool) (c : Cursor) : Cursor :=
  (c.takeUntil fun x => !test x).2

/-! ## Nothing is lost -/

@[simp] theorem peek_nil (p : Position) : (Cursor.mk [] p).peek = none := rfl

@[simp] theorem peek_cons (u : TextUnit) (us : List TextUnit) (p : Position) :
    (Cursor.mk (u :: us) p).peek = some u.lead := rfl

/-- What was taken and what is left make up what was ahead. -/
theorem takeUntil_append_rest (stop : Char → Bool) (c : Cursor) :
    (c.takeUntil stop).1 ++ (c.takeUntil stop).2.rest = c.rest :=
  List.takeWhile_append_dropWhile

/-- The cursor moves over exactly what was taken. -/
@[simp] theorem pos_takeUntil (stop : Char → Bool) (c : Cursor) :
    (c.takeUntil stop).2.pos = c.pos.advanceAll (c.takeUntil stop).1 := rfl

/-! ## Where taking stops -/

variable {stop : Char → Bool}

/-- In front of a character that the test accepts, nothing is taken. -/
theorem takeUntil_of_peek {c : Cursor} (h : ∀ x ∈ c.peek, stop x = true) :
    c.takeUntil stop = ([], c) := by
  obtain ⟨rest, pos⟩ := c
  cases rest with
  | nil => rfl
  | cons u us =>
    have hu : stop u.lead = true := h u.lead rfl
    simp [takeUntil, hu]

/-- The cursor stops in front of a character that the test accepts. -/
theorem stop_of_peek_takeUntil (stop : Char → Bool) (c : Cursor) :
    ∀ x ∈ (c.takeUntil stop).2.peek, stop x = true := by
  intro x hx
  obtain ⟨u, hu, rfl⟩ := Option.map_eq_some_iff.1 hx
  have hhead := List.head?_dropWhile_not (fun u : TextUnit => !stop u.lead) c.rest
  rw [show c.rest.dropWhile (fun u => !stop u.lead) = (c.takeUntil stop).2.rest from rfl, hu]
    at hhead
  simpa using hhead

/-- Each unit that is taken is one that the test refuses. -/
theorem stop_lead_of_mem_takeUntil {c : Cursor} {u : TextUnit} (h : u ∈ (c.takeUntil stop).1) :
    stop u.lead = false := by
  have hall : (c.rest.takeWhile fun u => !stop u.lead).all (fun u => !stop u.lead) = true :=
    List.all_takeWhile
  simpa using List.all_eq_true.1 hall u h

end Cursor

end SExpr
