import SExpr.Proofs.Reader.Failure

/-!
# Walks over a text

A cursor can be moved over a text in any way: by single units, up to a character of any class, over
blanks.  However it is moved, it stands at a place of the text, with what it took in front of it and
the rest ahead, and the place settles its position.

## What is here

* `Cursor.Move`, `Cursor.walk` — the moves of a cursor and what it takes on them, one after another.
* `Move.taken_append_rest`, `walk_append` — a move takes what it moves over, and walks compose.
* `walk_exact` — the positions on every walk, and those of errors.
-/

set_option autoImplicit false

namespace SExpr
namespace Cursor

/-! ## Moves -/

/-- What a cursor can be asked for. -/
inductive Move where
  /-- To show the next character. -/
  | peek
  /-- To take the next unit. -/
  | next
  /-- To take everything up to a character that the test accepts. -/
  | takeUntil (stop : Char → Bool)
  /-- To pass over blanks. -/
  | skipBlanks

/-- What a move takes, and the cursor behind it. -/
def Move.perform (c : Cursor) : Move → List TextUnit × Cursor
  | .peek => ([], c)
  | .next =>
    match c.next? with
    | some (u, behind) => ([u], behind)
    | none => ([], c)
  | .takeUntil stop => c.takeUntil stop
  | .skipBlanks => ((c.takeUntil fun x => !isBlank x).1, c.skipWhile isBlank)

/-- The text that is taken on several moves, and the cursor behind the last one. -/
def walk (c : Cursor) : List Move → String × Cursor
  | [] => ("", c)
  | move :: moves =>
    let (taken, behind) := move.perform c
    let (more, last) := behind.walk moves
    (TextUnit.toString taken ++ more, last)

theorem walk_cons (c : Cursor) (move : Move) (moves : List Move) :
    c.walk (move :: moves) =
      (TextUnit.toString (move.perform c).1 ++ ((move.perform c).2.walk moves).1,
        ((move.perform c).2.walk moves).2) := rfl

/-- A move takes from what is ahead. -/
theorem Move.taken_append_rest (c : Cursor) (move : Move) :
    (move.perform c).1 ++ (move.perform c).2.rest = c.rest := by
  cases move with
  | peek => rfl
  | next =>
    obtain ⟨rest, pos⟩ := c
    cases rest <;> rfl
  | takeUntil stop => exact c.takeUntil_append_rest stop
  | skipBlanks => exact c.takeUntil_append_rest fun x => !isBlank x

/-- A move leaves its position behind what it takes. -/
theorem Move.pos_perform (c : Cursor) (move : Move) :
    (move.perform c).2.pos = c.pos.advanceAll (move.perform c).1 := by
  cases move with
  | peek => rfl
  | next =>
    obtain ⟨rest, pos⟩ := c
    cases rest <;> rfl
  | takeUntil stop => rfl
  | skipBlanks => rfl

/-- Two walks, one after the other, are one walk. -/
theorem walk_append (c : Cursor) (moves others : List Move) :
    c.walk (moves ++ others) =
      ((c.walk moves).1 ++ ((c.walk moves).2.walk others).1, ((c.walk moves).2.walk others).2) := by
  induction moves generalizing c with
  | nil => simp [walk]
  | cons move moves ih =>
    rw [List.cons_append, walk_cons, walk_cons, ih, String.append_assoc]

/-! ## Whole walks -/

/-- A walk takes units from what is ahead, and leaves the position behind them. -/
theorem exists_taken_of_walk (c : Cursor) (moves : List Move) :
    ∃ taken, (c.walk moves).1 = TextUnit.toString taken ∧ taken ++ (c.walk moves).2.rest = c.rest ∧
      (c.walk moves).2.pos = c.pos.advanceAll taken := by
  induction moves generalizing c with
  | nil => exact ⟨[], String.ofList_nil.symm, rfl, rfl⟩
  | cons move moves ih =>
    obtain ⟨more, htext, hrest, hpos⟩ := ih (move.perform c).2
    rw [walk_cons]
    refine ⟨(move.perform c).1 ++ more, ?_, ?_, ?_⟩
    · rw [htext, TextUnit.toString, TextUnit.toString, TextUnit.toString,
        TextUnit.toChars_append, String.ofList_append]
    · rw [List.append_assoc, hrest, move.taken_append_rest]
    · rw [hpos, move.pos_perform, Position.advanceAll_append]

/-- No position on a walk is in front of an earlier one. -/
theorem offset_le_walk (c : Cursor) (moves : List Move) :
    c.pos.offset ≤ (c.walk moves).2.pos.offset := by
  obtain ⟨taken, -, -, hpos⟩ := exists_taken_of_walk c moves
  rw [hpos]
  exact Position.offset_le_advanceAll c.pos taken

/-- A walk divides its text into what was taken and what is ahead. -/
theorem exists_divides_of_walk (text : String) (moves : List Move) :
    ∃ front back pos, (ofString text).walk moves = (front, ⟨TextUnit.ofString back, pos⟩) ∧
      pos.Divides text front back := by
  obtain ⟨taken, htext, hrest, hpos⟩ := exists_taken_of_walk (ofString text) moves
  obtain ⟨front, back, hdivides, rfl, hback⟩ := Position.divides_of_ofString hrest.symm
  rw [TextUnit.toString_ofString] at htext
  exact ⟨front, back, _, Prod.ext htext (Cursor.ext hback.symm hpos), hdivides⟩

/-- **Positions are exact on every walk over a text.**  What was taken and what is ahead make up the
text, the place between them tears no line break pair, and bytes, lines and columns are those of
the text in front of it; there are no more of these than characters.  No move goes back, and two
walks to one offset lead to one cursor.  The positions of errors are exact in the same way. -/
theorem walk_exact (text : String) (moves : List Move) :
    (∃ front back pos, (ofString text).walk moves = (front, ⟨TextUnit.ofString back, pos⟩) ∧
        pos.Divides text front back ∧ pos.line + pos.column ≤ text.length) ∧
      (∀ others, ((ofString text).walk moves).2.pos.offset ≤
        ((ofString text).walk (moves ++ others)).2.pos.offset) ∧
      (∀ others, ((ofString text).walk others).2.pos.offset =
          ((ofString text).walk moves).2.pos.offset →
        ((ofString text).walk others).2 = ((ofString text).walk moves).2) ∧
      ∀ limits e, Value.parseWith limits text = .error e →
        ∃ front back, e.pos.Divides text front back := by
  obtain ⟨front, back, pos, hwalk, hdivides⟩ := exists_divides_of_walk text moves
  refine ⟨⟨front, back, pos, hwalk, hdivides, hdivides.line_add_column_le⟩, fun others => ?_,
    fun others hoffset => ?_, fun limits e => Value.divides_of_parseWith⟩
  · rw [walk_append]
    exact offset_le_walk _ others
  · obtain ⟨front', back', pos', hwalk', hdivides'⟩ := exists_divides_of_walk text others
    rw [hwalk, hwalk'] at hoffset ⊢
    obtain ⟨-, rfl, rfl⟩ := hdivides'.unique hdivides hoffset
    rfl

/-- Two walks over a line break pair, to the place at which a reading of the same text fails. -/
theorem walk_over_pair :
    ((ofString "é\r\n)").walk [.takeUntil (· == '\r'), .next]).2 =
        ((ofString "é\r\n)").walk [.next, .skipBlanks, .peek]).2 ∧
      ∃ front back, (⟨4, 1, 0⟩ : Position).Divides "é\r\n)" front back := by
  obtain ⟨-, -, hplace, herror⟩ := walk_exact "é\r\n)" [.next, .skipBlanks, .peek]
  exact ⟨hplace [.takeUntil (· == '\r'), .next] (by decide),
    herror ⟨1⟩ ⟨.superfluous ')', ⟨4, 1, 0⟩⟩ rfl⟩

end Cursor

end SExpr
