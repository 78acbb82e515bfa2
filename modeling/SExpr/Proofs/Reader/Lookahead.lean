import SExpr.Proofs.Reader.Completion
import SExpr.Proofs.Reader.Sequence

/-!
# One character of lookahead

A call takes some of a text and stops in front of a character, or at the end.  Where it stops in
front of a character, everything that it gives and leaves behind is settled by what it took and by
that character.  What follows could be anything else.

## What is here

* `IsIn` — a reader anywhere in a text, whatever lines and columns it has counted.
* `AgreeThrough` — two texts with the same characters up to a place, and at it.
* `next_lookahead` — the same call over two such texts.
-/

set_option autoImplicit false

namespace SExpr

/-- Do two texts have the same characters up to an offset, with the one that begins there? -/
def AgreeThrough (offset : Nat) (text text' : String) : Prop :=
  ∀ front c back, front ++ String.singleton c ++ back = text → front.utf8ByteSize ≤ offset →
    ∃ back', front ++ String.singleton c ++ back' = text'

/-- Texts that begin alike agree through the last character that they share. -/
theorem agreeThrough_append (front : String) (c : Char) (back back' : String) :
    AgreeThrough front.utf8ByteSize (front ++ String.singleton c ++ back)
      (front ++ String.singleton c ++ back') := by
  intro front' c' tail htext hsize
  have hlists : front'.toList ++ (c' :: tail.toList) = front.toList ++ (c :: back.toList) := by
    have hchars := congrArg String.toList htext
    simpa using hchars
  rcases List.append_eq_append_iff.1 hlists with ⟨more, hfront, htail⟩ | ⟨more, hfront, htail⟩
  · cases more with
    | nil =>
      obtain ⟨rfl, -⟩ := List.cons.inj htail
      rw [List.append_nil] at hfront
      exact ⟨back', by rw [String.toList_inj.1 hfront]⟩
    | cons d more =>
      obtain ⟨rfl, -⟩ := List.cons.inj htail
      refine ⟨String.ofList more ++ String.singleton c ++ back', ?_⟩
      rw [← String.toList_inj]
      simp [hfront]
  · -- the other front is no longer than this one
    obtain rfl : front' = front ++ String.ofList more := by
      rw [← String.toList_inj, hfront, String.toList_append, String.toList_ofList]
    rw [String.utf8ByteSize_append] at hsize
    obtain rfl : more = [] := by
      have hzero : (String.ofList more).utf8ByteSize = 0 := by omega
      simpa using String.utf8ByteSize_eq_zero_iff.1 hzero
    obtain ⟨rfl, -⟩ := List.cons.inj htail
    exact ⟨back', by simp⟩

namespace Reader

/-- The reader is in this text, at its offset.  Its line, its column and its allowance may be
anything. -/
def IsIn (r : Reader) (text : String) : Prop :=
  ∃ front back, front ++ back = text ∧ r.cursor.pos.offset = front.utf8ByteSize ∧
    r.cursor.rest = TextUnit.ofString back

variable {text text' front back mid behind : String} {r r' : Reader} {last : State}
  {outcome : Outcome}

/-- What a call gives does not depend on what it leaves ahead. -/
theorem Outcome.give_congr {cursor cursor' : Cursor} (outcome : Outcome)
    (hallowance : r'.allowance = r.allowance) (hpos : cursor'.pos = cursor.pos) :
    (outcome.give r' cursor').1 = (outcome.give r cursor).1 ∧
      (outcome.give r' cursor').2.allowance = (outcome.give r cursor).2.allowance := by
  cases outcome with
  | value v => exact ⟨rfl, hallowance⟩
  | nothing => exact ⟨rfl, hallowance⟩
  | failed cause openForms =>
    simp only [Outcome.give, hpos, hallowance, and_self]

/-- A call moves the offset behind what it takes. -/
theorem offset_next_of_halts (hoffset : r.cursor.pos.offset = front.utf8ByteSize)
    (hrest : r.cursor.rest = TextUnit.ofString back)
    (h : Halts r.allowance back mid behind last outcome) :
    r.next.2.cursor.pos.offset = (front ++ mid).utf8ByteSize := by
  rw [next_of_halts hrest h, Outcome.cursor_give, Position.offset_advanceAll,
    TextUnit.toString_ofString, hoffset, String.utf8ByteSize_append]

/-- **One character of lookahead settles a call.**  If it ends in front of the end of the text, then
the same call over any other text that agrees with this one through the character at the place gives
the same, and leaves the same position and the same allowance. -/
theorem next_lookahead (hr : r.IsIn text) (hr' : r'.IsIn text')
    (hpos : r'.cursor.pos = r.cursor.pos) (hallowance : r'.allowance = r.allowance)
    (hends : r.next.2.cursor.pos.offset < text.utf8ByteSize)
    (hagree : AgreeThrough r.next.2.cursor.pos.offset text text') :
    r'.next.1 = r.next.1 ∧ r'.next.2.cursor.pos = r.next.2.cursor.pos ∧
      r'.next.2.allowance = r.next.2.allowance := by
  obtain ⟨front, back, rfl, hoffset, hrest⟩ := hr
  obtain ⟨mid, behind, last, outcome, hhalts⟩ := exists_halts r.allowance back
  rw [offset_next_of_halts hoffset hrest hhalts] at hends hagree
  have htext : front ++ back = front ++ mid ++ behind := by
    rw [String.append_assoc, hhalts.divides.append_eq]
  rcases hhalts.ends with ⟨hnil, -⟩ | ⟨u, us, hunits, hstop⟩
  · obtain rfl := TextUnit.eq_empty_of_ofString_eq_nil hnil
    rw [htext, String.append_empty] at hends
    exact absurd hends (Nat.lt_irrefl _)
  · -- both texts go on behind `front` with `mid` and the character that stops the run
    obtain ⟨tail, hbehind⟩ : ∃ tail, String.singleton u.lead ++ tail = behind := by
      obtain ⟨cs, hcs, -, -⟩ := TextUnit.eq_append_of_ofChars_eq_cons hunits
      refine ⟨String.ofList (u.chars.tail ++ cs), ?_⟩
      rw [← String.toList_inj, hcs]
      cases u <;> simp [TextUnit.chars, TextUnit.lead]
    obtain ⟨tail', htext'⟩ := hagree (front ++ mid) u.lead tail
      (by rw [htext, String.append_assoc, hbehind]) (Nat.le_refl _)
    obtain ⟨front', back', rfl, hoffset', hrest'⟩ := hr'
    have hsize : front.utf8ByteSize = front'.utf8ByteSize := by rw [← hoffset, ← hoffset', hpos]
    rw [String.append_assoc, String.append_assoc] at htext'
    obtain ⟨rfl, rfl⟩ := eq_of_append_eq_append htext' hsize
    have hhalts' := hhalts.of_stop hunits hstop
      (show (String.singleton u.lead ++ tail').toList.head? = some u.lead by simp)
    rw [← hallowance] at hhalts'
    rw [next_of_halts hrest hhalts, next_of_halts hrest' hhalts', hpos, Outcome.cursor_give,
      Outcome.cursor_give]
    refine (outcome.give_congr hallowance ?_).imp_right fun hleft => ⟨rfl, hleft⟩
    rfl

/-- A call that fails in front of a parenthesis, from a place in the middle of two texts. -/
theorem next_lookahead_close :
    (Reader.mk ⟨TextUnit.ofString "(' )", ⟨2, 7, 9⟩⟩ 2).next.1 =
        .error ⟨.missingOperand .quote (some ')'), ⟨5, 7, 12⟩⟩ ∧
      (Reader.mk ⟨TextUnit.ofString "(' )", ⟨2, 7, 9⟩⟩ 2).next.2.cursor.pos = ⟨5, 7, 12⟩ ∧
      (Reader.mk ⟨TextUnit.ofString "(' )", ⟨2, 7, 9⟩⟩ 2).next.2.allowance = 0 :=
  have hagree : AgreeThrough 5 "x (' ) y)" "x (' )" := agreeThrough_append "x (' " ')' " y)" ""
  @next_lookahead "x (' ) y)" "x (' )" ⟨⟨TextUnit.ofString "(' ) y)", ⟨2, 7, 9⟩⟩, 2⟩
    ⟨⟨TextUnit.ofString "(' )", ⟨2, 7, 9⟩⟩, 2⟩ ⟨"x ", "(' ) y)", by decide, rfl, rfl⟩
    ⟨"x ", "(' )", by decide, rfl, rfl⟩ rfl rfl (by decide) hagree

end Reader

end SExpr
