import SExpr.Text.Cursor
import SExpr.Proofs.Reader.Reach

/-!
# Places in a text

A position can be computed from the text in front of it, character by character and without
regard to how a cursor got there.  This module says how, and shows that the position of a cursor
that takes whole units is the one computed in this way.

## What is here

* `lineBreaks`, `lastLine` — what lines and columns count, on characters.
* `Position.behind` — the position behind a text.
* `Position.Divides` — a position that divides a text in two and tears no line break pair; the
  offset alone settles which (`Position.Divides.unique`).
* `Position.divides_of_ofString` — the places between the units of a text.
-/

set_option autoImplicit false

namespace SExpr

/-! ## Lines and columns -/

/-- Does a line end with this character? -/
def endsLine (c : Char) : Bool :=
  c == '\r' || c == '\n'

/-- The line breaks of a text.  A carriage return and the line feed behind it are one. -/
def lineBreaks : List Char → Nat
  | [] => 0
  | '\r' :: '\n' :: cs => lineBreaks cs + 1
  | c :: cs => (if endsLine c then 1 else 0) + lineBreaks cs

/-- What stands behind the last line break of a text. -/
def lastLine (cs : List Char) : List Char :=
  (cs.reverse.takeWhile fun c => !endsLine c).reverse

/-- **The line breaks of two texts add up**, unless a pair stands across the seam. -/
theorem lineBreaks_append {cs ds : List Char}
    (h : ¬(cs.getLast? = some '\r' ∧ ds.head? = some '\n')) :
    lineBreaks (cs ++ ds) = lineBreaks cs + lineBreaks ds := by
  induction cs using lineBreaks.induct with
  | case1 => simp [lineBreaks]
  | case2 cs ih =>
    have hcs : ¬(cs.getLast? = some '\r' ∧ ds.head? = some '\n') := by
      rintro ⟨hlast, hfeed⟩
      refine h ⟨?_, hfeed⟩
      rw [List.getLast?_cons, List.getLast?_cons, hlast]
      rfl
    rw [List.cons_append, List.cons_append, lineBreaks, lineBreaks, ih hcs]
    omega
  | case3 c cs hpair ih =>
    have hcs : ¬(cs.getLast? = some '\r' ∧ ds.head? = some '\n') := by
      rintro ⟨hlast, hfeed⟩
      refine h ⟨?_, hfeed⟩
      rw [List.getLast?_cons, hlast]
      rfl
    rw [List.cons_append, lineBreaks, lineBreaks, ih hcs]
    · omega
    · exact hpair
    · rintro tail rfl htail
      cases cs with
      | nil =>
        rw [List.nil_append] at htail
        exact h ⟨rfl, by rw [htail]; rfl⟩
      | cons d cs =>
        obtain rfl := (List.cons.inj htail).1
        exact hpair cs rfl rfl

theorem lastLine_append_singleton (cs : List Char) (c : Char) :
    lastLine (cs ++ [c]) = if endsLine c then [] else lastLine cs ++ [c] := by
  rw [lastLine, List.reverse_append, List.reverse_singleton, List.singleton_append,
    List.takeWhile_cons]
  cases endsLine c <;> simp [lastLine]

/-! ## Units -/

namespace TextUnit

/-- A text is what its units are cut from. -/
theorem eq_ofList_of_ofString_eq {text : String} {cs : List Char} (h : ofString text = ofChars cs) :
    text = String.ofList cs := by
  have htext := toString_ofString text
  rw [h, toString, toChars_ofChars] at htext
  exact htext.symm

theorem eq_empty_of_ofString_eq_nil {text : String} (h : ofString text = []) : text = "" :=
  (eq_ofList_of_ofString_eq h).trans String.ofList_nil

theorem toList_text (u : TextUnit) : u.text.toList = u.chars := by
  rw [text, String.toList_ofList]

theorem utf8ByteSize_text (u : TextUnit) : u.text.utf8ByteSize = u.byteSize := by
  cases u with
  | char c => exact String.utf8ByteSize_singleton
  | crlf => decide

theorem lineBreaks_chars (u : TextUnit) :
    lineBreaks u.chars = if u.isLineBreak then 1 else 0 := by
  cases u with
  | char c =>
    have hpair : ∀ tail, c = '\r' → [] = '\n' :: tail → False := by simp
    rw [chars, lineBreaks.eq_3 c [] hpair]
    rfl
  | crlf => rfl

theorem lastLine_append_chars (cs : List Char) (u : TextUnit) :
    lastLine (cs ++ u.chars) = if u.isLineBreak then [] else lastLine cs ++ u.chars := by
  cases u with
  | char c => exact lastLine_append_singleton cs c
  | crlf =>
    rw [chars, List.append_cons, lastLine_append_singleton]
    rfl

theorem length_chars_of_not_isLineBreak {u : TextUnit} (h : u.isLineBreak = false) :
    u.chars.length = 1 := by
  cases u with
  | char c => rfl
  | crlf => cases h

/-- Only a carriage return that is a unit of its own ends in one. -/
theorem eq_of_getLast?_append {cs : List Char} {u : TextUnit}
    (h : (cs ++ u.chars).getLast? = some '\r') : u = .char '\r' := by
  cases u with
  | char c =>
    rw [chars, List.getLast?_concat] at h
    rw [Option.some.inj h]
  | crlf => simp [chars] at h

theorem ofChars_chars_append {u : TextUnit} {cs : List Char}
    (h : ∀ c, u = .char c → ¬Grammar.Pairs c cs) : ofChars (u.chars ++ cs) = u :: ofChars cs := by
  cases u with
  | char c => exact ofChars_cons_of_not_pairs (h c rfl)
  | crlf => exact ofChars_crlf cs

/-- **Where units can be told apart, so can the texts they were cut from**, and no pair is torn. -/
theorem exists_append_of_ofChars {cs : List Char} {us vs : List TextUnit}
    (h : ofChars cs = us ++ vs) :
    ∃ front back, cs = front ++ back ∧ ofChars front = us ∧ ofChars back = vs ∧
      ¬(front.getLast? = some '\r' ∧ back.head? = some '\n') := by
  induction us generalizing cs with
  | nil => exact ⟨[], cs, rfl, rfl, h, by simp⟩
  | cons u us ih =>
    obtain ⟨tail, rfl, htail, halone⟩ := eq_append_of_ofChars_eq_cons h
    obtain ⟨front, back, rfl, hfront, hback, hseam⟩ := ih htail
    refine ⟨u.chars ++ front, back, (List.append_assoc ..).symm, ?_, hback, ?_⟩
    · rw [ofChars_chars_append, hfront]
      rintro c hc ⟨hreturn, hfeed⟩
      exact halone c hc ⟨hreturn, by simp [hfeed]⟩
    · rintro ⟨hlast, hfeed⟩
      cases front with
      | nil =>
        rw [List.append_nil] at hlast
        rw [← List.nil_append u.chars] at hlast
        exact halone '\r' (eq_of_getLast?_append hlast) ⟨rfl, hfeed⟩
      | cons c front =>
        exact hseam ⟨by simpa using hlast, hfeed⟩

end TextUnit

/-! ## Positions -/

/-- **Two texts that are joined can be told apart by their bytes.** -/
theorem eq_of_append_eq_append {front front' back back' : String}
    (h : front ++ back = front' ++ back') (hsize : front.utf8ByteSize = front'.utf8ByteSize) :
    front = front' ∧ back = back' := by
  have hbytes := congrArg String.toByteArray h
  rw [String.toByteArray_append, String.toByteArray_append] at hbytes
  obtain rfl := String.toByteArray_inj.1 (ByteArray.append_inj_left hbytes hsize)
  exact ⟨rfl, (String.append_right_inj front).1 h⟩

namespace Position

/-- The position behind a text, computed from all of its characters. -/
def behind (text : String) : Position :=
  ⟨text.utf8ByteSize, lineBreaks text.toList, (lastLine text.toList).length⟩

/-- `pos.Divides text front back`: the place is in the text, between `front` and `back`, and its
measures are those of `front`. -/
structure Divides (pos : Position) (text front back : String) : Prop where
  /-- The two parts make up the text. -/
  append_eq : front ++ back = text
  /-- The place is not inside of a line break pair. -/
  whole : ¬(front.toList.getLast? = some '\r' ∧ back.toList.head? = some '\n')
  /-- Bytes, lines and columns are counted from the text in front. -/
  eq_behind : pos = behind front

variable {pos pos' : Position} {text front front' back back' : String}

theorem Divides.offset_eq (h : pos.Divides text front back) :
    pos.offset = front.utf8ByteSize := by
  rw [h.eq_behind]
  rfl

/-- The place behind a whole text. -/
theorem Divides.at_end (text : String) : (behind text).Divides text text "" :=
  ⟨String.append_empty, by simp, rfl⟩

/-- **A place depends on its offset only.** -/
theorem Divides.unique (h : pos.Divides text front back) (h' : pos'.Divides text front' back')
    (hoffset : pos.offset = pos'.offset) : front = front' ∧ back = back' ∧ pos = pos' := by
  have hsize : front.utf8ByteSize = front'.utf8ByteSize := by
    rw [← h.offset_eq, ← h'.offset_eq, hoffset]
  obtain ⟨rfl, rfl⟩ := eq_of_append_eq_append (h.append_eq.trans h'.append_eq.symm) hsize
  exact ⟨rfl, rfl, h.eq_behind.trans h'.eq_behind.symm⟩

/-- The more is left, the smaller the offset. -/
theorem Divides.offset_lt (h : pos.Divides text front back) (h' : pos'.Divides text front' back')
    (hlength : back'.toList.length < back.toList.length) : pos.offset < pos'.offset := by
  have happend : front.toList ++ back.toList = front'.toList ++ back'.toList := by
    rw [← String.toList_append, ← String.toList_append, h.append_eq, h'.append_eq]
  rcases List.append_eq_append_iff.1 happend with ⟨more, hfront, hback⟩ | ⟨more, hfront, hback⟩
  · obtain rfl : front' = front ++ String.ofList more := by
      rw [← String.toList_inj, hfront, String.toList_append, String.toList_ofList]
    have hne : String.ofList more ≠ "" := by
      rintro hempty
      obtain rfl : more = [] := by simpa using hempty
      rw [hback, List.nil_append] at hlength
      exact Nat.lt_irrefl _ hlength
    have hsize : (String.ofList more).utf8ByteSize ≠ 0 := fun hzero =>
      hne (String.utf8ByteSize_eq_zero_iff.1 hzero)
    rw [h.offset_eq, h'.offset_eq, String.utf8ByteSize_append]
    omega
  · rw [hback, List.length_append] at hlength
    omega

/-! ## The places between units -/

/-- A unit behind a text moves the position by one unit. -/
theorem advance_behind {u : TextUnit}
    (h : ¬(front.toList.getLast? = some '\r' ∧ u.chars.head? = some '\n')) :
    (behind front).advance u = behind (front ++ u.text) := by
  have hoffset : (front ++ u.text).utf8ByteSize = front.utf8ByteSize + u.byteSize := by
    rw [String.utf8ByteSize_append, TextUnit.utf8ByteSize_text]
  have hlines : lineBreaks (front ++ u.text).toList =
      lineBreaks front.toList + if u.isLineBreak then 1 else 0 := by
    rw [String.toList_append, TextUnit.toList_text, lineBreaks_append h,
      TextUnit.lineBreaks_chars]
  have hlast : lastLine (front ++ u.text).toList =
      if u.isLineBreak then [] else lastLine front.toList ++ u.chars := by
    rw [String.toList_append, TextUnit.toList_text, TextUnit.lastLine_append_chars]
  rw [advance, behind, behind, hoffset, hlines, hlast]
  cases hu : u.isLineBreak with
  | true => rfl
  | false => simp [TextUnit.length_chars_of_not_isLineBreak hu]

/-- **The units of a text move the position behind the text in front of them to its end.** -/
theorem advanceAll_behind {more : String}
    (h : ¬(front.toList.getLast? = some '\r' ∧ more.toList.head? = some '\n')) :
    (behind front).advanceAll (TextUnit.ofString more) = behind (front ++ more) := by
  generalize hus : TextUnit.ofString more = us
  induction us generalizing front more with
  | nil =>
    obtain rfl := TextUnit.eq_empty_of_ofString_eq_nil hus
    rw [String.append_empty, advanceAll_nil]
  | cons u us ih =>
    obtain ⟨tail, hmore, htail, halone⟩ := TextUnit.eq_append_of_ofChars_eq_cons hus
    rw [hmore] at h
    have hunit : (behind front).advance u = behind (front ++ u.text) :=
      advance_behind fun ⟨hlast, hfeed⟩ => h ⟨hlast, by simp [hfeed]⟩
    have hseam : ¬((front ++ u.text).toList.getLast? = some '\r' ∧
        (String.ofList tail).toList.head? = some '\n') := by
      rw [String.toList_append, TextUnit.toList_text, String.toList_ofList]
      rintro ⟨hlast, hfeed⟩
      exact halone '\r' (TextUnit.eq_of_getLast?_append hlast) ⟨rfl, hfeed⟩
    have hjoined : front ++ u.text ++ String.ofList tail = front ++ more := by
      rw [String.append_assoc, TextUnit.text, ← String.ofList_append, ← hmore,
        String.ofList_toList]
    rw [advanceAll_cons, hunit, ih hseam (by rw [TextUnit.ofString, String.toList_ofList, htail]),
      hjoined]

/-- The position behind a whole text. -/
theorem advanceAll_start (text : String) :
    start.advanceAll (TextUnit.ofString text) = behind text := by
  have hempty : behind "" = start := rfl
  rw [← hempty, advanceAll_behind (by simp), String.empty_append]

/-- **A place in the rest of a text is a place in the text.** -/
theorem Divides.trans {mid : String} (h : pos.Divides text front back)
    (h' : pos'.Divides back mid back') :
    pos.advanceAll (TextUnit.ofString mid) = behind (front ++ mid) ∧
      (behind (front ++ mid)).Divides text (front ++ mid) back' := by
  have hback : back.toList = mid.toList ++ back'.toList := by
    rw [← String.toList_append, h'.append_eq]
  have hseam : ¬(front.toList.getLast? = some '\r' ∧ mid.toList.head? = some '\n') := by
    rintro ⟨hlast, hfeed⟩
    exact h.whole ⟨hlast, by simp [hback, hfeed]⟩
  refine ⟨by rw [h.eq_behind, advanceAll_behind hseam], ?_, ?_, rfl⟩
  · rw [String.append_assoc, h'.append_eq, h.append_eq]
  · rintro ⟨hlast, hfeed⟩
    rw [String.toList_append] at hlast
    cases hmid : mid.toList with
    | nil =>
      rw [hmid, List.append_nil] at hlast
      exact h.whole ⟨hlast, by rw [hback, hmid]; exact hfeed⟩
    | cons c cs =>
      refine h'.whole ⟨?_, hfeed⟩
      rw [hmid] at hlast ⊢
      simpa using hlast

/-- Taking units moves the offset by their bytes. -/
theorem offset_advanceAll (p : Position) (us : List TextUnit) :
    (p.advanceAll us).offset = p.offset + (TextUnit.toString us).utf8ByteSize := by
  induction us generalizing p with
  | nil => rfl
  | cons u us ih =>
    have htext : TextUnit.toString (u :: us) = u.text ++ TextUnit.toString us := by
      rw [TextUnit.toString, TextUnit.toChars_cons, String.ofList_append]
      rfl
    rw [advanceAll_cons, ih, offset_advance, htext, String.utf8ByteSize_append,
      TextUnit.utf8ByteSize_text, Nat.add_assoc]

/-- Taking units moves no position back. -/
theorem offset_le_advanceAll (p : Position) (us : List TextUnit) :
    p.offset ≤ (p.advanceAll us).offset := by
  rw [offset_advanceAll]
  exact Nat.le_add_right _ _

/-- Lines and columns grow by no more than one with each unit. -/
theorem line_add_column_advanceAll_le (p : Position) (us : List TextUnit) :
    (p.advanceAll us).line + (p.advanceAll us).column ≤ p.line + p.column + us.length := by
  induction us generalizing p with
  | nil => exact Nat.le_refl _
  | cons u us ih =>
    have hunit : (p.advance u).line + (p.advance u).column ≤ p.line + p.column + 1 := by
      unfold advance
      split
      · simp only [newline]
        omega
      · exact Nat.le_refl _
    rw [advanceAll_cons, List.length_cons]
    exact Nat.le_trans (ih (p.advance u)) (by omega)

/-- There are no more lines and columns than characters. -/
theorem Divides.line_add_column_le (h : pos.Divides text front back) :
    pos.line + pos.column ≤ text.length := by
  have hunits : (TextUnit.ofString front).length ≤ front.length := by
    have hle := TextUnit.length_le_toChars (TextUnit.ofString front)
    rwa [TextUnit.ofString, TextUnit.toChars_ofChars, String.length_toList] at hle
  have hle := line_add_column_advanceAll_le start (TextUnit.ofString front)
  rw [advanceAll_start, ← h.eq_behind] at hle
  rw [← h.append_eq, String.length_append]
  exact Nat.le_trans hle (by simp only [start]; omega)

/-- **A text can be divided between any two of its units.** -/
theorem divides_of_ofString {us vs : List TextUnit} (h : TextUnit.ofString text = us ++ vs) :
    ∃ front back, (start.advanceAll us).Divides text front back ∧
      TextUnit.ofString front = us ∧ TextUnit.ofString back = vs := by
  obtain ⟨cs, ds, htext, hcs, hds, hseam⟩ := TextUnit.exists_append_of_ofChars h
  have hfront : TextUnit.ofString (String.ofList cs) = us := by
    rw [TextUnit.ofString, String.toList_ofList, hcs]
  have hback : TextUnit.ofString (String.ofList ds) = vs := by
    rw [TextUnit.ofString, String.toList_ofList, hds]
  refine ⟨String.ofList cs, String.ofList ds, ⟨?_, ?_, ?_⟩, hfront, hback⟩
  · rw [← String.ofList_append, ← htext, String.ofList_toList]
  · rwa [String.toList_ofList, String.toList_ofList]
  · rw [← hfront, advanceAll_start]

end Position

end SExpr
