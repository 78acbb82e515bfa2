import Mathlib.Data.String.Basic
import SExpr.Proofs.Text.Walk

/-!
# Reading a text in place

A cursor holds what is ahead, cut into units.  A text can as well be left as it is, and an offset be
moved over it: one character is looked at, at most one behind it, and what was taken is what stands
between two offsets.  A test is then asked in a loop, once for each unit, and nothing is known in
advance of where the loop ends.  Here both are compared.  They move alike, so the loop ends, and what
it takes is the longest run of units that the test refuses.

## What is here

* `InPlace` — a text and a position, with `InPlace.next` and the loop `InPlace.loop`.
* `InPlace.Shows` — a place in a text and the cursor there, which move alike
  (`Shows.next`, `Shows.loop`, `Shows.walk`).
* `TextUnit.not_torn` — no line break pair is cut in two.
* `Cursor.TakesRun` — all there is to say of taking everything up to a character, with
  `takeUntil_takesRun` for every place that a walk comes to.
-/

set_option autoImplicit false

namespace SExpr

/-- A text that is read in place. -/
@[ext] structure InPlace where
  /-- The whole text. -/
  text : String
  /-- How far it has been read. -/
  pos : Position
  deriving DecidableEq

namespace InPlace

/-! ## Characters by their offsets -/

/-- The character that begins at an offset.  None does at the end of the text, or inside of a
character. -/
def char? (text : String) (offset : Nat) : Option Char :=
  String.Pos.Raw.get? text ⟨offset⟩

/-- What stands between two offsets. -/
def slice (text : String) (start stop : Nat) : String :=
  String.Pos.Raw.extract text ⟨start⟩ ⟨stop⟩

/-- Behind a part of a text, its other part begins. -/
theorem char?_append (front back : String) :
    char? (front ++ back) front.utf8ByteSize = back.toList.head? := by
  have hvalid := String.get?_of_valid front.toList back.toList
  rwa [String.ofList_append, String.ofList_toList, String.ofList_toList, String.utf8Len_toList]
    at hvalid

/-- A part of a text stands between the offsets at its two ends. -/
theorem slice_append (front mid back : String) :
    slice (front ++ (mid ++ back)) front.utf8ByteSize (front.utf8ByteSize + mid.utf8ByteSize) =
      mid := by
  have hvalid := String.extract_of_valid front.toList mid.toList back.toList
  rwa [List.append_assoc, String.ofList_append, String.ofList_append, String.ofList_toList,
    String.ofList_toList, String.ofList_toList, String.utf8Len_toList, String.utf8Len_toList]
    at hvalid

theorem lt_of_utf8GetAux? {cs : List Char} {start p : String.Pos.Raw} {c : Char}
    (h : String.Pos.Raw.utf8GetAux? cs start p = some c) :
    p.byteIdx < start.byteIdx + String.utf8Len cs := by
  induction cs generalizing start with
  | nil => cases h
  | cons d cs ih =>
    rw [String.Pos.Raw.utf8GetAux?] at h
    rw [String.utf8Len_cons]
    have hpos := d.utf8Size_pos
    split at h
    · rename_i hstart
      rw [hstart]
      omega
    · have hlt := ih h
      rw [String.Pos.Raw.byteIdx_add_char] at hlt
      omega

/-- A character begins in front of the end of its text. -/
theorem offset_lt_of_char? {text : String} {offset : Nat} {c : Char}
    (h : char? text offset = some c) : offset < text.utf8ByteSize := by
  have hlt := lt_of_utf8GetAux? h
  rwa [String.utf8Len_toList, String.Pos.Raw.byteIdx_zero, Nat.zero_add] at hlt

/-! ## Moves -/

/-- The next character, which stays where it is. -/
def peek (s : InPlace) : Option Char :=
  char? s.text s.pos.offset

/-- Passes the next character, and the line feed behind it if it is a carriage return. -/
def next (s : InPlace) : InPlace :=
  match s.peek with
  | none => s
  | some c =>
    let passed := { s.pos with offset := s.pos.offset + c.utf8Size }
    if c = '\r' then
      let feed := if char? s.text passed.offset = some '\n' then 1 else 0
      { s with pos := { passed with offset := passed.offset + feed }.newline }
    else if c = '\n' then { s with pos := passed.newline }
    else { s with pos := { passed with column := passed.column + 1 } }

theorem text_next (s : InPlace) : s.next.text = s.text := by
  unfold next
  repeat' split
  all_goals rfl

/-- A character is passed. -/
theorem offset_lt_next {s : InPlace} {c : Char} (h : s.peek = some c) :
    s.pos.offset < s.next.pos.offset := by
  have hpos := c.utf8Size_pos
  simp only [next, h]
  repeat' split
  all_goals simp only [Position.newline]
  all_goals omega

/-- Each character that is passed leaves less ahead. -/
theorem ahead_next_lt {s : InPlace} {c : Char} (h : s.peek = some c) :
    s.next.text.utf8ByteSize - s.next.pos.offset < s.text.utf8ByteSize - s.pos.offset := by
  have hend := offset_lt_of_char? h
  have hnext := offset_lt_next h
  rw [text_next]
  omega

/-- Passes characters, as long as there is one and the test refuses it. -/
def loop (stop : Char → Bool) (s : InPlace) : InPlace :=
  match h : s.peek with
  | none => s
  | some c =>
    have := ahead_next_lt h
    if stop c then s else s.next.loop stop
termination_by s.text.utf8ByteSize - s.pos.offset

theorem text_loop (stop : Char → Bool) (s : InPlace) : (s.loop stop).text = s.text := by
  fun_induction loop stop s with
  | case1 s hpeek => rfl
  | case2 s c hpeek hless hstop => rfl
  | case3 s c hpeek hless hstop ih => rw [ih, text_next]

/-- What the loop passes, and the place behind it. -/
def takeUntil (stop : Char → Bool) (s : InPlace) : String × InPlace :=
  (slice s.text s.pos.offset (s.loop stop).pos.offset, s.loop stop)

/-- What a move takes, and the place behind it. -/
def perform (s : InPlace) : Cursor.Move → String × InPlace
  | .peek => ("", s)
  | .next => (slice s.text s.pos.offset s.next.pos.offset, s.next)
  | .takeUntil stop => s.takeUntil stop
  | .skipBlanks => s.takeUntil fun c => !isBlank c

/-- What is taken on several moves, and the place behind the last one. -/
def walk (s : InPlace) : List Cursor.Move → String × InPlace
  | [] => ("", s)
  | move :: moves =>
    let (taken, behind) := s.perform move
    let (more, last) := behind.walk moves
    (taken ++ more, last)

theorem walk_cons (s : InPlace) (move : Cursor.Move) (moves : List Cursor.Move) :
    s.walk (move :: moves) =
      ((s.perform move).1 ++ ((s.perform move).2.walk moves).1,
        ((s.perform move).2.walk moves).2) := rfl

theorem text_walk (s : InPlace) (moves : List Cursor.Move) : (s.walk moves).2.text = s.text := by
  induction moves generalizing s with
  | nil => rfl
  | cons move moves ih =>
    rw [walk_cons, ih]
    cases move with
    | peek => rfl
    | next => exact text_next s
    | takeUntil stop => exact text_loop stop s
    | skipBlanks => exact text_loop _ s

/-! ## Places and cursors -/

/-- The cursor stands at this place of the text. -/
structure Shows (s : InPlace) (c : Cursor) : Prop where
  /-- The positions are the same. -/
  pos_eq : s.pos = c.pos
  /-- They are a place in the text, and the cursor has ahead what is behind that place. -/
  divides : ∃ front back, c.pos.Divides s.text front back ∧ c.rest = TextUnit.ofString back

variable {s : InPlace} {c : Cursor} {u : TextUnit} {us : List TextUnit} {pos : Position}

theorem shows_ofString (text : String) : (InPlace.mk text .start).Shows (.ofString text) :=
  ⟨rfl, "", text, ⟨String.empty_append, by simp, rfl⟩, rfl⟩

/-- **Both see the same character.** -/
theorem Shows.peek_eq (h : s.Shows c) : s.peek = c.peek := by
  obtain ⟨front, back, hdivides, hrest⟩ := h.divides
  rw [peek, h.pos_eq, hdivides.offset_eq, ← hdivides.append_eq, char?_append, Cursor.peek, hrest,
    TextUnit.ofString, TextUnit.map_lead_head?_ofChars]

/-- Behind the first character of a unit stands the rest of the unit, or what follows it. -/
theorem Shows.char?_behind (h : s.Shows ⟨u :: us, pos⟩) :
    ∃ tail, char? s.text (s.pos.offset + u.lead.utf8Size) = (u.chars.tail ++ tail).head? ∧
      ∀ c, u = .char c → ¬Grammar.Pairs c tail := by
  obtain ⟨front, back, hdivides, hrest⟩ := h.divides
  obtain ⟨tail, hback, -, halone⟩ := TextUnit.eq_append_of_ofChars_eq_cons hrest.symm
  have hsize : s.pos.offset + u.lead.utf8Size =
      (front ++ String.singleton u.lead).utf8ByteSize := by
    rw [h.pos_eq, hdivides.offset_eq, String.utf8ByteSize_append, String.utf8ByteSize_singleton]
  have htext : s.text =
      front ++ String.singleton u.lead ++ String.ofList (u.chars.tail ++ tail) := by
    rw [← hdivides.append_eq, ← String.toList_inj, String.toList_append, hback]
    cases u <;> simp [TextUnit.chars, TextUnit.lead]
  refine ⟨tail, ?_, halone⟩
  rw [hsize, htext, char?_append, String.toList_ofList]

/-- A line break pair is passed as a whole. -/
theorem pos_next_crlf (hpeek : s.peek = some '\r')
    (hfeed : char? s.text (s.pos.offset + '\r'.utf8Size) = some '\n') :
    s.next.pos = s.pos.advance .crlf := by
  simp only [InPlace.next, hpeek, hfeed]
  rfl

/-- Any other character is passed on its own. -/
theorem pos_next_char {c : Char} (hpeek : s.peek = some c)
    (halone : ¬(c = '\r' ∧ char? s.text (s.pos.offset + c.utf8Size) = some '\n')) :
    s.next.pos = s.pos.advance (.char c) := by
  by_cases hreturn : c = '\r'
  · have hfeed : char? s.text (s.pos.offset + c.utf8Size) ≠ some '\n' := fun hfeed =>
      halone ⟨hreturn, hfeed⟩
    simp only [InPlace.next, hpeek, hreturn] at hfeed ⊢
    simp only [hfeed]
    rfl
  · by_cases hline : c = '\n'
    · simp only [InPlace.next, hpeek, hline]
      rfl
    · simp [InPlace.next, hpeek, hreturn, hline, Position.advance, TextUnit.isLineBreak,
        TextUnit.byteSize]

/-- Both pass the same unit. -/
theorem Shows.pos_next (h : s.Shows ⟨u :: us, pos⟩) : s.next.pos = pos.advance u := by
  have hpeek : s.peek = some u.lead := h.peek_eq
  have hpos : s.pos = pos := h.pos_eq
  obtain ⟨tail, hbehind, halone⟩ := h.char?_behind
  rw [← hpos]
  cases u with
  | crlf => exact pos_next_crlf hpeek hbehind
  | char c =>
    refine pos_next_char hpeek ?_
    rintro ⟨hreturn, hfeed⟩
    exact halone c rfl ⟨hreturn, hbehind.symm.trans hfeed⟩

/-- **Both move alike over a unit.** -/
theorem Shows.next (h : s.Shows ⟨u :: us, pos⟩) : s.next.Shows ⟨us, pos.advance u⟩ := by
  obtain ⟨front, back, hdivides, hrest⟩ := h.divides
  obtain ⟨tail, hback, htail, halone⟩ := TextUnit.eq_append_of_ofChars_eq_cons hrest.symm
  have hunit : (Position.behind u.text).Divides back u.text (String.ofList tail) := by
    refine ⟨?_, ?_, rfl⟩
    · rw [← String.toList_inj, hback, String.toList_append, TextUnit.toList_text,
        String.toList_ofList]
    · rw [TextUnit.toList_text, String.toList_ofList, ← List.nil_append u.chars]
      rintro ⟨hlast, hfeed⟩
      exact halone '\r' (TextUnit.eq_of_getLast?_append hlast) ⟨rfl, hfeed⟩
  have hsingle : TextUnit.ofString u.text = [u] := by
    rw [TextUnit.ofString, TextUnit.toList_text]
    have hchars := @TextUnit.ofChars_chars_append u [] (fun c _ => by simp [Grammar.Pairs])
    rwa [List.append_nil] at hchars
  obtain ⟨hpos, hplace⟩ := hdivides.trans hunit
  rw [hsingle, Position.advanceAll_cons, Position.advanceAll_nil] at hpos
  refine ⟨?_, front ++ u.text, String.ofList tail, ?_, ?_⟩
  · exact h.pos_next
  · rw [text_next, hpos]
    exact hplace
  · rw [TextUnit.ofString, String.toList_ofList, htail]

/-- At the end of the text neither moves. -/
theorem Shows.next_of_nil (h : s.Shows ⟨[], pos⟩) : s.next = s := by
  have hpeek : s.peek = none := h.peek_eq
  rw [InPlace.next, hpeek]

/-- **The loop ends where the run of units ends that the test refuses.** -/
theorem Shows.loop (h : s.Shows c) (stop : Char → Bool) :
    (s.loop stop).Shows (c.takeUntil stop).2 := by
  obtain ⟨rest, pos⟩ := c
  induction rest generalizing s pos with
  | nil =>
    have hpeek : s.peek = none := h.peek_eq
    rw [InPlace.loop]
    split
    · exact h
    · simp_all
  | cons u us ih =>
    have hpeek : s.peek = some u.lead := h.peek_eq
    rw [InPlace.loop]
    split
    · simp_all
    · rename_i c hc
      obtain rfl : u.lead = c := Option.some.inj (hpeek.symm.trans hc)
      cases hstop : stop u.lead with
      | true => simpa [Cursor.takeUntil, hstop] using h
      | false => simpa [Cursor.takeUntil, hstop] using ih _ h.next

/-- **What units were taken stands between the offsets of the two places.** -/
theorem Shows.slice_eq (h : s.Shows c) {taken rest : List TextUnit} (hrest : taken ++ rest = c.rest) :
    slice s.text s.pos.offset (c.pos.advanceAll taken).offset = TextUnit.toString taken := by
  obtain ⟨front, back, hdivides, hback⟩ := h.divides
  have htext : s.text = front ++ (TextUnit.toString taken ++ TextUnit.toString rest) := by
    rw [← hdivides.append_eq, ← TextUnit.toString_ofString back, ← hback, ← hrest,
      TextUnit.toString, TextUnit.toChars_append, String.ofList_append]
    rfl
  rw [Position.offset_advanceAll, h.pos_eq, hdivides.offset_eq, htext, slice_append]

theorem Shows.takeUntil (h : s.Shows c) (stop : Char → Bool) :
    (s.takeUntil stop).1 = TextUnit.toString (c.takeUntil stop).1 ∧
      (s.takeUntil stop).2.Shows (c.takeUntil stop).2 := by
  refine ⟨?_, h.loop stop⟩
  rw [InPlace.takeUntil, (h.loop stop).pos_eq, Cursor.pos_takeUntil]
  exact h.slice_eq (c.takeUntil_append_rest stop)

/-- **Both move alike.** -/
theorem Shows.perform (h : s.Shows c) (move : Cursor.Move) :
    (s.perform move).1 = TextUnit.toString (move.perform c).1 ∧
      (s.perform move).2.Shows (move.perform c).2 := by
  cases move with
  | peek => exact ⟨String.ofList_nil.symm, h⟩
  | takeUntil stop => exact h.takeUntil stop
  | skipBlanks => exact h.takeUntil fun c => !isBlank c
  | next =>
    obtain ⟨rest, pos⟩ := c
    cases rest with
    | nil =>
      have hslice := h.slice_eq (List.nil_append [])
      rw [InPlace.perform, h.next_of_nil]
      rw [Position.advanceAll_nil, ← h.pos_eq] at hslice
      exact ⟨hslice, h⟩
    | cons u us =>
      have hslice := h.slice_eq (show [u] ++ us = u :: us from rfl)
      rw [Position.advanceAll_cons, Position.advanceAll_nil, ← h.pos_next] at hslice
      exact ⟨hslice, h.next⟩

/-- **A walk in place is the walk of a cursor.** -/
theorem Shows.walk (h : s.Shows c) (moves : List Cursor.Move) :
    (s.walk moves).1 = (c.walk moves).1 ∧ (s.walk moves).2.Shows (c.walk moves).2 := by
  induction moves generalizing s c with
  | nil => exact ⟨rfl, h⟩
  | cons move moves ih =>
    obtain ⟨htaken, hbehind⟩ := h.perform move
    obtain ⟨hmore, hlast⟩ := ih hbehind
    rw [walk_cons, Cursor.walk_cons, htaken, hmore]
    exact ⟨rfl, hlast⟩

end InPlace

/-! ## Everything up to a character -/

namespace TextUnit

/-- **No line break pair is cut in two.** -/
theorem not_torn (cs : List Char) (us vs : List TextUnit) :
    ofChars cs ≠ us ++ .char '\r' :: .char '\n' :: vs := by
  intro h
  rw [List.append_cons] at h
  obtain ⟨front, back, -, hfront, hback, hseam⟩ := exists_append_of_ofChars h
  refine hseam ⟨?_, head?_ofChars_eq_lf (by rw [hback]; rfl)⟩
  rw [← toChars_ofChars front, hfront, toChars_append]
  simp [toChars, chars]

/-- Of units whose first characters the test refuses, it can accept only the line feeds of pairs. -/
theorem eq_lf_of_toChars_eq {stop : Char → Bool} {us : List TextUnit}
    (h : ∀ u ∈ us, stop u.lead = false) {front back : List Char} {x : Char}
    (hchars : toChars us = front ++ x :: back) (hx : stop x = true) :
    x = '\n' ∧ front.getLast? = some '\r' ∧ stop '\r' = false := by
  induction us generalizing front with
  | nil => simp at hchars
  | cons u us ih =>
    rw [List.forall_mem_cons] at h
    have hlead : x ≠ u.lead := by
      rintro rfl
      rw [h.1] at hx
      cases hx
    cases u with
    | char c =>
      cases front with
      | nil => exact absurd (List.cons.inj hchars).1.symm hlead
      | cons d front =>
        obtain ⟨hfeed, hlast, hreturn⟩ := ih h.2 (List.cons.inj hchars).2
        exact ⟨hfeed, by rw [List.getLast?_cons, hlast]; rfl, hreturn⟩
    | crlf =>
      match front with
      | [] => exact absurd (List.cons.inj hchars).1.symm hlead
      | [d] =>
        obtain ⟨hd, htail⟩ := List.cons.inj hchars
        exact ⟨(List.cons.inj htail).1.symm, by rw [← hd]; rfl, h.1⟩
      | d :: e :: front =>
        obtain ⟨hfeed, hlast, hreturn⟩ := ih h.2 (List.cons.inj (List.cons.inj hchars).2).2
        exact ⟨hfeed, by rw [List.getLast?_cons, List.getLast?_cons, hlast]; rfl, hreturn⟩

end TextUnit

namespace Cursor

/-- What there is to say of a cursor over a text that takes everything up to a character. -/
structure TakesRun (c : Cursor) (text : String) (stop : Char → Bool) : Prop where
  /-- What is ahead is the text behind the place, cut into units. -/
  place : ∃ front back, c.pos.Divides text front back ∧ c.rest = TextUnit.ofString back
  /-- No line break pair is two of these units. -/
  whole : ∀ us vs, c.rest ≠ us ++ .char '\r' :: .char '\n' :: vs
  /-- The loop over the text in place ends, and takes the same. -/
  loop_eq : (InPlace.mk text c.pos).takeUntil stop =
    (TextUnit.toString (c.takeUntil stop).1, ⟨text, (c.takeUntil stop).2.pos⟩)
  /-- What is taken and what is left make up what was ahead. -/
  append_eq : (c.takeUntil stop).1 ++ (c.takeUntil stop).2.rest = c.rest
  /-- The test refuses the first character of each unit that is taken. -/
  refused : ∀ u ∈ (c.takeUntil stop).1, stop u.lead = false
  /-- No other run of such units is longer. -/
  longest : ∀ units, units <+: c.rest → (∀ u ∈ units, stop u.lead = false) →
    units <+: (c.takeUntil stop).1
  /-- The cursor is left at the end of the text, or at a character that the test accepts. -/
  ends : (c.takeUntil stop).2.pos.offset = text.utf8ByteSize ∨
    ∃ x, (c.takeUntil stop).2.peek = some x ∧ stop x = true
  /-- The only character that is taken and that the test accepts is a line feed behind a carriage
  return. -/
  chars : ∀ front x back, (TextUnit.toString (c.takeUntil stop).1).toList = front ++ x :: back →
    stop x = true → x = '\n' ∧ front.getLast? = some '\r' ∧ stop '\r' = false
  /-- Asked again, it takes nothing. -/
  again : (c.takeUntil stop).2.takeUntil stop = ([], (c.takeUntil stop).2)

variable {stop : Char → Bool}

/-- A run of units that the test refuses is taken. -/
theorem prefix_takeUntil {c : Cursor} {units : List TextUnit} (h : units <+: c.rest)
    (hrefused : ∀ u ∈ units, stop u.lead = false) : units <+: (c.takeUntil stop).1 := by
  obtain ⟨more, hrest⟩ := h
  refine ⟨more.takeWhile fun u => !stop u.lead, ?_⟩
  rw [takeUntil, ← hrest, List.takeWhile_append_of_pos]
  simpa using hrefused

/-- Where nothing is ahead, the offset is that of the end of the text. -/
theorem offset_of_rest_eq_nil {c : Cursor} {text : String}
    (h : ∃ front back, c.pos.Divides text front back ∧ c.rest = TextUnit.ofString back)
    (hrest : c.rest = []) : c.pos.offset = text.utf8ByteSize := by
  obtain ⟨front, back, hdivides, hback⟩ := h
  obtain rfl := TextUnit.eq_empty_of_ofString_eq_nil (hback.symm.trans hrest)
  rw [hdivides.offset_eq, ← hdivides.append_eq, String.append_empty]

/-- A cursor at a place of a text takes the longest run of units that the test refuses. -/
theorem takesRun_of_shows {s : InPlace} {c : Cursor} (h : s.Shows c) (stop : Char → Bool) :
    c.TakesRun s.text stop where
  place := h.divides
  whole us vs hrest := by
    obtain ⟨front, back, -, hback⟩ := h.divides
    exact TextUnit.not_torn back.toList us vs (hback.symm.trans hrest)
  loop_eq := by
    obtain ⟨htaken, hbehind⟩ := h.takeUntil stop
    have hs : InPlace.mk s.text c.pos = s := InPlace.ext rfl h.pos_eq.symm
    rw [hs]
    exact Prod.ext htaken (InPlace.ext (InPlace.text_loop stop s) hbehind.pos_eq)
  append_eq := c.takeUntil_append_rest stop
  refused u hu := stop_lead_of_mem_takeUntil hu
  longest units hprefix hrefused := prefix_takeUntil hprefix hrefused
  ends := by
    have hplace := (h.loop stop).divides
    rw [InPlace.text_loop] at hplace
    cases hrest : (c.takeUntil stop).2.rest with
    | nil => exact Or.inl (offset_of_rest_eq_nil hplace hrest)
    | cons u us =>
      have hpeek : (c.takeUntil stop).2.peek = some u.lead := by rw [peek, hrest]; rfl
      exact Or.inr ⟨u.lead, hpeek, stop_of_peek_takeUntil stop c _ hpeek⟩
  chars front x back hchars hx := by
    rw [TextUnit.toString, String.toList_ofList] at hchars
    exact TextUnit.eq_lf_of_toChars_eq (fun _ => stop_lead_of_mem_takeUntil) hchars hx
  again := takeUntil_of_peek (stop_of_peek_takeUntil stop c)

/-- **Taking everything up to a character takes the longest run of units that the test refuses**, at
every place of a text that a cursor can be moved to.  The loop that asks the test for one character of
the text after the other ends there, too, and takes the same.  What is taken can hold a character that
the test accepts: the line feed of a pair, which is not separated from the carriage return in front of
it. -/
theorem takeUntil_takesRun (text : String) (moves : List Move) (stop : Char → Bool) :
    (InPlace.mk text .start).walk moves =
        (((ofString text).walk moves).1, ⟨text, ((ofString text).walk moves).2.pos⟩) ∧
      ((ofString text).walk moves).2.TakesRun text stop := by
  obtain ⟨htaken, hshows⟩ := (InPlace.shows_ofString text).walk moves
  have htext : ((InPlace.mk text .start).walk moves).2.text = text := InPlace.text_walk _ moves
  have hrun := takesRun_of_shows hshows stop
  rw [htext] at hrun
  exact ⟨Prod.ext htaken (InPlace.ext htext hshows.pos_eq), hrun⟩

/-- A test that accepts a line feed does not stop inside of a pair. -/
example : ((ofString "a\r\n\nb").takeUntil (· == '\n')).1 = [.char 'a', .crlf] := by decide

end Cursor

end SExpr
