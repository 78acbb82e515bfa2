import Mathlib.Data.List.Chain
import Mathlib.Order.Nat
import SExpr.Proofs.Reader.Calls

/-!
# Every call ends

A call may take nothing, if it finds no form.  What bounds the calls is that nothing else follows
then: a list asks for another element only behind one that was given, and a form is only given behind
units that were taken; a mark and a parenthesis are taken before the call that reads what is behind
them.  So calls end, they go on all the time, and no more of them are active at once than the
allowance lets forms be open, and one.

## What is here

* The order of places: one is behind another if units lie between them.  It is that of the offsets
  (`Cursor.offset_le_of_le`, `Cursor.offset_lt_of_lt`), and no more places than units follow one
  another (`Cursor.length_le_of_pairwise_lt`).
* `CallTree.Makes`, `CallTree.Orderly` — a call in its order: the places that it comes by, the turns
  of its loop, and where the calls that it makes begin.
* `moves_of_calls`, `moves_of_items` — what the rules do with the places.
* `exists_calls`, `exists_items` — that calls end.
* `nestsUpTo_of_calls` — how many are active at once.
* `call_ends` — all of this for every reader.
-/

set_option autoImplicit false

namespace SExpr

/-! ## The order of places -/

namespace Cursor

/-- A place is at or behind another one if it is reached from there by taking units. -/
instance : Preorder Cursor where
  le c c' := ∃ taken, taken ++ c'.rest = c.rest ∧ c'.pos = c.pos.advanceAll taken
  le_refl c := ⟨[], rfl, rfl⟩
  le_trans := by
    rintro c mid c' ⟨first, hrest, hpos⟩ ⟨second, hrest', hpos'⟩
    exact ⟨first ++ second, by rw [List.append_assoc, hrest', hrest],
      by rw [hpos', hpos, Position.advanceAll_append]⟩

variable {c c' : Cursor}

theorem length_le_of_le (h : c ≤ c') : c'.rest.length ≤ c.rest.length := by
  obtain ⟨taken, hrest, -⟩ := h
  rw [← hrest, List.length_append]
  exact Nat.le_add_left _ _

/-- A place behind another one has units in front of it that the other has not. -/
theorem lt_iff : c < c' ↔
    ∃ taken, taken ≠ [] ∧ taken ++ c'.rest = c.rest ∧ c'.pos = c.pos.advanceAll taken := by
  rw [lt_iff_le_not_ge]
  constructor
  · rintro ⟨⟨taken, hrest, hpos⟩, hback⟩
    refine ⟨taken, ?_, hrest, hpos⟩
    rintro rfl
    obtain rfl : c' = c := Cursor.ext hrest hpos
    exact hback le_rfl
  · rintro ⟨taken, hne, hrest, hpos⟩
    refine ⟨⟨taken, hrest, hpos⟩, fun hback => ?_⟩
    have hlength := length_le_of_le hback
    rw [← hrest, List.length_append] at hlength
    have hpos := List.length_pos_iff.2 hne
    omega

theorem length_lt_of_lt (h : c < c') : c'.rest.length < c.rest.length := by
  obtain ⟨taken, hne, hrest, -⟩ := lt_iff.1 h
  have hpos := List.length_pos_iff.2 hne
  rw [← hrest, List.length_append]
  omega

/-- **No place has a smaller offset than one in front of it.** -/
theorem offset_le_of_le (h : c ≤ c') : c.pos.offset ≤ c'.pos.offset := by
  obtain ⟨taken, -, hpos⟩ := h
  rw [hpos]
  exact Position.offset_le_advanceAll c.pos taken

theorem offset_lt_of_lt (h : c < c') : c.pos.offset < c'.pos.offset := by
  obtain ⟨taken, hne, -, hpos⟩ := lt_iff.1 h
  have hsize : (TextUnit.toString taken).utf8ByteSize ≠ 0 := fun hzero =>
    hne (TextUnit.eq_nil_of_toString (String.utf8ByteSize_eq_zero_iff.1 hzero))
  rw [hpos, Position.offset_advanceAll]
  omega

/-- **Behind a place there are no more places one behind the other than units.** -/
theorem length_le_of_pairwise_lt {cs : List Cursor} (h : (c :: cs).Pairwise (· < ·)) :
    cs.length ≤ c.rest.length := by
  induction cs generalizing c with
  | nil => exact Nat.zero_le _
  | cons c' cs ih =>
    obtain ⟨hc, hcs⟩ := List.pairwise_cons.1 h
    have hlt := length_lt_of_lt (hc c' List.mem_cons_self)
    have hle := ih hcs
    rw [List.length_cons]
    omega

/-! ## Moves -/

theorem le_takeUntil (stop : Char → Bool) (c : Cursor) : c ≤ (c.takeUntil stop).2 :=
  ⟨_, c.takeUntil_append_rest stop, c.pos_takeUntil stop⟩

theorem le_skipBlanks (c : Cursor) : c ≤ c.skipBlanks :=
  c.le_takeUntil fun x => !isBlank x

theorem lt_pass {x : Char} (h : c.peek = some x) : c < c.pass := by
  obtain ⟨rest, pos⟩ := c
  cases rest with
  | nil => cases h
  | cons u us => exact lt_iff.2 ⟨[u], List.cons_ne_nil u [], rfl, rfl⟩

theorem le_pass (c : Cursor) : c ≤ c.pass := by
  cases h : c.peek with
  | none => rw [pass_of_end h]
  | some x => exact (lt_pass h).le

/-- What stands behind blanks is passed. -/
theorem lt_skipBlanks_pass {x : Char} (h : c.skipBlanks.peek = some x) : c < c.skipBlanks.pass :=
  c.le_skipBlanks.trans_lt (lt_pass h)

/-- What stands behind a run of units is passed, with the unit behind it. -/
theorem lt_takeUntil_pass {stop : Char → Bool} {x : Char} (h : (c.takeUntil stop).2.peek = some x) :
    c < (c.takeUntil stop).2.pass.pass :=
  ((c.le_takeUntil stop).trans_lt (lt_pass h)).trans_le (le_pass _)

end Cursor

namespace Reader

variable {r : Reader} {c last : Cursor}

/-! ## What the rules do with the places -/

/-- An operand stands behind its mark. -/
theorem lt_operand {x : Char} (h : c.skipBlanks.peek = some x) (kind : QuoteKind) :
    c < (takeMark kind c.skipBlanks).2.skipBlanks := by
  refine lt_of_lt_of_le ?_ (Cursor.le_skipBlanks _)
  rw [takeMark]
  split
  · exact (Cursor.lt_skipBlanks_pass h).trans_le (Cursor.le_pass _)
  · exact Cursor.lt_skipBlanks_pass h

theorem le_closeQuoted (kind : QuoteKind) (out : Answer (Option Value)) :
    out.2.cursor ≤ (closeQuoted kind out).2.cursor := by
  match out with
  | (.ok (some v), r') => exact r'.cursor.le_skipBlanks
  | (.ok none, r') | (.error e, r') => exact le_rfl

theorem le_closeList (out : Answer (List Value)) : out.2.cursor ≤ (closeList out).2.cursor := by
  match out with
  | (.ok items, r') =>
    rw [closeList]
    split
    · exact r'.cursor.le_pass.trans r'.cursor.pass.le_skipBlanks
    · exact le_rfl
  | (.error e, r') => exact le_rfl

theorem le_closeString (text : String) (r : Reader) :
    r.cursor ≤ (closeString text r).2.cursor := by
  rw [closeString]
  split
  · exact r.cursor.le_pass.trans r.cursor.pass.le_skipBlanks
  · exact le_rfl

/-- **The turns of a loop over a token** begin one behind the other. -/
theorem Turns.ordered {stop : Char → Bool} {denotes : String → String} {turns : List Cursor}
    {text : String} (h : Turns stop denotes c turns text last) :
    turns.Pairwise (· < ·) ∧ (∀ turn ∈ turns, c ≤ turn ∧ turn ≤ last) ∧ c ≤ last := by
  induction h with
  | @last c ends =>
    refine ⟨List.pairwise_singleton _ c, fun turn hturn => ?_, c.le_takeUntil stop⟩
    obtain rfl := List.mem_singleton.1 hturn
    exact ⟨le_rfl, Cursor.le_takeUntil stop _⟩
  | @escape c last turns text backslash _ ih =>
    obtain ⟨hturns, hwithin, hle⟩ := ih
    have hlt := Cursor.lt_takeUntil_pass backslash
    refine ⟨List.pairwise_cons.2 ⟨fun turn hturn => hlt.trans_le (hwithin turn hturn).1, hturns⟩,
      ?_, hlt.le.trans hle⟩
    rintro turn (_ | ⟨_, hturn⟩)
    · exact ⟨le_rfl, hlt.le.trans hle⟩
    · exact ⟨hlt.le.trans (hwithin turn hturn).1, (hwithin turn hturn).2⟩

/-- A loop that reads something moves on. -/
theorem Turns.lt {stop : Char → Bool} {denotes : String → String} {turns : List Cursor}
    {text : String} (h : Turns stop denotes c turns text last) (hne : text ≠ "") : c < last := by
  cases h with
  | last ends =>
    refine Cursor.lt_iff.2 ⟨_, ?_, c.takeUntil_append_rest stop, c.pos_takeUntil stop⟩
    intro hnil
    rw [hnil] at hne
    exact hne String.ofList_nil
  | escape backslash more =>
    exact (Cursor.lt_takeUntil_pass backslash).trans_le more.ordered.2.2

/-! ## Calls in order -/

namespace CallTree

/-- The first of two calls makes the second. -/
def Makes (call inner : CallTree) : Prop :=
  inner ∈ call.nested

/-- The places that a call comes by: where it begins, where a turn of its loop begins or a call that
it makes begins and ends, and where it ends. -/
def stops : CallTree → List Cursor
  | leaf start turns finish => start :: (turns ++ [finish])
  | node start nested finish =>
    start :: (nested.flatMap (fun call => [call.start, call.finish]) ++ [finish])

/-- A call that goes on all the time. -/
structure Orderly (call : CallTree) : Prop where
  /-- It never goes back. -/
  stops_le : call.stops.Pairwise fun c c' => c.pos.offset ≤ c'.pos.offset
  /-- Its loop does not turn more often than once for each character ahead, and once more. -/
  turns_le : ∀ first ∈ call.turns.head?,
    call.turns.length ≤ (TextUnit.toChars first.rest).length + 1
  /-- The calls that it makes begin behind its own beginning. -/
  nested_lt : ∀ inner, call.Makes inner → call.start.pos.offset < inner.start.pos.offset

/-- Turns that begin one behind the other are no more than what is ahead of the first. -/
theorem turns_length_le {turns : List Cursor} (h : turns.Pairwise (· < ·)) :
    ∀ first ∈ turns.head?, turns.length ≤ (TextUnit.toChars first.rest).length + 1 := by
  intro first hfirst
  obtain ⟨more, rfl⟩ := List.head?_eq_some_iff.1 hfirst
  have hle := (Cursor.length_le_of_pairwise_lt h).trans (TextUnit.length_le_toChars first.rest)
  rw [List.length_cons]
  omega

/-- Places in order between two others. -/
theorem pairwise_offset_le {start finish : Cursor} {stops : List Cursor}
    (hstops : stops.Pairwise (· ≤ ·)) (hwithin : ∀ c ∈ stops, start ≤ c ∧ c ≤ finish)
    (hle : start ≤ finish) :
    (start :: (stops ++ [finish])).Pairwise fun c c' => c.pos.offset ≤ c'.pos.offset := by
  have hsorted : (start :: (stops ++ [finish])).Pairwise (· ≤ ·) := by
    refine List.pairwise_cons.2 ⟨fun c hc => ?_, List.pairwise_append.2
      ⟨hstops, List.pairwise_singleton _ _, fun c hc c' hc' => ?_⟩⟩
    · rcases List.mem_append.1 hc with hc | hc
      · exact (hwithin c hc).1
      · exact (List.mem_singleton.1 hc) ▸ hle
    · exact (List.mem_singleton.1 hc') ▸ (hwithin c hc).2
  exact hsorted.imp Cursor.offset_le_of_le

/-- A call that makes no other is in order if its loop is. -/
theorem orderly_leaf {start finish : Cursor} {turns : List Cursor}
    (hturns : turns.Pairwise (· < ·)) (hwithin : ∀ turn ∈ turns, start ≤ turn ∧ turn ≤ finish)
    (hle : start ≤ finish) : (leaf start turns finish).Orderly where
  stops_le := pairwise_offset_le (hturns.imp le_of_lt) hwithin hle
  turns_le := turns_length_le hturns
  nested_lt inner hinner := by cases hinner

/-- Calls that follow one another between two places, none of which begins where another does. -/
structure Follow (start : Cursor) (calls : List CallTree) (finish : Cursor) : Prop where
  /-- The two places are in order. -/
  le : start ≤ finish
  /-- All calls lie between them. -/
  within : ∀ call ∈ calls, start ≤ call.start ∧ call.start ≤ call.finish ∧ call.finish ≤ finish
  /-- Each one begins where those in front of it have ended, and behind their beginnings. -/
  sorted : calls.Pairwise fun call later =>
    call.start < later.start ∧ call.finish ≤ later.start

/-- Calls that follow one another come by their places in order. -/
theorem Follow.ends_le {start finish : Cursor} {calls : List CallTree}
    (h : Follow start calls finish) :
    (calls.flatMap fun call => [call.start, call.finish]).Pairwise (· ≤ ·) ∧
      ∀ c ∈ calls.flatMap fun call => [call.start, call.finish], start ≤ c ∧ c ≤ finish := by
  have hends (call : CallTree) (hcall : call ∈ calls) (c : Cursor)
      (hc : c ∈ [call.start, call.finish]) : call.start ≤ c ∧ c ≤ call.finish := by
    have hle := (h.within call hcall).2.1
    rcases List.mem_pair.1 hc with rfl | rfl
    · exact ⟨le_rfl, hle⟩
    · exact ⟨hle, le_rfl⟩
  constructor
  · refine List.pairwise_flatMap.2 ⟨fun call hcall =>
      List.pairwise_pair.2 (h.within call hcall).2.1, ?_⟩
    refine h.sorted.imp_of_mem fun {call later} hcall hlater hrel c hc c' hc' => ?_
    exact ((hends call hcall c hc).2.trans hrel.2).trans (hends later hlater c' hc').1
  · intro c hc
    obtain ⟨call, hcall, hc⟩ := List.mem_flatMap.1 hc
    obtain ⟨hstart, -, hfinish⟩ := h.within call hcall
    exact ⟨hstart.trans (hends call hcall c hc).1, (hends call hcall c hc).2.trans hfinish⟩

/-- A call that makes others is in order if they are, and if it takes something first. -/
theorem Follow.orderly {start inner finish last : Cursor} {calls : List CallTree}
    (h : Follow inner calls last) (hlt : start < inner) (hle : last ≤ finish) :
    (node start calls finish).Orderly where
  stops_le := pairwise_offset_le h.ends_le.1
    (fun c hc => ⟨hlt.le.trans (h.ends_le.2 c hc).1, (h.ends_le.2 c hc).2.trans hle⟩)
    (hlt.le.trans (h.le.trans hle))
  turns_le := turns_length_le (List.pairwise_map.2 (h.sorted.imp And.left))
  nested_lt call hcall := Cursor.offset_lt_of_lt (hlt.trans_le (h.within call hcall).1)

end CallTree

/-! ## Every call in its order -/

/-- What a call does with the places: it begins where the reader stands and ends where it leaves it,
with a value only behind its beginning; and it is in order, with all calls that are made in it. -/
structure Moves (r : Reader) (out : Answer (Option Value)) (call : CallTree) : Prop where
  /-- Where the call begins. -/
  start_eq : call.start = r.cursor
  /-- Where it ends. -/
  finish_eq : call.finish = out.2.cursor
  /-- The reader is not moved back. -/
  le : r.cursor ≤ out.2.cursor
  /-- A value takes something. -/
  lt : ∀ v, out.1 = .ok (some v) → r.cursor < out.2.cursor
  /-- The call and those in it. -/
  orderly : ∀ inner, Relation.ReflTransGen CallTree.Makes call inner → inner.Orderly

/-- A call that makes no other. -/
theorem moves_leaf {out : Answer (Option Value)} {turns : List Cursor}
    (hturns : turns.Pairwise (· < ·))
    (hwithin : ∀ turn ∈ turns, r.cursor ≤ turn ∧ turn ≤ out.2.cursor)
    (hle : r.cursor ≤ out.2.cursor) (hlt : ∀ v, out.1 = .ok (some v) → r.cursor < out.2.cursor) :
    Moves r out (.leaf r.cursor turns out.2.cursor) where
  start_eq := rfl
  finish_eq := rfl
  le := hle
  lt := hlt
  orderly inner hinner := by
    rcases hinner.cases_head with rfl | ⟨next, hnext, -⟩
    · exact CallTree.orderly_leaf hturns hwithin hle
    · cases hnext

/-- A call that reads a token, or finds none, moves with the turns of its loop. -/
theorem moves_of_turns {stop : Char → Bool} {denotes : String → String} {turns : List Cursor}
    {text : String} {out : Answer (Option Value)}
    (hturns : Turns stop denotes c turns text last) (hle : r.cursor ≤ c)
    (hfinish : last ≤ out.2.cursor) (hlt : ∀ v, out.1 = .ok (some v) → r.cursor < out.2.cursor) :
    Moves r out (.leaf r.cursor turns out.2.cursor) := by
  obtain ⟨hsorted, hwithin, hlast⟩ := hturns.ordered
  refine moves_leaf hsorted (fun turn hturn => ?_) (hle.trans (hlast.trans hfinish)) hlt
  obtain ⟨hstart, hend⟩ := hwithin turn hturn
  exact ⟨hle.trans hstart, hend.trans hfinish⟩

/-- A call that takes something and then makes others. -/
theorem moves_node {out : Answer (Option Value)} {inside last : Cursor} {calls : List CallTree}
    (hfollow : CallTree.Follow inside calls last) (hlt : r.cursor < inside)
    (hle : last ≤ out.2.cursor)
    (horderly : ∀ call ∈ calls, ∀ inner, Relation.ReflTransGen CallTree.Makes call inner →
      inner.Orderly) :
    Moves r out (.node r.cursor calls out.2.cursor) where
  start_eq := rfl
  finish_eq := rfl
  le := hlt.le.trans (hfollow.le.trans hle)
  lt _ _ := hlt.trans_le (hfollow.le.trans hle)
  orderly inner hinner := by
    rcases hinner.cases_head with rfl | ⟨next, hnext, hinner⟩
    · exact hfollow.orderly hlt hle
    · exact horderly next hnext inner hinner

/-- A call for an operand, or the last one for the elements of a list. -/
theorem Moves.follow {out : Answer (Option Value)} {call : CallTree} (h : Moves r out call) :
    CallTree.Follow r.cursor [call] out.2.cursor := by
  refine ⟨h.le, fun inner hinner => ?_, List.pairwise_singleton _ _⟩
  obtain rfl := List.mem_singleton.1 hinner
  rw [h.start_eq, h.finish_eq]
  exact ⟨le_rfl, h.le, le_rfl⟩

/-- A call that gives a value is followed by others. -/
theorem Moves.follow_cons {mid : Reader} {v : Value} {call : CallTree} {calls : List CallTree}
    (h : Moves r (.ok (some v), mid) call) (hmore : CallTree.Follow mid.cursor calls last) :
    CallTree.Follow r.cursor (call :: calls) last := by
  have hlt : r.cursor < mid.cursor := h.lt v rfl
  refine ⟨h.le.trans hmore.le, ?_, List.pairwise_cons.2 ⟨fun later hlater => ?_, hmore.sorted⟩⟩
  · rintro inner (_ | ⟨_, hinner⟩)
    · rw [h.start_eq, h.finish_eq]
      exact ⟨le_rfl, h.le, hmore.le⟩
    · obtain ⟨hstart, hends⟩ := hmore.within inner hinner
      exact ⟨hlt.le.trans hstart, hends⟩
  · rw [h.start_eq, h.finish_eq]
    have hstart := (hmore.within later hlater).1
    exact ⟨hlt.trans_le hstart, hstart⟩

mutual

/-- **Every call is in order**, and moves the reader on if it gives a value. -/
theorem moves_of_calls : ∀ {r : Reader} {out : Answer (Option Value)} {call : CallTree},
    Calls r out call → Moves r out call
  | r, _, _, .refused _ _ _ =>
    moves_leaf List.Pairwise.nil (by simp) r.cursor.le_skipBlanks (by simp)
  | r, _, _, @Calls.quoted _ _ kind _ out call peek mark allowed operand => by
    have hmoves := moves_of_calls operand
    refine moves_node hmoves.follow (lt_operand peek kind) (le_closeQuoted _ out)
      fun inner hinner => ?_
    obtain rfl := List.mem_singleton.1 hinner
    exact hmoves.orderly
  | r, _, _, @Calls.list _ _ out calls peek allowed items => by
    obtain ⟨hfollow, horderly⟩ := moves_of_items items
    exact moves_node hfollow (Cursor.lt_skipBlanks_pass peek) (le_closeList out) horderly
  | r, _, _, @Calls.string _ turns text last peek contents => by
    have hlt := Cursor.lt_skipBlanks_pass peek
    have hfinish := le_closeString text { r with cursor := last }
    exact moves_of_turns contents hlt.le hfinish fun _ _ =>
      hlt.trans_le (contents.ordered.2.2.trans hfinish)
  | r, _, _, @Calls.atom _ turns text last peek contents => by
    have hstart := r.cursor.le_skipBlanks
    have hfinish : last ≤ (closeAtom text { r with cursor := last }).2.cursor := last.le_skipBlanks
    refine moves_of_turns contents hstart hfinish fun v hv => ?_
    -- an atom is not empty, so its loop has read something
    have hne : text ≠ "" := by
      rintro rfl
      cases hv
    exact (hstart.trans_lt (contents.lt hne)).trans_le hfinish

/-- The calls for the elements of a list follow one another, and each is in order. -/
theorem moves_of_items : ∀ {r : Reader} {out : Answer (List Value)} {calls : List CallTree},
    Items r out calls → CallTree.Follow r.cursor calls out.2.cursor ∧
      ∀ call ∈ calls, ∀ inner, Relation.ReflTransGen CallTree.Makes call inner → inner.Orderly
  | r, _, _, .done call | r, _, _, .failed call => by
    have hmoves := moves_of_calls call
    refine ⟨hmoves.follow, fun inner hinner => ?_⟩
    obtain rfl := List.mem_singleton.1 hinner
    exact hmoves.orderly
  | r, _, _, .next call more => by
    have hmoves := moves_of_calls call
    obtain ⟨hfollow, horderly⟩ := moves_of_items more
    refine ⟨hmoves.follow_cons hfollow, ?_⟩
    rintro inner (_ | ⟨_, hinner⟩)
    · exact hmoves.orderly
    · exact horderly inner hinner

end

/-! ## Calls end -/

/-- A loop over a token ends. -/
theorem exists_turns (stop : Char → Bool) (denotes : String → String) (c : Cursor) :
    ∃ turns text last, Turns stop denotes c turns text last := by
  by_cases h : (c.takeUntil stop).2.peek = some '\\'
  · have hlength := Cursor.length_lt_of_lt (Cursor.lt_takeUntil_pass h)
    obtain ⟨turns, text, last, hturns⟩ := exists_turns stop denotes (c.takeUntil stop).2.pass.pass
    exact ⟨_, _, last, .escape h hturns⟩
  · exact ⟨_, _, _, .last h⟩
termination_by c.rest.length

/-- A character that opens a form is a parenthesis or begins a mark. -/
theorem eq_open_or_mark {x : Char} (h : opens x = true) :
    x = '(' ∨ ∃ kind, QuoteKind.ofChar? x = some kind := by
  rw [opens, Bool.or_eq_true, beq_iff_eq, Option.isSome_iff_exists] at h
  exact h

mutual

/-- **A call ends**, whatever it is made on. -/
theorem exists_calls (r : Reader) : ∃ out call, Calls r out call := by
  by_cases hopens : ∃ x, r.cursor.skipBlanks.peek = some x ∧ opens x = true
  · obtain ⟨x, hpeek, hopens⟩ := hopens
    cases hallowance : r.allowance with
    | zero => exact ⟨_, _, .refused hpeek hopens hallowance⟩
    | succ allowance =>
      rcases eq_open_or_mark hopens with rfl | ⟨kind, hkind⟩
      · have hlength := Cursor.length_lt_of_lt (Cursor.lt_skipBlanks_pass hpeek)
        obtain ⟨out, calls, hitems⟩ := exists_items ⟨r.cursor.skipBlanks.pass, allowance⟩
        exact ⟨_, _, .list hpeek hallowance hitems⟩
      · have hlength := Cursor.length_lt_of_lt (lt_operand hpeek kind)
        obtain ⟨out, call, hcall⟩ :=
          exists_calls ⟨(takeMark kind r.cursor.skipBlanks).2.skipBlanks, allowance⟩
        exact ⟨_, _, .quoted hpeek hkind hallowance hcall⟩
  · by_cases hquote : r.cursor.skipBlanks.peek = some '"'
    · obtain ⟨turns, text, last, hturns⟩ :=
        exists_turns endsString Escape.resolve r.cursor.skipBlanks.pass
      exact ⟨_, _, .string hquote hturns⟩
    · obtain ⟨turns, text, last, hturns⟩ := exists_turns endsAtom id r.cursor.skipBlanks
      refine ⟨_, _, .atom (fun x hx => ⟨?_, ?_⟩) hturns⟩
      · exact Bool.eq_false_iff.2 fun hx' => hopens ⟨x, hx, hx'⟩
      · rintro rfl
        exact hquote hx
termination_by (r.cursor.rest.length, 0)

/-- The calls for the elements of a list end. -/
theorem exists_items (r : Reader) : ∃ out calls, Items r out calls := by
  obtain ⟨out, call, hcall⟩ := exists_calls r
  match out, hcall with
  | (.ok none, r'), hcall => exact ⟨_, _, .done hcall⟩
  | (.error e, r'), hcall => exact ⟨_, _, .failed hcall⟩
  | (.ok (some v), mid), hcall =>
    -- only behind an element that was given is another one looked for
    have hlength := Cursor.length_lt_of_lt ((moves_of_calls hcall).lt v rfl)
    obtain ⟨out, calls, hmore⟩ := exists_items mid
    exact ⟨_, _, .next hcall hmore⟩
termination_by (r.cursor.rest.length, 1)

end

/-! ## Calls that are active at once -/

/-- A call that does not fail gives back what it has used of the allowance. -/
theorem allowance_of_calls {r r' : Reader} {v? : Option Value} {call : CallTree}
    (h : Calls r (.ok v?, r') call) : r'.allowance = r.allowance := by
  have hagrees : Agrees r.allowance [] r (.ok v?, r') := agrees_of_calls h (Nat.zero_add _)
  cases v? <;> exact hagrees.2.1

/-- Of the calls that are active at once, each made by the one in front of it, no more than so many
are made within this one. -/
def CallTree.NestsUpTo (bound : Nat) (call : CallTree) : Prop :=
  ∀ active, (call :: active).IsChain CallTree.Makes → active.length ≤ bound

theorem CallTree.nestsUpTo_leaf (bound : Nat) (start finish : Cursor) (turns : List Cursor) :
    (leaf start turns finish).NestsUpTo bound := by
  rintro (_ | ⟨inner, active⟩) hchain
  · exact Nat.zero_le bound
  · cases (List.isChain_cons_cons.1 hchain).1

/-- A call nests one deeper than the calls that it makes. -/
theorem CallTree.nestsUpTo_node {bound : Nat} {start finish : Cursor} {calls : List CallTree}
    (h : ∀ inner ∈ calls, inner.NestsUpTo bound) :
    (node start calls finish).NestsUpTo (bound + 1) := by
  rintro (_ | ⟨inner, active⟩) hchain
  · exact Nat.zero_le _
  · obtain ⟨hmakes, hinner⟩ := List.isChain_cons_cons.1 hchain
    exact Nat.succ_le_succ (h inner hmakes active hinner)

mutual

/-- **Calls nest no deeper than the allowance.**  Each takes one from it before it makes another. -/
theorem nestsUpTo_of_calls : ∀ {r : Reader} {out : Answer (Option Value)} {call : CallTree},
    Calls r out call → call.NestsUpTo r.allowance
  | _, _, _, .refused _ _ _ | _, _, _, .string _ _ | _, _, _, .atom _ _ =>
    CallTree.nestsUpTo_leaf _ _ _ _
  | r, _, _, .quoted _ _ allowed operand => by
    have hinside := nestsUpTo_of_calls operand
    rw [allowed]
    refine CallTree.nestsUpTo_node fun inner hinner => ?_
    obtain rfl := List.mem_singleton.1 hinner
    exact hinside
  | r, _, _, .list _ allowed items => by
    rw [allowed]
    exact CallTree.nestsUpTo_node (nestsUpTo_of_items items)

/-- The calls for the elements of a list all find the same allowance. -/
theorem nestsUpTo_of_items : ∀ {r : Reader} {out : Answer (List Value)} {calls : List CallTree},
    Items r out calls → ∀ call ∈ calls, call.NestsUpTo r.allowance
  | _, _, _, .done first | _, _, _, .failed first => by
    have hfirst := nestsUpTo_of_calls first
    intro call hcall
    obtain rfl := List.mem_singleton.1 hcall
    exact hfirst
  | _, _, _, .next first more => by
    have hmore := nestsUpTo_of_items more
    rw [allowance_of_calls first] at hmore
    exact List.forall_mem_cons.2 ⟨nestsUpTo_of_calls first, hmore⟩

end

/-! ## All calls of a reader -/

/-- What there is to say of the next call of a reader. -/
structure CallEnds (r : Reader) : Prop where
  /-- The call ends, with what the reader gives and where it then stands. -/
  ends : ∃ call, Calls r r.next call
  /-- It does not end in any other way. -/
  eq_next : ∀ out call, Calls r out call →
    out = r.next ∧ call.start = r.cursor ∧ call.finish = r.next.2.cursor
  /-- The reader is not moved back. -/
  offset_le : r.cursor.pos.offset ≤ r.next.2.cursor.pos.offset
  /-- A value moves it on. -/
  offset_lt : ∀ v, r.next.1 = .ok (some v) → r.cursor.pos.offset < r.next.2.cursor.pos.offset
  /-- The call is in order, with every call that is made in it or in one of those. -/
  orderly : ∀ out call, Calls r out call →
    ∀ inner, Relation.ReflTransGen CallTree.Makes call inner → inner.Orderly
  /-- Calls that are active at once, each made by the one in front of it, are no more than the
  allowance and one. -/
  active_le : ∀ out call, Calls r out call → ∀ active, (call :: active).IsChain CallTree.Makes →
    (call :: active).length ≤ r.allowance + 1

/-- **Every call ends, and goes on all the time.**  Whatever a reader stands in front of, with whatever
allowance, its call ends and never goes back; if it gives a value it moves on.  The loops over atoms,
strings and the elements of lists turn once for each character ahead at most, and once more.  A call
that is made in another one begins behind its beginning, and no more of them are active at once than
the allowance and one. -/
theorem call_ends (r : Reader) : r.CallEnds where
  ends := by
    obtain ⟨out, call, hcall⟩ := exists_calls r
    exact ⟨call, eq_next_of_calls hcall ▸ hcall⟩
  eq_next out call hcall := by
    have hmoves := moves_of_calls hcall
    rw [← eq_next_of_calls hcall]
    exact ⟨rfl, hmoves.start_eq, hmoves.finish_eq⟩
  offset_le := by
    obtain ⟨out, call, hcall⟩ := exists_calls r
    rw [← eq_next_of_calls hcall]
    exact Cursor.offset_le_of_le (moves_of_calls hcall).le
  offset_lt v hv := by
    obtain ⟨out, call, hcall⟩ := exists_calls r
    rw [← eq_next_of_calls hcall] at hv ⊢
    exact Cursor.offset_lt_of_lt ((moves_of_calls hcall).lt v hv)
  orderly out call hcall := (moves_of_calls hcall).orderly
  active_le out call hcall active hchain := Nat.succ_le_succ (nestsUpTo_of_calls hcall active hchain)

/-- A backslash at the end of the text: one character is ahead, and the loop turns twice. -/
example : Turns endsAtom id (.ofString "\\") [.ofString "\\", ⟨[], ⟨1, 0, 1⟩⟩] "" ⟨[], ⟨1, 0, 1⟩⟩ :=
  .escape rfl (.last (by decide))

end Reader

end SExpr
