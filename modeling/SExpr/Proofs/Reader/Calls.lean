import SExpr.Proofs.Reader.Allowance

/-!
# Reading by calls

The machine keeps the forms that are open on a stack.  A reader can do without one: a call reads one
form, and makes another call for the operand of a mark, or one after another for the elements of a
list.  The allowance is then one less inside of the form, and tokens are read in a loop that takes
what needs no escape at once.  Here such calls are given by their rules, together with the calls that
they make, and compared with the machine.

## What is here

* `CallTree` — a call with the places that its loop comes by and the calls that it makes.
* `Turns` — the loop over the contents of a token; atoms and strings have the same one.
* `Calls`, `Items` — a call, and the calls for the elements of a list.  The next character and the
  allowance decide which rule applies.
* `Loop`, `runAt_turns` — the machine in a loop over a token.
* `agrees_of_calls`, `eq_next_of_calls` — a call gives what the machine gives, and stops where it
  stops.
-/

set_option autoImplicit false

namespace SExpr

namespace TextUnit

theorem text_ne_empty (u : TextUnit) : u.text ≠ "" := by
  cases u <;> simp [text, chars]

theorem eq_nil_of_toString {us : List TextUnit} (h : toString us = "") : us = [] := by
  cases us with
  | nil => rfl
  | cons u us =>
    rw [toString, toChars_cons, String.ofList_append, String.append_eq_empty_iff] at h
    exact absurd h.1 u.text_ne_empty

end TextUnit

namespace Cursor

/-- The cursor behind the blanks ahead. -/
def skipBlanks (c : Cursor) : Cursor :=
  c.skipWhile isBlank

/-- The next unit as a text.  It is empty at the end of the text. -/
def nextText (c : Cursor) : String :=
  match c.next? with
  | some (u, _) => u.text
  | none => ""

/-- The cursor behind the next unit.  At the end of the text it stays where it is. -/
def pass (c : Cursor) : Cursor :=
  match c.next? with
  | some (_, behind) => behind
  | none => c

/-- Only at the end of the text is the next unit an empty text. -/
theorem peek_of_nextText {c : Cursor} (h : c.nextText = "") : c.peek = none := by
  obtain ⟨rest, pos⟩ := c
  cases rest with
  | nil => rfl
  | cons u us => exact absurd h (TextUnit.text_ne_empty u)

theorem pass_of_end {c : Cursor} (h : c.peek = none) : c.pass = c := by
  obtain ⟨rest, pos⟩ := c
  cases rest with
  | nil => rfl
  | cons u us => cases h

end Cursor

namespace Reader

/-! ## The rules -/

/-- A call, from where it begins to where it ends. -/
inductive CallTree where
  /-- A call that makes no other, with the places where a turn of its loop begins, if it has one. -/
  | leaf (start : Cursor) (turns : List Cursor) (finish : Cursor)
  /-- A call that makes these others. -/
  | node (start : Cursor) (nested : List CallTree) (finish : Cursor)

namespace CallTree

/-- Where a call begins. -/
def start : CallTree → Cursor
  | leaf start _ _ | node start _ _ => start

/-- Where it ends. -/
def finish : CallTree → Cursor
  | leaf _ _ finish | node _ _ finish => finish

/-- The calls that it makes. -/
def nested : CallTree → List CallTree
  | leaf _ _ _ => []
  | node _ nested _ => nested

/-- Where a turn of its loop begins.  The loop over the elements of a list makes a call in each
turn. -/
def turns : CallTree → List Cursor
  | leaf _ turns _ => turns
  | node _ nested _ => nested.map start

end CallTree

/-- What a call gives, and the reader behind it. -/
abbrev Answer (α : Type) : Type :=
  Except SyntaxError α × Reader

/-- Does this character interrupt the contents of a string? -/
def endsString (c : Char) : Bool :=
  c == '"' || c == '\\'

/-- `Turns stop denotes c turns text last`: the loop over the contents of a token takes everything up
to a character that ends them, and what stands behind a backslash, until there is no backslash. -/
inductive Turns (stop : Char → Bool) (denotes : String → String) :
    Cursor → List Cursor → String → Cursor → Prop where
  | last {c : Cursor} (ends : (c.takeUntil stop).2.peek ≠ some '\\') :
    Turns stop denotes c [c] (TextUnit.toString (c.takeUntil stop).1) (c.takeUntil stop).2
  -- a backslash at the end of the text has nothing behind it, and the loop turns once more
  | escape {c last : Cursor} {turns : List Cursor} {text : String}
    (backslash : (c.takeUntil stop).2.peek = some '\\') :
    Turns stop denotes (c.takeUntil stop).2.pass.pass turns text last →
    Turns stop denotes c (c :: turns)
      (TextUnit.toString (c.takeUntil stop).1 ++ denotes (c.takeUntil stop).2.pass.nextText ++ text)
      last

/-- The kind of a mark and the cursor behind it, where `kind` is what the first character of the mark
stands for on its own. -/
def takeMark (kind : QuoteKind) (c : Cursor) : QuoteKind × Cursor :=
  if kind = .unquote ∧ c.pass.peek = some '@' then (.unquoteSplicing, c.pass.pass)
  else (kind, c.pass)

/-- Behind the operand of a mark. -/
def closeQuoted (kind : QuoteKind) : Answer (Option Value) → Answer (Option Value)
  | (.ok (some v), r) => (.ok (some (.quoted kind v)), ⟨r.cursor.skipBlanks, r.allowance + 1⟩)
  | (.ok none, r) => (.error ⟨.missingOperand kind r.cursor.peek, r.cursor.pos⟩, r)
  | (.error e, r) => (.error e, r)

/-- Behind the elements of a list. -/
def closeList : Answer (List Value) → Answer (Option Value)
  | (.ok items, r) =>
    if r.cursor.peek = some ')' then
      (.ok (some (.list items)), ⟨r.cursor.pass.skipBlanks, r.allowance + 1⟩)
    else (.error ⟨.expectedClose r.cursor.peek, r.cursor.pos⟩, r)
  | (.error e, r) => (.error e, r)

/-- Behind the contents of a string.  The loop over them has ended, so where there is no delimiter
there is nothing. -/
def closeString (text : String) (r : Reader) : Answer (Option Value) :=
  if r.cursor.peek = some '"' then
    (.ok (some (.string text)), { r with cursor := r.cursor.pass.skipBlanks })
  else (.error ⟨.unterminatedString, r.cursor.pos⟩, r)

/-- Behind an atom, or where none is. -/
def closeAtom (text : String) (r : Reader) : Answer (Option Value) :=
  (.ok (if text.isEmpty then none else some (.atom text)),
    { r with cursor := r.cursor.skipBlanks })

mutual

/-- `Calls r out call`: a call of the reader ends with this answer. -/
inductive Calls : Reader → Answer (Option Value) → CallTree → Prop where
  | refused {r : Reader} {c : Char}
    (peek : r.cursor.skipBlanks.peek = some c) (opens : opens c = true)
    (spent : r.allowance = 0) :
    Calls r (.error ⟨.nestingTooDeep, r.cursor.skipBlanks.pos⟩, ⟨r.cursor.skipBlanks, 0⟩)
      (.leaf r.cursor [] r.cursor.skipBlanks)
  | quoted {r : Reader} {c : Char} {kind : QuoteKind} {allowance : Nat}
    {out : Answer (Option Value)} {call : CallTree}
    (peek : r.cursor.skipBlanks.peek = some c) (mark : QuoteKind.ofChar? c = some kind)
    (allowed : r.allowance = allowance + 1) :
    Calls ⟨(takeMark kind r.cursor.skipBlanks).2.skipBlanks, allowance⟩ out call →
    Calls r (closeQuoted (takeMark kind r.cursor.skipBlanks).1 out)
      (.node r.cursor [call] (closeQuoted (takeMark kind r.cursor.skipBlanks).1 out).2.cursor)
  | list {r : Reader} {allowance : Nat} {out : Answer (List Value)} {calls : List CallTree}
    (peek : r.cursor.skipBlanks.peek = some '(')
    (allowed : r.allowance = allowance + 1) :
    Items ⟨r.cursor.skipBlanks.pass, allowance⟩ out calls →
    Calls r (closeList out) (.node r.cursor calls (closeList out).2.cursor)
  | string {r : Reader} {turns : List Cursor} {text : String} {last : Cursor}
    (peek : r.cursor.skipBlanks.peek = some '"')
    (contents : Turns endsString Escape.resolve r.cursor.skipBlanks.pass turns text last) :
    Calls r (closeString text { r with cursor := last })
      (.leaf r.cursor turns (closeString text { r with cursor := last }).2.cursor)
  | atom {r : Reader} {turns : List Cursor} {text : String} {last : Cursor}
    (peek : ∀ c, r.cursor.skipBlanks.peek = some c → opens c = false ∧ c ≠ '"')
    (contents : Turns endsAtom id r.cursor.skipBlanks turns text last) :
    Calls r (closeAtom text { r with cursor := last })
      (.leaf r.cursor turns (closeAtom text { r with cursor := last }).2.cursor)

/-- `Items r out calls`: the calls for the elements of a list end with this answer.  The last one
gives none, or fails. -/
inductive Items : Reader → Answer (List Value) → List CallTree → Prop where
  | done {r r' : Reader} {call : CallTree} :
    Calls r (.ok none, r') call → Items r (.ok [], r') [call]
  | failed {r r' : Reader} {e : SyntaxError} {call : CallTree} :
    Calls r (.error e, r') call → Items r (.error e, r') [call]
  | next {r mid r' : Reader} {v : Value} {result : Except SyntaxError (List Value)}
    {call : CallTree} {calls : List CallTree} :
    Calls r (.ok (some v), mid) call → Items mid (result, r') calls →
    Items r (result.map (v :: ·), r') (call :: calls)

end

/-! ## Runs from a cursor -/

/-- The run from a state at a place. -/
def runAt (limit : Nat) (state : State) (c : Cursor) : Outcome × Cursor :=
  run limit state c.pos c.rest

variable {limit : Nat} {state next : State} {c last : Cursor} {stack : List Frame}

/-- A run goes on behind the units it takes. -/
theorem runAt_of_after {taken : List TextUnit} (h : state.after? limit taken = some next)
    (hrest : taken ++ last.rest = c.rest) (hpos : last.pos = c.pos.advanceAll taken) :
    runAt limit state c = runAt limit next last := by
  rw [runAt, ← hrest, run_append h, ← hpos, runAt]

theorem runAt_of_go {u : TextUnit} (hu : c.rest.head? = some u)
    (hstep : step limit state u = .go next) : runAt limit state c = runAt limit next c.pass := by
  obtain ⟨rest, pos⟩ := c
  obtain ⟨us, rfl⟩ := List.head?_eq_some_iff.1 hu
  exact run_cons_of_go hstep pos us

theorem runAt_of_stop {u : TextUnit} {outcome : Outcome} (hu : c.rest.head? = some u)
    (hstep : step limit state u = .stop outcome) : runAt limit state c = (outcome, c) := by
  obtain ⟨rest, pos⟩ := c
  obtain ⟨us, rfl⟩ := List.head?_eq_some_iff.1 hu
  exact run_cons_of_stop hstep pos us

theorem runAt_of_end (h : c.peek = none) : runAt limit state c = (finish state, c) := by
  obtain ⟨rest, pos⟩ := c
  cases rest with
  | nil => rfl
  | cons u us => cases h

/-- Two states that do the same with what is ahead have the same run. -/
theorem runAt_of_step_eq (hfinish : finish state = finish next)
    (hstep : ∀ u ∈ c.rest.head?, step limit state u = step limit next u) :
    runAt limit state c = runAt limit next c := by
  obtain ⟨rest, pos⟩ := c
  cases rest with
  | nil => rw [runAt, runAt, run_nil, run_nil, hfinish]
  | cons u us => rw [runAt, runAt, run, run, hstep u rfl]

/-- The unit that a character belongs to, unless it could be a pair. -/
theorem head?_of_peek {x : Char} (h : c.peek = some x) (hx : x ≠ '\r') :
    c.rest.head? = some (.char x) := by
  obtain ⟨u, hu, hlead⟩ := Option.map_eq_some_iff.1 h
  rw [hu, TextUnit.eq_char_of_lead hlead hx]

/-- Blanks between tokens lead nowhere. -/
theorem runAt_skipBlanks (progress : Progress) :
    runAt limit (.between progress) c = runAt limit (.between progress) c.skipBlanks := by
  refine runAt_of_after (after?_of_blank (fun u hu => ?_) progress)
    (c.takeUntil_append_rest fun x => !isBlank x) rfl
  simpa using Cursor.stop_lead_of_mem_takeUntil hu

/-- Behind blanks there is no other one. -/
theorem isBlank_of_peek_skipBlanks {x : Char} (h : c.skipBlanks.peek = some x) :
    isBlank x = false := by
  simpa using Cursor.stop_of_peek_takeUntil (fun x => !isBlank x) c x h

/-! ## Tokens -/

/-- What the machine does in a loop over a token: it is `inside` of the contents, or `escaped` behind
a backslash. -/
structure Loop (limit : Nat) (stop : Char → Bool) (denotes : String → String)
    (inside escaped : String → State) : Prop where
  /-- A unit without a meaning of its own is taken as it is. -/
  plain : ∀ text u, stop u.lead = false →
    step limit (inside text) u = .go (inside (text ++ u.text))
  /-- A backslash is taken. -/
  backslash : ∀ text, step limit (inside text) (.char '\\') = .go (escaped text)
  /-- The unit behind it is taken as what it denotes. -/
  denoted : ∀ text u, step limit (escaped text) u = .go (inside (text ++ denotes u.text))
  /-- A backslash at the end of the text changes nothing. -/
  cutOff : ∀ text, finish (escaped text) = finish (inside (text ++ denotes ""))

variable {stop : Char → Bool} {denotes : String → String} {inside escaped : String → State}

theorem Loop.after?_plain (h : Loop limit stop denotes inside escaped) {taken : List TextUnit}
    (htaken : ∀ u ∈ taken, stop u.lead = false) (before : String) :
    (inside before).after? limit taken = some (inside (before ++ TextUnit.toString taken)) := by
  induction taken generalizing before with
  | nil => rw [State.after?_nil, TextUnit.toString, TextUnit.toChars_nil, String.ofList_nil,
      String.append_empty]
  | cons u taken ih =>
    rw [State.after?_cons_of_go (h.plain before u (htaken u List.mem_cons_self)),
      ih fun v hv => htaken v (List.mem_cons_of_mem _ hv), TextUnit.toString, TextUnit.toString,
      append_ofList_cons, TextUnit.toChars_cons]

theorem Loop.runAt_plain (h : Loop limit stop denotes inside escaped) (before : String) :
    runAt limit (inside before) c =
      runAt limit (inside (before ++ TextUnit.toString (c.takeUntil stop).1))
        (c.takeUntil stop).2 :=
  runAt_of_after (h.after?_plain (fun _ hu => Cursor.stop_lead_of_mem_takeUntil hu) before)
    (c.takeUntil_append_rest stop) rfl

/-- Behind a backslash, the run is inside of the contents again. -/
theorem Loop.runAt_escaped (h : Loop limit stop denotes inside escaped) (before : String) :
    runAt limit (escaped before) c =
      runAt limit (inside (before ++ denotes c.nextText)) c.pass := by
  obtain ⟨rest, pos⟩ := c
  cases rest with
  | nil =>
    rw [runAt_of_end rfl, h.cutOff]
    exact (runAt_of_end rfl).symm
  | cons u us => exact runAt_of_go rfl (h.denoted before u)

/-- **The loop over a token** leaves the machine inside of the token, with its contents read. -/
theorem Loop.runAt_turns (h : Loop limit stop denotes inside escaped) {turns : List Cursor}
    {text : String} (hturns : Turns stop denotes c turns text last) (before : String) :
    runAt limit (inside before) c = runAt limit (inside (before ++ text)) last := by
  induction hturns generalizing before with
  | last ends => exact h.runAt_plain before
  | escape backslash _ ih =>
    rw [h.runAt_plain, runAt_of_go (head?_of_peek backslash (by decide)) (h.backslash _),
      h.runAt_escaped, ih, String.append_assoc, String.append_assoc, String.append_assoc]

/-- Behind the loop stands no backslash, but a character that ends the contents, or nothing. -/
theorem Turns.peek_last {turns : List Cursor} {text : String}
    (h : Turns stop denotes c turns text last) :
    last.peek ≠ some '\\' ∧ ∀ x ∈ last.peek, stop x = true := by
  induction h with
  | last ends => exact ⟨ends, Cursor.stop_of_peek_takeUntil stop _⟩
  | escape _ _ ih => exact ih

/-- In an atom.  As long as nothing of it is read, the machine stands in front of a form. -/
def inAtom (stack : List Frame) (text : String) : State :=
  if text.isEmpty then .between (.within stack) else .atom text stack

theorem isEmpty_append_text (before : String) (u : TextUnit) :
    (before ++ u.text).isEmpty = false := by
  rw [Bool.eq_false_iff, Ne, String.isEmpty_iff, String.append_eq_empty_iff]
  exact fun h => u.text_ne_empty h.2

/-- The loop over an atom. -/
theorem loop_atom (limit : Nat) (stack : List Frame) :
    Loop limit endsAtom id (inAtom stack) (.atomEscape · stack) where
  plain text u hu := by
    rw [inAtom, inAtom, isEmpty_append_text, if_neg Bool.false_ne_true]
    split
    · obtain rfl : text = "" := by simpa using ‹text.isEmpty = true›
      rw [String.empty_append]
      exact begins_of_endsAtom hu
    · exact step_atom_of_plain hu text stack
  backslash text := by
    rw [inAtom]
    split
    · obtain rfl : text = "" := by simpa using ‹text.isEmpty = true›
      rfl
    · rfl
  denoted text u := by
    rw [inAtom, id, isEmpty_append_text, if_neg Bool.false_ne_true]
    rfl
  cutOff text := by
    rw [id, String.append_empty, inAtom, finish]
    split <;> rfl

/-- The loop over a string. -/
theorem loop_string (limit : Nat) (stack : List Frame) :
    Loop limit endsString Escape.resolve (.string · stack) (.stringEscape · stack) where
  plain text u hu := by
    rw [endsString, Bool.or_eq_false_iff, beq_eq_false_iff_ne, beq_eq_false_iff_ne] at hu
    simp only [step, hu.1, hu.2, if_false]
  backslash text := rfl
  denoted text u := rfl
  cutOff text := rfl

/-- Behind an atom, the machine has delivered it. -/
theorem runAt_inAtom {text : String} (hends : ∀ x ∈ c.peek, endsAtom x = true)
    (hescape : c.peek ≠ some '\\') (hne : text.isEmpty = false) :
    runAt limit (inAtom stack text) c = runAt limit (.between (deliver (.atom text) stack)) c := by
  rw [inAtom, hne, if_neg Bool.false_ne_true]
  refine runAt_of_step_eq rfl fun u hu => ?_
  have hpeek : c.peek = some u.lead := congrArg (Option.map TextUnit.lead) hu
  exact step_atom_of_endsAtom (hends _ hpeek) (fun h => hescape (h ▸ hpeek)) text

/-! ## Marks -/

/-- The kinds that a single character introduces. -/
theorem ofChar?_eq_some {x : Char} {kind : QuoteKind} (h : QuoteKind.ofChar? x = some kind) :
    x = '\'' ∧ kind = .quote ∨ x = '\x60' ∧ kind = .quasiquote ∨ x = ',' ∧ kind = .unquote := by
  rw [QuoteKind.ofChar?] at h
  repeat' split at h
  all_goals simp_all

/-- A comma is a mark of its own, or the first half of one. -/
theorem runAt_comma : runAt limit (.comma stack) c =
    if c.peek = some '@' then
      runAt limit (.between (.within (.quoted .unquoteSplicing :: stack))) c.pass
    else runAt limit (.between (.within (.quoted .unquote :: stack))) c := by
  split
  · rename_i hat
    exact runAt_of_go (head?_of_peek hat (by decide)) rfl
  · rename_i hat
    refine runAt_of_step_eq rfl fun u hu => ?_
    have hpeek : c.peek = some u.lead := congrArg (Option.map TextUnit.lead) hu
    exact if_neg fun hlead : u.lead = '@' => hat (hlead ▸ hpeek)

/-- **A mark opens a form.** -/
theorem runAt_takeMark {x : Char} {kind : QuoteKind} (hpeek : c.peek = some x)
    (hkind : QuoteKind.ofChar? x = some kind) (hlt : stack.length < limit) :
    runAt limit (.between (.within stack)) c =
      runAt limit (.between (.within (.quoted (takeMark kind c).1 :: stack)))
        (takeMark kind c).2 := by
  rcases ofChar?_eq_some hkind with ⟨rfl, rfl⟩ | ⟨rfl, rfl⟩ | ⟨rfl, rfl⟩
  · exact runAt_of_go (head?_of_peek hpeek (by decide)) (begins_quote.trans (enter_of_lt hlt))
  · exact runAt_of_go (head?_of_peek hpeek (by decide)) (begins_quasiquote.trans (enter_of_lt hlt))
  · have hcomma : step limit (.between (.within stack)) (.char ',') = .go (.comma stack) :=
      begins_comma.trans (enter_of_lt hlt)
    rw [runAt_of_go (head?_of_peek hpeek (by decide)) hcomma, runAt_comma, takeMark]
    split
    · rename_i hat
      rw [if_pos ⟨rfl, hat⟩]
    · rename_i hat
      rw [if_neg fun h => hat h.2]

/-! ## Calls and runs -/

/-- A run from inside of open forms fails as a call does: with its cause, at its place, and with the
forms open that the reader has no allowance for any more. -/
def Fails (limit : Nat) (state : State) (c : Cursor) (e : SyntaxError) (r' : Reader) : Prop :=
  runAt limit state c = (.failed e.cause (limit - r'.allowance), r'.cursor) ∧
    e.pos = r'.cursor.pos ∧ r'.allowance ≤ limit

/-- Where no form begins: at the end of the text, or at a closing parenthesis. -/
def EndsForms (c : Cursor) : Prop :=
  c.peek = none ∨ c.peek = some ')'

/-- What the answer of a call says about the run from inside of open forms: the value is delivered to
them, or nothing happens to them, or the run fails. -/
def Agrees (limit : Nat) (stack : List Frame) (r : Reader) : Answer (Option Value) → Prop
  | (.ok (some v), r') =>
    runAt limit (.between (.within stack)) r.cursor =
        runAt limit (.between (deliver v stack)) r'.cursor ∧
      r'.allowance = r.allowance ∧ ∀ x, r'.cursor.peek = some x → isBlank x = false
  | (.ok none, r') =>
    runAt limit (.between (.within stack)) r.cursor =
        runAt limit (.between (.within stack)) r'.cursor ∧
      r'.allowance = r.allowance ∧ EndsForms r'.cursor
  | (.error e, r') => Fails limit (.between (.within stack)) r.cursor e r'

/-- What the answer of the calls for the elements of a list says about the run from inside of the
list: the elements are delivered to it, or the run fails. -/
def AgreesAll (limit : Nat) (before : List Value) (outer : List Frame) (r : Reader) :
    Answer (List Value) → Prop
  | (.ok items, r') =>
    runAt limit (.between (.within (.list before :: outer))) r.cursor =
        runAt limit (.between (.within (.list (items.reverse ++ before) :: outer))) r'.cursor ∧
      r'.allowance = r.allowance ∧ EndsForms r'.cursor
  | (.error e, r') => Fails limit (.between (.within (.list before :: outer))) r.cursor e r'

/-- A failure is one of every run that comes by. -/
theorem Fails.of_runAt_eq {e : SyntaxError} {r' : Reader} (h : Fails limit next last e r')
    (heq : runAt limit state c = runAt limit next last) : Fails limit state c e r' :=
  ⟨heq.trans h.1, h.2⟩

/-- The forms that a failed run leaves open make up the limit with the allowance that is left. -/
theorem fails_of_open {cause : SyntaxError.Cause} {openForms : Nat} {r' : Reader}
    (hrun : runAt limit state c = (.failed cause openForms, r'.cursor))
    (hlimit : openForms + r'.allowance = limit) :
    Fails limit state c ⟨cause, r'.cursor.pos⟩ r' := by
  have hopen : limit - r'.allowance = openForms := by omega
  exact ⟨by rw [hrun, hopen], rfl, by omega⟩

/-- A value is delivered, and the blanks behind it are taken with it. -/
theorem agrees_value {r : Reader} {v : Value} {allowance : Nat}
    (hrun : runAt limit (.between (.within stack)) r.cursor =
      runAt limit (.between (deliver v stack)) last) (hallowance : allowance = r.allowance) :
    Agrees limit stack r (.ok (some v), ⟨last.skipBlanks, allowance⟩) :=
  ⟨hrun.trans (runAt_skipBlanks _), hallowance, fun _ => isBlank_of_peek_skipBlanks⟩

/-- A mark without an operand. -/
theorem runAt_missing {kind : QuoteKind} (h : EndsForms c) :
    runAt limit (.between (.within (.quoted kind :: stack))) c =
      (.failed (.missingOperand kind c.peek) (stack.length + 1), c) := by
  rcases h with h | h
  · rw [runAt_of_end h, h]
    rfl
  · rw [runAt_of_stop (head?_of_peek h (by decide)) rfl, h]
    rfl

/-- **Behind the operand of a mark.** -/
theorem agrees_closeQuoted {r : Reader} {kind : QuoteKind} {operand : Cursor} {allowance : Nat}
    {out : Answer (Option Value)} (hlimit : stack.length + r.allowance = limit)
    (hallowed : r.allowance = allowance + 1)
    (hrun : runAt limit (.between (.within stack)) r.cursor =
      runAt limit (.between (.within (.quoted kind :: stack))) operand)
    (h : Agrees limit (.quoted kind :: stack) ⟨operand, allowance⟩ out) :
    Agrees limit stack r (closeQuoted kind out) := by
  match out, h with
  | (.ok (some v), r'), ⟨heq, hsame, _⟩ =>
    exact agrees_value (hrun.trans heq) ((congrArg (· + 1) hsame).trans hallowed.symm)
  | (.ok none, r'), ⟨heq, hsame, hends⟩ =>
    have hinside : r'.allowance = allowance := hsame
    exact fails_of_open ((hrun.trans heq).trans (runAt_missing hends)) (by omega)
  | (.error e, r'), hfails => exact Fails.of_runAt_eq hfails hrun

/-- **Behind the elements of a list.** -/
theorem agrees_closeList {r : Reader} {inner : Cursor} {allowance : Nat} {out : Answer (List Value)}
    (hlimit : stack.length + r.allowance = limit) (hallowed : r.allowance = allowance + 1)
    (hrun : runAt limit (.between (.within stack)) r.cursor =
      runAt limit (.between (.within (.list [] :: stack))) inner)
    (h : AgreesAll limit [] stack ⟨inner, allowance⟩ out) :
    Agrees limit stack r (closeList out) := by
  match out, h with
  | (.ok items, r'), ⟨heq, hsame, hends⟩ =>
    rw [List.append_nil] at heq
    rw [closeList]
    split
    · rename_i hclose
      have hdeliver : runAt limit (.between (.within (.list items.reverse :: stack))) r'.cursor =
          runAt limit (.between (deliver (.list items) stack)) r'.cursor.pass := by
        have hstep : step limit (.between (.within (.list items.reverse :: stack))) (.char ')') =
            .go (.between (deliver (.list items.reverse.reverse) stack)) := rfl
        rw [List.reverse_reverse] at hstep
        exact runAt_of_go (head?_of_peek hclose (by decide)) hstep
      exact agrees_value ((hrun.trans heq).trans hdeliver)
        ((congrArg (· + 1) hsame).trans hallowed.symm)
    · rename_i hclose
      have hinside : r'.allowance = allowance := hsame
      have hend : r'.cursor.peek = none := hends.resolve_right hclose
      have hunclosed : runAt limit (.between (.within (.list items.reverse :: stack))) r'.cursor =
          (.failed (.expectedClose r'.cursor.peek) (stack.length + 1), r'.cursor) := by
        rw [runAt_of_end hend, hend]
        rfl
      exact fails_of_open ((hrun.trans heq).trans hunclosed) (by omega)
  | (.error e, r'), hfails => exact Fails.of_runAt_eq hfails hrun

/-- Behind the contents of a string stands its delimiter, or nothing. -/
theorem Turns.peek_eq_none {turns : List Cursor} {text : String}
    (h : Turns endsString denotes c turns text last) (hclose : last.peek ≠ some '"') :
    last.peek = none := by
  obtain ⟨hescape, hends⟩ := h.peek_last
  cases hx : last.peek with
  | none => rfl
  | some x =>
    have hstop := hends x hx
    rw [endsString, Bool.or_eq_true, beq_iff_eq, beq_iff_eq] at hstop
    rcases hstop with rfl | rfl
    · exact absurd hx hclose
    · exact absurd hx hescape

/-- **Behind the contents of a string.** -/
theorem agrees_closeString {r : Reader} {turns : List Cursor} {text : String}
    (hlimit : stack.length + r.allowance = limit)
    (hpeek : r.cursor.skipBlanks.peek = some '"')
    (hturns : Turns endsString Escape.resolve r.cursor.skipBlanks.pass turns text last) :
    Agrees limit stack r (closeString text { r with cursor := last }) := by
  have hrun : runAt limit (.between (.within stack)) r.cursor =
      runAt limit (.string text stack) last := by
    have hstep : step limit (.between (.within stack)) (.char '"') = .go (.string "" stack) := rfl
    rw [runAt_skipBlanks, runAt_of_go (head?_of_peek hpeek (by decide)) hstep,
      (loop_string limit stack).runAt_turns hturns, String.empty_append]
  rw [closeString]
  split
  · rename_i hclose
    refine agrees_value (hrun.trans ?_) rfl
    exact runAt_of_go (head?_of_peek hclose (by decide)) rfl
  · rename_i hclose
    exact fails_of_open (hrun.trans (runAt_of_end (hturns.peek_eq_none hclose))) hlimit

/-- A loop that reads nothing stays where it is, or comes to the end of the text. -/
theorem Turns.of_empty {turns : List Cursor} {text : String}
    (h : Turns stop id c turns text last) (hempty : text = "") : last = c ∨ last.peek = none := by
  induction h with
  | @last c ends =>
    have hrest := c.takeUntil_append_rest stop
    have hpos := c.pos_takeUntil stop
    rw [TextUnit.eq_nil_of_toString hempty] at hrest hpos
    exact Or.inl (Cursor.ext hrest hpos)
  | @escape c last turns text backslash _ ih =>
    rw [String.append_eq_empty_iff, String.append_eq_empty_iff] at hempty
    have hend := Cursor.peek_of_nextText hempty.1.2
    rcases ih hempty.2 with rfl | hlast
    · exact Or.inr (by rwa [Cursor.pass_of_end hend])
    · exact Or.inr hlast

/-- What follows the blanks, and begins neither a token nor a form. -/
theorem endsForms_of_peek (hblank : ∀ x ∈ c.peek, isBlank x = false)
    (hends : ∀ x ∈ c.peek, endsAtom x = true) (hescape : c.peek ≠ some '\\')
    (hpeek : ∀ x, c.peek = some x → opens x = false ∧ x ≠ '"') : EndsForms c := by
  cases hx : c.peek with
  | none => exact Or.inl hx
  | some x =>
    refine Or.inr ?_
    obtain ⟨hopens, hquote⟩ := hpeek x hx
    have hne : ∀ d, opens d = true → x ≠ d := by
      rintro d hd rfl
      rw [hopens] at hd
      cases hd
    rcases lead_cases x with h | rfl | rfl | rfl | rfl | rfl | rfl | rfl | h
    · rw [hblank x hx] at h
      cases h
    · exact absurd rfl (hne '(' rfl)
    · exact hx
    · exact absurd rfl hquote
    · exact absurd hx hescape
    · exact absurd rfl (hne '\'' rfl)
    · exact absurd rfl (hne '\x60' rfl)
    · exact absurd rfl (hne ',' rfl)
    · rw [hends x hx] at h
      cases h

/-- No blank stands where no form begins. -/
theorem EndsForms.skipBlanks_eq (h : EndsForms c) : c.skipBlanks = c := by
  refine congrArg Prod.snd (Cursor.takeUntil_of_peek fun x hx => ?_)
  rcases h with h | h
  · rw [h] at hx
    cases hx
  · rw [h] at hx
    obtain rfl := Option.some.inj hx
    decide

/-- **Behind an atom, or where none is.** -/
theorem agrees_closeAtom {r : Reader} {turns : List Cursor} {text : String}
    (hpeek : ∀ x, r.cursor.skipBlanks.peek = some x → opens x = false ∧ x ≠ '"')
    (hturns : Turns endsAtom id r.cursor.skipBlanks turns text last) :
    Agrees limit stack r (closeAtom text { r with cursor := last }) := by
  have hrun : runAt limit (.between (.within stack)) r.cursor =
      runAt limit (inAtom stack text) last := by
    have hloop := (loop_atom limit stack).runAt_turns hturns ""
    rw [String.empty_append] at hloop
    rw [runAt_skipBlanks, ← hloop]
    rfl
  obtain ⟨hescape, hends⟩ := hturns.peek_last
  rw [closeAtom]
  split
  · rename_i hempty
    rw [inAtom, if_pos hempty] at hrun
    refine ⟨hrun.trans (runAt_skipBlanks _), rfl, ?_⟩
    have hforms : EndsForms last := by
      rcases hturns.of_empty (String.isEmpty_iff.1 hempty) with rfl | hend
      · exact endsForms_of_peek (fun x => isBlank_of_peek_skipBlanks) hends hescape hpeek
      · exact Or.inl hend
    rwa [← hforms.skipBlanks_eq] at hforms
  · rename_i hempty
    rw [runAt_inAtom hends hescape (by simpa using hempty)] at hrun
    exact agrees_value hrun rfl

/-- **A form that is not opened.** -/
theorem agrees_refused {r : Reader} {x : Char} (hlimit : stack.length + r.allowance = limit)
    (hpeek : r.cursor.skipBlanks.peek = some x) (hopens : opens x = true)
    (hspent : r.allowance = 0) :
    Agrees limit stack r
      (.error ⟨.nestingTooDeep, r.cursor.skipBlanks.pos⟩, ⟨r.cursor.skipBlanks, 0⟩) := by
  obtain ⟨u, hu, rfl⟩ := Option.map_eq_some_iff.1 hpeek
  have hstop : step limit (.between (.within stack)) u = .stop (.failed .nestingTooDeep limit) :=
    begins_of_opens hopens (by omega)
  exact fails_of_open ((runAt_skipBlanks _).trans (runAt_of_stop hu hstop)) (Nat.add_zero limit)

/-- An element is followed by the others. -/
theorem agreesAll_cons {r mid r' : Reader} {v : Value} {result : Except SyntaxError (List Value)}
    {before : List Value} {outer : List Frame}
    (h : Agrees limit (.list before :: outer) r (.ok (some v), mid))
    (hmore : AgreesAll limit (v :: before) outer mid (result, r')) :
    AgreesAll limit before outer r (result.map (v :: ·), r') := by
  match result, hmore with
  | .ok items, ⟨heq, hsame, hends⟩ =>
    refine ⟨?_, hsame.trans h.2.1, hends⟩
    rw [List.reverse_cons, List.append_assoc, List.singleton_append]
    exact h.1.trans heq
  | .error e, hfails => exact hfails.of_runAt_eq h.1

mutual

/-- **A call agrees with the run** from inside of any forms that make up the limit together with the
allowance. -/
theorem agrees_of_calls : ∀ {r : Reader} {out : Answer (Option Value)} {call : CallTree},
    Calls r out call → ∀ {stack : List Frame}, stack.length + r.allowance = limit →
      Agrees limit stack r out
  | _, _, _, .refused peek opens spent, _, hlimit => agrees_refused hlimit peek opens spent
  | r, _, _, .quoted peek mark allowed operand, stack, hlimit => by
    refine agrees_closeQuoted hlimit allowed ?_
      (agrees_of_calls operand (by simp only [List.length_cons]; omega))
    rw [runAt_skipBlanks, runAt_takeMark peek mark (by omega)]
    exact runAt_skipBlanks _
  | r, _, _, .list peek allowed items, stack, hlimit => by
    refine agrees_closeList hlimit allowed ?_ (agreesAll_of_items items (by simp only; omega))
    rw [runAt_skipBlanks]
    exact runAt_of_go (head?_of_peek peek (by decide)) (begins_open.trans (enter_of_lt (by omega)))
  | _, _, _, .string peek contents, _, hlimit => agrees_closeString hlimit peek contents
  | _, _, _, .atom peek contents, _, _ => agrees_closeAtom peek contents

/-- The calls for the elements of a list agree with the run, one after another. -/
theorem agreesAll_of_items : ∀ {r : Reader} {out : Answer (List Value)} {calls : List CallTree},
    Items r out calls → ∀ {before : List Value} {outer : List Frame},
      outer.length + 1 + r.allowance = limit → AgreesAll limit before outer r out
  | _, _, _, .done call, before, outer, hlimit => agrees_of_calls call hlimit
  | _, _, _, .failed call, before, outer, hlimit => agrees_of_calls call hlimit
  | _, _, _, .next call more, before, outer, hlimit => by
    have hagrees : Agrees limit (.list before :: outer) _ _ := agrees_of_calls call hlimit
    exact agreesAll_cons hagrees (agreesAll_of_items more (by rw [hagrees.2.1, hlimit]))

end

/-- **A call gives what the machine gives**, and stops where it stops. -/
theorem eq_next_of_calls {r : Reader} {out : Answer (Option Value)} {call : CallTree}
    (h : Calls r out call) : out = r.next := by
  have hagrees : Agrees r.allowance [] r out := agrees_of_calls h (Nat.zero_add _)
  have hnext : r.next = (runAt r.allowance .start r.cursor).1.give r
      (runAt r.allowance .start r.cursor).2 := next_eq_give r
  match out, hagrees with
  | (.ok (some v), r'), ⟨hrun, hsame, hblank⟩ =>
    have hvalue : runAt r.allowance (.between (.complete v)) r'.cursor = (.value v, r'.cursor) := by
      cases hu : r'.cursor.rest.head? with
      | none => exact runAt_of_end (by rw [Cursor.peek, hu]; rfl)
      | some u =>
        have hlead := hblank u.lead (by rw [Cursor.peek, hu]; rfl)
        exact runAt_of_stop hu (if_neg (by simp [hlead]))
    rw [hnext, State.start, hrun, deliver, hvalue, Outcome.give, ← hsame]
  | (.ok none, r'), ⟨hrun, hsame, hends⟩ =>
    have hnothing : runAt r.allowance (.between (.within [])) r'.cursor = (.nothing, r'.cursor) := by
      rcases hends with hend | hclose
      · exact runAt_of_end hend
      · exact runAt_of_stop (head?_of_peek hclose (by decide)) rfl
    rw [hnext, State.start, hrun, hnothing, Outcome.give, ← hsame]
  | (.error e, r'), ⟨hrun, hpos, hle⟩ =>
    rw [hnext, State.start, hrun, Outcome.give, Nat.sub_sub_self hle, ← hpos]

end Reader

end SExpr
