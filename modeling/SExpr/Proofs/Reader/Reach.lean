import SExpr.Reader.Run
import SExpr.Grammar

/-!
# What the machine comes to

The steps of the reading machine, sorted by the character they are decided on, and a relation for
runs that come from one state to another.  A run is described by what it leaves ahead and not by
its position, which follows from what it takes.

## What is here

* `begins_of_isBlank` and the lemmas behind it — what the machine does where a form can begin, by
  the cases of `TextUnit.unit_cases`.
* `step_of_isBlank` — what a blank does in any state but a string or an escape.
* `Reaches` — a run from one place comes by another.  Runs compose (`Reaches.trans`).
* `Overruns` — a run ends because one more form would be open than the limit says.
* `reaches_of_blanks` — blanks between tokens lead nowhere.
-/

set_option autoImplicit false

namespace SExpr

namespace TextUnit

/-- A character joins what follows only as the first half of a line break pair. -/
theorem cons_cases (c : Char) (us : List TextUnit) :
    cons c us = .char c :: us ∨
      c = '\r' ∧ ∃ tail, us = .char '\n' :: tail ∧ cons c us = .crlf :: tail := by
  by_cases h : c = '\r' ∧ us.head? = some (.char '\n')
  · obtain ⟨rfl, hus⟩ := h
    obtain ⟨tail, rfl⟩ := List.head?_eq_some_iff.1 hus
    exact Or.inr ⟨rfl, tail, rfl, rfl⟩
  · exact Or.inl (cons_of_ne h)

theorem ofChars_cons_of_ne {c : Char} (h : c ≠ '\r') (cs : List Char) :
    ofChars (c :: cs) = .char c :: ofChars cs := by
  rw [ofChars_cons, cons_of_ne (fun hc => h hc.1)]

theorem ofChars_cons_of_not_pairs {c : Char} {cs : List Char} (h : ¬Grammar.Pairs c cs) :
    ofChars (c :: cs) = .char c :: ofChars cs := by
  rw [ofChars_cons, cons_of_ne (fun hc => h ⟨hc.1, head?_ofChars_eq_lf hc.2⟩)]

theorem ofChars_crlf (cs : List Char) : ofChars ('\r' :: '\n' :: cs) = .crlf :: ofChars cs := by
  rw [ofChars_cons, ofChars_cons_of_ne (by decide)]
  rfl

/-- The first unit of a text is decided on by its first character. -/
theorem map_lead_head?_ofChars (cs : List Char) : (ofChars cs).head?.map lead = cs.head? := by
  cases cs with
  | nil => rfl
  | cons c cs =>
    rw [ofChars_cons]
    rcases cons_cases c (ofChars cs) with h | ⟨rfl, tail, -, h⟩ <;> rw [h] <;> rfl

/-- The character that a text begins with is one that its first unit is decided on. -/
theorem exists_ofChars_cons {cs : List Char} {c : Char} (h : cs.head? = some c) :
    ∃ u us, ofChars cs = u :: us ∧ u.lead = c := by
  rw [← map_lead_head?_ofChars] at h
  obtain ⟨u, hu, hlead⟩ := Option.map_eq_some_iff.1 h
  obtain ⟨us, hus⟩ := List.head?_eq_some_iff.1 hu
  exact ⟨u, us, hus, hlead⟩

/-- **The first unit of a text, and what it is cut from.**  A carriage return that is a unit has
no line feed behind it. -/
theorem eq_append_of_ofChars_eq_cons {cs : List Char} {u : TextUnit} {us : List TextUnit}
    (h : ofChars cs = u :: us) :
    ∃ tail, cs = u.chars ++ tail ∧ ofChars tail = us ∧ ∀ c, u = .char c → ¬Grammar.Pairs c tail := by
  cases cs with
  | nil => simp at h
  | cons c cs =>
    by_cases hp : Grammar.Pairs c cs
    · obtain ⟨rfl, hcs⟩ := hp
      obtain ⟨tail, rfl⟩ := List.head?_eq_some_iff.1 hcs
      rw [ofChars_crlf] at h
      obtain ⟨rfl, rfl⟩ := List.cons.inj h
      exact ⟨tail, rfl, rfl, fun c hc => by simp at hc⟩
    · rw [ofChars_cons_of_not_pairs hp] at h
      obtain ⟨rfl, rfl⟩ := List.cons.inj h
      exact ⟨cs, rfl, rfl, fun c' hc => by obtain rfl := TextUnit.char.inj hc; exact hp⟩

/-- Only a carriage return leaves open what the whole unit is. -/
theorem eq_char_of_lead {u : TextUnit} {c : Char} (h : u.lead = c) (hc : c ≠ '\r') :
    u = .char c := by
  cases u with
  | char d => rw [← h]; rfl
  | crlf => exact absurd h.symm hc

/-- The cases of `lead_cases` for units: no character with a meaning of its own is part of a pair. -/
theorem unit_cases (u : TextUnit) : isBlank u.lead = true ∨ u = .char '(' ∨ u = .char ')' ∨
    u = .char '"' ∨ u = .char '\\' ∨ u = .char '\'' ∨ u = .char '\x60' ∨ u = .char ',' ∨
    endsAtom u.lead = false := by
  cases u with
  | char c => simpa [lead] using lead_cases c
  | crlf => exact Or.inl rfl

end TextUnit

namespace Reader

variable {limit : Nat} {stack : List Frame}

/-! ## What begins with a character -/

theorem begins_of_isBlank {u : TextUnit} (h : isBlank u.lead = true) :
    begins limit stack u = .go (.between (.within stack)) := by
  simp only [begins, h, if_true]

theorem begins_open : begins limit stack (.char '(') =
    enter limit stack (.between (.within (.list [] :: stack))) := rfl

theorem begins_close (items : List Value) (outer : List Frame) :
    begins limit (.list items :: outer) (.char ')') =
      .go (.between (deliver (.list items.reverse) outer)) := rfl

theorem begins_string : begins limit stack (.char '"') = .go (.string "" stack) := rfl

theorem begins_escape : begins limit stack (.char '\\') = .go (.atomEscape "" stack) := rfl

theorem begins_quote : begins limit stack (.char '\'') =
    enter limit stack (.between (.within (.quoted .quote :: stack))) := rfl

theorem begins_quasiquote : begins limit stack (.char '\x60') =
    enter limit stack (.between (.within (.quoted .quasiquote :: stack))) := rfl

theorem begins_comma : begins limit stack (.char ',') = enter limit stack (.comma stack) := rfl

theorem begins_of_endsAtom {u : TextUnit} (h : endsAtom u.lead = false) :
    begins limit stack u = .go (.atom u.text stack) := by
  have hne : ∀ d, endsAtom d = true → u.lead ≠ d := fun d hd => ne_of_endsAtom h hd
  have hopen := hne '(' (by decide)
  have hclose := hne ')' (by decide)
  have hquote := hne '"' (by decide)
  have hescape := hne '\\' (by decide)
  have hkind : QuoteKind.ofChar? u.lead = none := by
    rw [QuoteKind.ofChar?, if_neg (hne _ (by decide)), if_neg (hne _ (by decide)),
      if_neg (hne _ (by decide))]
  simp [begins, isBlank_eq_false_of_endsAtom h, hopen, hclose, hquote, hescape, hkind]

theorem enter_of_lt {next : State} (h : stack.length < limit) :
    enter limit stack next = .go next :=
  if_pos h

theorem enter_of_eq {next : State} (h : stack.length = limit) :
    enter limit stack next = .stop (.failed .nestingTooDeep limit) := by
  rw [enter, if_neg (by omega), h]

/-- The form that is opened is one that the limit allows. -/
theorem enter_eq_go {next next' : State} (h : enter limit stack next = .go next') :
    stack.length < limit ∧ next = next' := by
  rw [enter] at h
  split at h
  · rename_i hlt
    exact ⟨hlt, Step.go.inj h⟩
  · cases h

/-- The form that is not opened is one more than the limit allows. -/
theorem enter_eq_stop {next : State} {outcome : Outcome}
    (h : enter limit stack next = .stop outcome) :
    limit ≤ stack.length ∧ outcome = .failed .nestingTooDeep stack.length := by
  rw [enter] at h
  split at h
  · cases h
  · rename_i hlt
    exact ⟨Nat.le_of_not_lt hlt, (Step.stop.inj h).symm⟩

/-- Does this character open a form? -/
def opens (c : Char) : Bool :=
  c == '(' || (QuoteKind.ofChar? c).isSome

theorem opens_iff {c : Char} : opens c = true ↔ c = '(' ∨ c = '\'' ∨ c = '\x60' ∨ c = ',' := by
  rw [opens, QuoteKind.ofChar?, Bool.or_eq_true, beq_iff_eq]
  repeat' split
  all_goals simp [*]

/-- Where the limit is reached, no form is opened. -/
theorem begins_of_opens {u : TextUnit} (h : opens u.lead = true) (hfull : stack.length = limit) :
    begins limit stack u = .stop (.failed .nestingTooDeep limit) := by
  rcases opens_iff.1 h with hu | hu | hu | hu
  · obtain rfl := TextUnit.eq_char_of_lead hu (by decide)
    exact begins_open.trans (enter_of_eq hfull)
  · obtain rfl := TextUnit.eq_char_of_lead hu (by decide)
    exact begins_quote.trans (enter_of_eq hfull)
  · obtain rfl := TextUnit.eq_char_of_lead hu (by decide)
    exact begins_quasiquote.trans (enter_of_eq hfull)
  · obtain rfl := TextUnit.eq_char_of_lead hu (by decide)
    exact begins_comma.trans (enter_of_eq hfull)

/-- **A unit where a form can begin is refused for two reasons:** it opens a form that the limit
does not allow, or it closes a list where none is open. -/
theorem begins_eq_stop {u : TextUnit} {outcome : Outcome}
    (h : begins limit stack u = .stop outcome) :
    (opens u.lead = true ∧ limit ≤ stack.length ∧
        outcome = .failed .nestingTooDeep stack.length) ∨
      (u = .char ')' ∧ (∀ items outer, stack ≠ .list items :: outer) ∧
        outcome = noForm (some ')') stack) := by
  rcases u.unit_cases with hu | rfl | rfl | rfl | rfl | rfl | rfl | rfl | hu
  · rw [begins_of_isBlank hu] at h
    cases h
  · exact Or.inl ⟨rfl, enter_eq_stop (begins_open.symm.trans h)⟩
  · match stack, h with
    | [], h | .quoted kind :: outer, h =>
      exact Or.inr ⟨rfl, fun items outer => by simp, (Step.stop.inj h).symm⟩
    | .list items :: outer, h => cases h
  · cases h
  · cases h
  · exact Or.inl ⟨rfl, enter_eq_stop (begins_quote.symm.trans h)⟩
  · exact Or.inl ⟨rfl, enter_eq_stop (begins_quasiquote.symm.trans h)⟩
  · exact Or.inl ⟨rfl, enter_eq_stop (begins_comma.symm.trans h)⟩
  · rw [begins_of_endsAtom hu] at h
    cases h

/-- Blanks between tokens are taken and change nothing. -/
theorem continues_of_isBlank {u : TextUnit} (h : isBlank u.lead = true) (progress : Progress) :
    continues limit progress u = .go (.between progress) := by
  cases progress with
  | within stack => exact begins_of_isBlank h
  | complete v => simp only [continues, h, if_true]

/-- An atom ends where a delimiter stands, as if nothing had been in front of it. -/
theorem step_atom_of_endsAtom {u : TextUnit} (h : endsAtom u.lead = true) (hne : u.lead ≠ '\\')
    (text : String) :
    step limit (.atom text stack) u = step limit (.between (deliver (.atom text) stack)) u := by
  simp [step, h, hne]

/-- Where a blank leads to.  In strings, and behind a backslash, it is like any other character. -/
def State.behindBlank? : State → Option Progress
  | .between progress => some progress
  | .comma stack => some (.within (.quoted .unquote :: stack))
  | .atom text stack => some (deliver (.atom text) stack)
  | .atomEscape _ _ | .string _ _ | .stringEscape _ _ => none

/-- **A blank ends what it stands behind**, and does nothing else. -/
theorem step_of_isBlank {u : TextUnit} (h : isBlank u.lead = true) {state : State}
    {progress : Progress} (hstate : state.behindBlank? = some progress) :
    step limit state u = .go (.between progress) := by
  cases state with
  | between progress' =>
    obtain rfl := Option.some.inj hstate
    exact continues_of_isBlank h progress'
  | comma stack =>
    obtain rfl := Option.some.inj hstate
    rw [step, if_neg (ne_of_isBlank h (by decide))]
    exact begins_of_isBlank h
  | atom text stack =>
    obtain rfl := Option.some.inj hstate
    have hends : endsAtom u.lead = true := by rw [endsAtom, h, Bool.true_or]
    rw [step_atom_of_endsAtom hends (ne_of_isBlank h (by decide))]
    exact continues_of_isBlank h _
  | atomEscape | string | stringEscape => cases hstate

/-! ## Texts that grow by a unit -/

theorem append_ofList_cons (text : String) (u : TextUnit) (chars : List Char) :
    text ++ u.text ++ String.ofList chars = text ++ String.ofList (u.chars ++ chars) := by
  rw [TextUnit.text, String.append_assoc, ← String.ofList_append]

theorem resolve_char (c : Char) :
    Escape.resolve (TextUnit.char c).text = (TextUnit.char (Escape.denoted c)).text := by
  rw [Escape.resolve, TextUnit.text, TextUnit.chars, String.toList_ofList]
  exact String.singleton_eq_ofList

theorem resolve_crlf : Escape.resolve TextUnit.crlf.text = TextUnit.crlf.text := by
  simp [Escape.resolve, TextUnit.text, TextUnit.chars]

/-! ## Runs that come by a place -/

/-- A run from `state` in front of `us` comes by `next` in front of `rest`. -/
def Reaches (limit : Nat) (state : State) (us : List TextUnit) (next : State)
    (rest : List TextUnit) : Prop :=
  ∃ taken, us = taken ++ rest ∧
    ∀ pos, run limit state pos us = run limit next (pos.advanceAll taken) rest

/-- A run from `state` in front of `us` ends because the limit allows no other open form. -/
def Overruns (limit : Nat) (state : State) (us : List TextUnit) : Prop :=
  ∀ pos, (run limit state pos us).1 = .failed .nestingTooDeep limit

theorem Reaches.refl (state : State) (us : List TextUnit) : Reaches limit state us state us :=
  ⟨[], rfl, fun _ => rfl⟩

theorem Reaches.trans {s₁ s₂ s₃ : State} {us vs ws : List TextUnit}
    (h₁ : Reaches limit s₁ us s₂ vs) (h₂ : Reaches limit s₂ vs s₃ ws) :
    Reaches limit s₁ us s₃ ws := by
  obtain ⟨first, rfl, hfirst⟩ := h₁
  obtain ⟨second, rfl, hsecond⟩ := h₂
  refine ⟨first ++ second, (List.append_assoc ..).symm, fun pos => ?_⟩
  rw [hfirst, hsecond, Position.advanceAll_append]

theorem Reaches.of_after {state next : State} {taken : List TextUnit}
    (h : state.after? limit taken = some next) (rest : List TextUnit) :
    Reaches limit state (taken ++ rest) next rest :=
  ⟨taken, rfl, fun pos => run_append h pos rest⟩

theorem Reaches.of_step {state next : State} {u : TextUnit} (h : step limit state u = .go next)
    (rest : List TextUnit) : Reaches limit state (u :: rest) next rest :=
  ⟨[u], rfl, fun pos => run_cons_of_go h pos rest⟩

theorem Reaches.of_begins {next : State} {u : TextUnit} (h : begins limit stack u = .go next)
    (rest : List TextUnit) : Reaches limit (.between (.within stack)) (u :: rest) next rest :=
  of_step (show step limit (.between (.within stack)) u = _ from h) rest

/-- Two states that do the same with what is ahead reach the same places. -/
theorem Reaches.of_step_eq {state next : State} {us : List TextUnit}
    (hfinish : us = [] → finish state = finish next)
    (hstep : ∀ u ∈ us.head?, step limit state u = step limit next u) :
    Reaches limit state us next us := by
  refine ⟨[], rfl, fun pos => ?_⟩
  cases us with
  | nil => rw [run_nil, hfinish rfl, Position.advanceAll_nil, run_nil]
  | cons u us => rw [run, run, hstep u rfl, Position.advanceAll_nil]

theorem Reaches.overruns {state next : State} {us rest : List TextUnit}
    (h : Reaches limit state us next rest) (hnext : Overruns limit next rest) :
    Overruns limit state us := by
  obtain ⟨taken, -, hrun⟩ := h
  intro pos
  rw [hrun, hnext]

theorem Overruns.of_step {state : State} {u : TextUnit}
    (h : step limit state u = .stop (.failed .nestingTooDeep limit)) (rest : List TextUnit) :
    Overruns limit state (u :: rest) := by
  intro pos
  rw [run_cons_of_stop h]

theorem Overruns.of_begins {u : TextUnit}
    (h : begins limit stack u = .stop (.failed .nestingTooDeep limit)) (rest : List TextUnit) :
    Overruns limit (.between (.within stack)) (u :: rest) :=
  of_step (show step limit (.between (.within stack)) u = _ from h) rest

/-! ## Blanks -/

/-- Blanks are cut into units that are blank.  The rest must not begin with the second half of a
line break pair, or the first half would not be a unit. -/
theorem exists_blank_units {text rest : List Char} (h : Grammar.Blanks text rest)
    (hrest : rest.head? ≠ some '\n') :
    ∃ taken : List TextUnit, TextUnit.ofChars text = taken ++ TextUnit.ofChars rest ∧
      ∀ u ∈ taken, isBlank u.lead = true := by
  induction h with
  | none text => exact ⟨[], rfl, by simp⟩
  | @cons c text rest blank _ ih =>
    obtain ⟨taken, htext, hblank⟩ := ih hrest
    rw [TextUnit.ofChars_cons]
    rcases TextUnit.cons_cases c (TextUnit.ofChars text) with h | ⟨rfl, tail, htail, h⟩
    · refine ⟨.char c :: taken, by rw [h, htext]; rfl, ?_⟩
      rintro u (_ | ⟨_, hu⟩)
      · exact blank
      · exact hblank u hu
    · -- the line feed of the pair is among the units already found
      rw [h]
      cases taken with
      | nil =>
        rw [htail, List.nil_append] at htext
        exact absurd (TextUnit.head?_ofChars_eq_lf (by rw [← htext]; rfl)) hrest
      | cons u taken =>
        rw [htail] at htext
        obtain ⟨-, htext⟩ := List.cons.inj htext
        refine ⟨.crlf :: taken, by rw [htext]; rfl, ?_⟩
        rintro u' (_ | ⟨_, hu⟩)
        · exact blank
        · exact hblank u' (List.mem_cons_of_mem _ hu)

theorem after?_of_blank {taken : List TextUnit} (h : ∀ u ∈ taken, isBlank u.lead = true)
    (progress : Progress) :
    (State.between progress).after? limit taken = some (.between progress) := by
  induction taken with
  | nil => rfl
  | cons u taken ih =>
    have hstep : step limit (.between progress) u = .go (.between progress) :=
      continues_of_isBlank (h u List.mem_cons_self) progress
    rw [State.after?_cons_of_go hstep]
    exact ih fun u' hu => h u' (List.mem_cons_of_mem _ hu)

/-- **Blanks between tokens lead nowhere.** -/
theorem reaches_of_blanks {text rest : List Char} (h : Grammar.Blanks text rest)
    (hrest : rest.head? ≠ some '\n') (progress : Progress) :
    Reaches limit (.between progress) (TextUnit.ofChars text) (.between progress)
      (TextUnit.ofChars rest) := by
  obtain ⟨taken, htext, hblank⟩ := exists_blank_units h hrest
  rw [htext]
  exact Reaches.of_after (after?_of_blank hblank progress) _

end Reader

end SExpr
