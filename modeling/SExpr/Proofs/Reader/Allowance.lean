import SExpr.Proofs.Reader.Image

/-!
# The allowance as a counter

A reader tests its limit against the number of forms that are open.  It could as well keep a counter
of 32 bits: opening a form takes one from it, unless it is at zero, and completing a form gives one
back.  Here that counter is kept beside a run.  At every place of the run, the counter and the open
forms make up the limit together; so it is never above what it was at first, it is at zero exactly
where no form can be opened, and a failure leaves it short of the forms that are open there.

## What is here

* `Transfer`, `Tally` — what is asked of a counter, and the values that it comes by.
* `State.transfers`, `State.transfersAtEnd`, `Reader.transfers` — what a unit, the end of the text
  and a call ask, in order.
* `Balances` — transfers lead to where the counter and the open forms make up the limit: for one
  step (`balances_step`), at every place of a run (`exists_granted`) and at its end
  (`balances_run`).
* `Reader.Accounted` — a call and the counter, for all calls (`calls_accounted`).
-/

set_option autoImplicit false

namespace SExpr
namespace Reader

open Grammar

/-! ## Counters -/

/-- What is asked of a counter. -/
inductive Transfer where
  /-- One more form is to be opened. -/
  | take
  /-- A form is complete. -/
  | giveBack
  deriving DecidableEq

/-- `Tally bound fuel transfers refused fuel'`: the transfers lead a counter from `fuel` to `fuel'`,
and it is nowhere above the bound.  Zero refuses to be taken from; that ends the transfers. -/
inductive Tally (bound : UInt32) : UInt32 → List Transfer → Bool → UInt32 → Prop where
  | done {fuel : UInt32} (le : fuel ≤ bound) : Tally bound fuel [] false fuel
  | refuse : Tally bound 0 [.take] true 0
  | take {fuel fuel' : UInt32} {transfers : List Transfer} {refused : Bool}
    (ne_zero : fuel ≠ 0) (le : fuel ≤ bound) :
    Tally bound (fuel - 1) transfers refused fuel' →
    Tally bound fuel (.take :: transfers) refused fuel'
  | giveBack {fuel fuel' : UInt32} {transfers : List Transfer} {refused : Bool}
    (lt : fuel < bound) :
    Tally bound (fuel + 1) transfers refused fuel' →
    Tally bound fuel (.giveBack :: transfers) refused fuel'

variable {bound fuel mid fuel' : UInt32} {limit : Nat}

/-- Transfers that are all granted may be followed by others. -/
theorem Tally.append {first second : List Transfer} {refused : Bool}
    (h : Tally bound fuel first false mid) (h' : Tally bound mid second refused fuel') :
    Tally bound fuel (first ++ second) refused fuel' := by
  generalize hgranted : false = granted at h
  induction h with
  | done => exact h'
  | refuse => cases hgranted
  | take ne_zero le _ ih => exact .take ne_zero le (ih h' hgranted)
  | giveBack lt _ ih => exact .giveBack lt (ih h' hgranted)

/-- Only zero refuses. -/
theorem Tally.eq_zero {transfers : List Transfer} (h : Tally bound fuel transfers true fuel') :
    fuel' = 0 := by
  generalize hrefused : true = refused at h
  induction h with
  | done => cases hrefused
  | refuse => rfl
  | take _ _ _ ih | giveBack _ _ ih => exact ih hrefused

/-- Below its bound, a counter does not overflow. -/
theorem toNat_add_one_of_lt (h : fuel < bound) : (fuel + 1).toNat = fuel.toNat + 1 := by
  have hlt := UInt32.lt_iff_toNat_lt.1 h
  have hbound := bound.toNat_lt
  rw [UInt32.toNat_add, UInt32.toNat_one, Nat.mod_eq_of_lt (by omega)]

theorem toNat_sub_one_of_ne_zero (h : fuel ≠ 0) : (fuel - 1).toNat + 1 = fuel.toNat := by
  have hpos : fuel.toNat ≠ 0 := fun hzero => h (UInt32.toNat_inj.1 hzero)
  have hle : (1 : UInt32) ≤ fuel := UInt32.le_iff_toNat_le.2 (Nat.one_le_iff_ne_zero.2 hpos)
  rw [UInt32.toNat_sub_of_le _ _ hle, UInt32.toNat_one]
  omega

/-- A number up to the bound fits into a counter. -/
theorem toNat_ofNat_of_le {n : Nat} (h : n ≤ bound.toNat) : (UInt32.ofNat n).toNat = n :=
  UInt32.toNat_ofNat_of_lt' (Nat.lt_of_le_of_lt h bound.toNat_lt)

/-! ## What is asked -/

theorem opens_eq_false_of_isBlank {c : Char} (h : isBlank c = true) : opens c = false := by
  rw [Bool.eq_false_iff]
  intro hopens
  rcases opens_iff.1 hopens with rfl | rfl | rfl | rfl <;> exact absurd h (by decide)

theorem opens_eq_false_of_endsAtom {c : Char} (h : endsAtom c = false) : opens c = false := by
  rw [Bool.eq_false_iff]
  intro hopens
  rcases opens_iff.1 hopens with rfl | rfl | rfl | rfl <;> exact absurd h (by decide)

/-- A finished value completes the marks that wait for it. -/
def completions : List Frame → List Transfer
  | .quoted _ :: outer => .giveBack :: completions outer
  | _ => []

/-- A closing parenthesis completes a list, and so the marks that wait for it. -/
def closings : List Frame → List Transfer
  | .list _ :: outer => .giveBack :: completions outer
  | _ => []

/-- What a unit asks between two tokens. -/
def Progress.transfers (u : TextUnit) : Progress → List Transfer
  | .within stack => if opens u.lead then [.take] else if u.lead = ')' then closings stack else []
  | .complete _ => []

/-- What a unit asks.  Behind an atom it first completes the marks that wait for the atom. -/
def State.transfers (state : State) (u : TextUnit) : List Transfer :=
  match state with
  | .between progress => progress.transfers u
  | .comma stack => (Progress.within (.quoted .unquote :: stack)).transfers u
  | .atom text stack =>
    if u.lead = '\\' then []
    else if endsAtom u.lead then completions stack ++ (deliver (.atom text) stack).transfers u
    else []
  | .string _ stack => if u.lead = '"' then completions stack else []
  | .atomEscape _ _ | .stringEscape _ _ => []

/-- What the end of the text asks. -/
def State.transfersAtEnd : State → List Transfer
  | .atom _ stack => completions stack
  | .atomEscape text stack => if text.isEmpty then [] else completions stack
  | _ => []

/-- What a run asks.  The unit in front of which it ends is the last one to ask. -/
def runTransfers (limit : Nat) : State → List TextUnit → List Transfer
  | state, [] => state.transfersAtEnd
  | state, u :: us =>
    match step limit state u with
    | .go next => state.transfers u ++ runTransfers limit next us
    | .stop _ => state.transfers u

/-- What the next call asks. -/
def transfers (r : Reader) : List Transfer :=
  runTransfers r.allowance .start r.cursor.rest

/-! ## What is left open -/

/-- The forms that a run leaves open. -/
def Outcome.openForms : Outcome → Nat
  | .value _ | .nothing => 0
  | .failed _ openForms => openForms

/-- Does a run end because a form could not be opened? -/
def Outcome.refused : Outcome → Bool
  | .failed .nestingTooDeep _ => true
  | _ => false

/-- The forms that are open behind a step. -/
def Step.openForms : Step → Nat
  | .go next => next.stack.length
  | .stop outcome => outcome.openForms

/-- Is a form not opened? -/
def Step.refused : Step → Bool
  | .go _ => false
  | .stop outcome => outcome.refused

@[simp] theorem openForms_noForm (seen : Option Char) (stack : List Frame) :
    (noForm seen stack).openForms = stack.length := by
  unfold noForm
  split <;> rfl

@[simp] theorem refused_noForm (seen : Option Char) (stack : List Frame) :
    (noForm seen stack).refused = false := by
  unfold noForm
  split <;> rfl

theorem Outcome.openForms_finish (progress : Progress) :
    progress.finish.openForms = (State.between progress).stack.length := by
  cases progress with
  | within stack => exact openForms_noForm none stack
  | complete v => rfl

theorem Outcome.refused_finish (progress : Progress) : progress.finish.refused = false := by
  cases progress with
  | within stack => exact refused_noForm none stack
  | complete v => rfl

/-! ## One step -/

/-- The transfers lead the counter to where it makes up the limit with so many open forms. -/
def Balances (bound fuel : UInt32) (limit : Nat) (transfers : List Transfer) (refused : Bool)
    (openForms : Nat) : Prop :=
  ∃ fuel', Tally bound fuel transfers refused fuel' ∧ fuel'.toNat + openForms = limit

/-- Behind transfers that are granted, others start from the new balance. -/
theorem balances_append {first second : List Transfer} {refused : Bool} {openForms openForms' : Nat}
    (h : Balances bound fuel limit first false openForms)
    (hnext : ∀ next : UInt32, next.toNat + openForms = limit →
      Balances bound next limit second refused openForms') :
    Balances bound fuel limit (first ++ second) refused openForms' := by
  obtain ⟨mid, hfirst, hmid⟩ := h
  obtain ⟨fuel', hsecond, hsum⟩ := hnext mid hmid
  exact ⟨fuel', hfirst.append hsecond, hsum⟩

section

variable {stack : List Frame} (hlimit : limit ≤ bound.toNat)

include hlimit

/-- Nothing is asked where no form is opened or completed. -/
theorem balances_nil {openForms : Nat} (h : fuel.toNat + openForms = limit) :
    Balances bound fuel limit [] false openForms :=
  ⟨fuel, .done (UInt32.le_iff_toNat_le.2 (by omega)), h⟩

theorem balances_giveBack {transfers : List Transfer} {refused : Bool} {openForms openForms' : Nat}
    (h : fuel.toNat + (openForms + 1) = limit)
    (hnext : ∀ next : UInt32, next.toNat + openForms = limit →
      Balances bound next limit transfers refused openForms') :
    Balances bound fuel limit (.giveBack :: transfers) refused openForms' := by
  have hlt : fuel < bound := UInt32.lt_iff_toNat_lt.2 (by omega)
  obtain ⟨fuel', htally, hsum⟩ := hnext (fuel + 1) (by rw [toNat_add_one_of_lt hlt]; omega)
  exact ⟨fuel', .giveBack hlt htally, hsum⟩

/-- **A finished value** gives back what the marks that wait for it have taken. -/
theorem balances_completions (v : Value) (h : fuel.toNat + stack.length = limit) :
    Balances bound fuel limit (completions stack) false
      (State.between (deliver v stack)).stack.length := by
  induction stack generalizing v fuel with
  | nil => exact balances_nil hlimit h
  | cons frame outer ih =>
    cases frame with
    | list items => exact balances_nil hlimit h
    | quoted kind => exact balances_giveBack hlimit h fun next hnext => ih (.quoted kind v) hnext

/-- **A form is opened** unless the counter is at zero. -/
theorem balances_enter {next : State} (h : fuel.toNat + stack.length = limit)
    (hnext : next.stack.length = stack.length + 1) :
    Balances bound fuel limit [.take] (enter limit stack next).refused
      (enter limit stack next).openForms := by
  by_cases hzero : fuel = 0
  · subst hzero
    rw [UInt32.toNat_zero, Nat.zero_add] at h
    rw [enter_of_eq h]
    exact ⟨0, .refuse, Nat.zero_add limit⟩
  · have hfuel := toNat_sub_one_of_ne_zero hzero
    rw [enter_of_lt (by omega)]
    refine ⟨fuel - 1, .take hzero (UInt32.le_iff_toNat_le.2 (by omega)) (.done ?_), ?_⟩
    · exact UInt32.le_iff_toNat_le.2 (by omega)
    · rw [Step.openForms, hnext]
      omega

/-- A unit where a form can begin. -/
theorem balances_begins (h : fuel.toNat + stack.length = limit) (u : TextUnit) :
    Balances bound fuel limit ((Progress.within stack).transfers u)
      (begins limit stack u).refused (begins limit stack u).openForms := by
  have hquiet : opens u.lead = false → u.lead ≠ ')' →
      Balances bound fuel limit ((Progress.within stack).transfers u) false stack.length := by
    intro hopens hclose
    rw [Progress.transfers, hopens, if_neg Bool.false_ne_true, if_neg hclose]
    exact balances_nil hlimit h
  rcases u.unit_cases with hu | rfl | rfl | rfl | rfl | rfl | rfl | rfl | hu
  · rw [begins_of_isBlank hu]
    exact hquiet (opens_eq_false_of_isBlank hu) (ne_of_isBlank hu (by decide))
  · exact balances_enter hlimit h rfl
  · match stack, h with
    | [], h | .quoted kind :: outer, h => exact balances_nil hlimit h
    | .list items :: outer, h =>
      exact balances_giveBack hlimit h fun next hnext => balances_completions hlimit _ hnext
  · exact hquiet rfl (by decide)
  · exact hquiet rfl (by decide)
  · exact balances_enter hlimit h rfl
  · exact balances_enter hlimit h rfl
  · exact balances_enter hlimit h rfl
  · rw [begins_of_endsAtom hu]
    exact hquiet (opens_eq_false_of_endsAtom hu) (ne_of_endsAtom hu (by decide))

/-- A unit between two tokens. -/
theorem balances_continues {progress : Progress}
    (h : fuel.toNat + (State.between progress).stack.length = limit) (u : TextUnit) :
    Balances bound fuel limit (progress.transfers u) (continues limit progress u).refused
      (continues limit progress u).openForms := by
  cases progress with
  | within stack => exact balances_begins hlimit h u
  | complete v =>
    rw [continues]
    split <;> exact balances_nil hlimit h

/-- **What a step asks** leads the counter from one balance to the next. -/
theorem balances_step {state : State} (h : fuel.toNat + state.stack.length = limit) (u : TextUnit) :
    Balances bound fuel limit (state.transfers u) (step limit state u).refused
      (step limit state u).openForms := by
  cases state with
  | between progress => exact balances_continues hlimit h u
  | comma stack =>
    by_cases hat : u.lead = '@'
    · obtain rfl := TextUnit.eq_char_of_lead hat (by decide)
      exact balances_nil hlimit h
    · rw [step, if_neg hat]
      exact balances_begins hlimit h u
  | atom text stack =>
    rw [step, State.transfers]
    split
    · exact balances_nil hlimit h
    · split
      · exact balances_append (balances_completions hlimit _ h) fun next hnext =>
          balances_continues hlimit hnext u
      · exact balances_nil hlimit h
  | string text stack =>
    rw [step, State.transfers]
    split
    · exact balances_completions hlimit _ h
    · split <;> exact balances_nil hlimit h
  | atomEscape text stack | stringEscape text stack => exact balances_nil hlimit h

/-! ## Whole runs -/

/-- An atom at the end of the text is complete. -/
theorem balances_atom_finish (text : String) (h : fuel.toNat + stack.length = limit) :
    Balances bound fuel limit (completions stack) (deliver (.atom text) stack).finish.refused
      (deliver (.atom text) stack).finish.openForms := by
  rw [Outcome.refused_finish, Outcome.openForms_finish]
  exact balances_completions hlimit _ h

/-- **What the end of the text asks.** -/
theorem balances_finish {state : State} (h : fuel.toNat + state.stack.length = limit) :
    Balances bound fuel limit state.transfersAtEnd (finish state).refused
      (finish state).openForms := by
  cases state with
  | between progress =>
    rw [finish, Outcome.refused_finish, Outcome.openForms_finish]
    exact balances_nil hlimit h
  | comma stack => exact balances_nil hlimit h
  | atom text stack => exact balances_atom_finish hlimit text h
  | atomEscape text stack =>
    rw [finish, State.transfersAtEnd]
    split
    · rw [refused_noForm, openForms_noForm]
      exact balances_nil hlimit h
    · exact balances_atom_finish hlimit text h
  | string text stack | stringEscape text stack => exact balances_nil hlimit h

/-- **At every place of a run** the counter and the open forms make up the limit. -/
theorem exists_granted {state last : State} {taken : List TextUnit}
    (hlast : state.after? limit taken = some last) (h : fuel.toNat + state.stack.length = limit)
    (rest : List TextUnit) :
    ∃ granted, runTransfers limit state (taken ++ rest) = granted ++ runTransfers limit last rest ∧
      Balances bound fuel limit granted false last.stack.length := by
  induction taken generalizing state fuel with
  | nil =>
    obtain rfl := Option.some.inj hlast
    exact ⟨[], rfl, balances_nil hlimit h⟩
  | cons u us ih =>
    have hstep := balances_step hlimit h u
    cases hs : step limit state u with
    | go next =>
      rw [State.after?_cons_of_go hs] at hlast
      rw [hs] at hstep
      obtain ⟨mid, hfirst, hmid⟩ := hstep
      obtain ⟨granted, htransfers, fuel', hgranted, hsum⟩ := ih hlast hmid
      refine ⟨state.transfers u ++ granted, ?_, fuel', hfirst.append hgranted, hsum⟩
      rw [List.cons_append, runTransfers, hs, List.append_assoc, ← htransfers]
    | stop outcome => simp [State.after?, hs] at hlast

/-- **What a run asks** leads the counter to where it is short of the forms that stay open. -/
theorem balances_run {state : State} (h : fuel.toNat + state.stack.length = limit)
    (pos : Position) (us : List TextUnit) :
    Balances bound fuel limit (runTransfers limit state us) (run limit state pos us).1.refused
      (run limit state pos us).1.openForms := by
  obtain ⟨taken, last, hlast, htext, -, hend⟩ := exists_after_of_run limit state pos us
  obtain ⟨granted, htransfers, hgranted⟩ :=
    exists_granted hlimit hlast h (run limit state pos us).2.rest
  rw [htext] at htransfers
  rw [htransfers]
  refine balances_append hgranted fun fuel hfuel => ?_
  rcases hend with ⟨hrest, hfinish⟩ | ⟨u, rest, hrest, hstop⟩
  · rw [hrest, hfinish]
    exact balances_finish hlimit hfuel
  · have hstep := balances_step hlimit hfuel u
    rw [hstop] at hstep
    rw [hrest, runTransfers, hstop]
    exact hstep

end

/-! ## Calls -/

/-- What a call gives is decided by how its run ends. -/
theorem next_eq_give (r : Reader) : r.next =
    (run r.allowance .start r.cursor.pos r.cursor.rest).1.give r
      (run r.allowance .start r.cursor.pos r.cursor.rest).2 := by
  rw [Reader.next]
  rcases run r.allowance .start r.cursor.pos r.cursor.rest with ⟨outcome, cursor⟩
  cases outcome <;> rfl

theorem Outcome.allowance_give (r : Reader) (cursor : Cursor) (outcome : Outcome) :
    (outcome.give r cursor).2.allowance = r.allowance - outcome.openForms := by
  cases outcome <;> rfl

theorem Outcome.refused_iff_give (r : Reader) (cursor : Cursor) (outcome : Outcome) :
    outcome.refused = true ↔ ∃ pos, (outcome.give r cursor).1 = .error ⟨.nestingTooDeep, pos⟩ := by
  cases outcome with
  | failed cause openForms => cases cause <;> simp [Outcome.refused, Outcome.give]
  | value v | nothing => simp [Outcome.refused, Outcome.give]

/-- A call and a counter of the forms that may still be opened. -/
structure Accounted (r : Reader) (text : String) (bound : UInt32) : Prop where
  /-- The allowance fits into the counter. -/
  le_bound : r.allowance ≤ bound.toNat
  /-- What the call asks leads the counter from the allowance in front of the call to the one behind
  it.  A form is refused if and only if the call says that one is nested too deep. -/
  tally : ∃ refused, Tally bound (.ofNat r.allowance) r.transfers refused (.ofNat r.next.2.allowance) ∧
    (refused = true ↔ ∃ pos, r.next.1 = .error ⟨.nestingTooDeep, pos⟩)
  /-- At every place of the call, the counter and the open forms make up the allowance together. -/
  balanced : ∀ taken rest last, r.cursor.rest = taken ++ rest →
    State.start.after? r.allowance taken = some last →
    ∃ granted more fuel, r.transfers = granted ++ more ∧
      Tally bound (.ofNat r.allowance) granted false fuel ∧
      fuel.toNat + last.stack.length = r.allowance
  /-- A call that gives a value, or none, leaves the allowance as it was. -/
  kept : ∀ v?, r.next.1 = .ok v? → r.next.2.allowance = r.allowance
  /-- A call that fails leaves it short of the forms that this call has opened and not completed in
  front of the place of the error. -/
  lost : ∀ e, r.next.1 = .error e → e.pos = r.next.2.cursor.pos ∧
    ∃ front mid back stack, r.StandsAt text front (mid ++ back) ∧
      r.next.2.StandsAt text (front ++ mid) back ∧ OpenAtEnd mid.toList stack ∧
      r.next.2.allowance + stack.length = r.allowance
  /-- Behind a form that is nested too deep nothing of it is left. -/
  spent : ∀ pos, r.next.1 = .error ⟨.nestingTooDeep, pos⟩ → r.next.2.allowance = 0

/-- In front of a call no form is open. -/
theorem toNat_ofNat_add_start {r : Reader} (h : r.allowance ≤ bound.toNat) :
    (UInt32.ofNat r.allowance).toNat + State.start.stack.length = r.allowance :=
  toNat_ofNat_of_le h

/-- The counter beside a call. -/
theorem exists_tally {r : Reader} (h : r.allowance ≤ bound.toNat) :
    ∃ refused, Tally bound (.ofNat r.allowance) r.transfers refused (.ofNat r.next.2.allowance) ∧
      (refused = true ↔ ∃ pos, r.next.1 = .error ⟨.nestingTooDeep, pos⟩) := by
  obtain ⟨fuel', htally, hsum⟩ :=
    balances_run h (toNat_ofNat_add_start h) r.cursor.pos r.cursor.rest
  rw [next_eq_give, Outcome.allowance_give, Nat.sub_eq_of_eq_add hsum.symm, UInt32.ofNat_toNat]
  exact ⟨_, htally, Outcome.refused_iff_give r _ _⟩

/-- An error of the first call of some is the one by which the reader is finished. -/
theorem StandsAt.broken_of_error {text front back : String} {r : Reader}
    (hr : r.StandsAt text front back) {e : SyntaxError} (h : r.given 0 = .error e) :
    r.Broken text 0 e := by
  obtain ⟨n, hfinishes⟩ := exists_finishes hr
  cases n with
  | zero =>
    rcases hfinishes.ends with hend | ⟨e', hend⟩
    · have hnothing := hend.nothing 0 (Nat.le_refl 0)
      rw [h] at hnothing
      cases hnothing
    · have herror := hend.error
      rw [h] at herror
      obtain rfl := Except.error.inj herror
      exact hend
  | succ n =>
    obtain ⟨v, hvalue, -⟩ := hfinishes.values 0 (Nat.succ_pos n)
    rw [h] at hvalue
    cases hvalue

theorem StandsAt.accounted {text front back : String} {r : Reader}
    (hr : r.StandsAt text front back) (hbound : r.allowance ≤ bound.toNat) :
    r.Accounted text bound where
  le_bound := hbound
  tally := exists_tally hbound
  balanced taken rest last hrest hlast := by
    obtain ⟨granted, htransfers, fuel, hgranted, hsum⟩ :=
      exists_granted hbound hlast (toNat_ofNat_add_start hbound) rest
    exact ⟨granted, _, fuel, by rw [transfers, hrest, htransfers], hgranted, hsum⟩
  kept v? h := by
    rw [next_eq_give] at h ⊢
    generalize (run r.allowance .start r.cursor.pos r.cursor.rest).1 = outcome at h ⊢
    cases outcome with
    | value v | nothing => rfl
    | failed cause openForms => cases h
  lost e h := ⟨(hr.broken_of_error h).pos_eq, (hr.broken_of_error h).lost⟩
  spent pos h := by
    obtain ⟨refused, htally, hrefused⟩ := exists_tally hbound
    obtain rfl := hrefused.2 ⟨pos, h⟩
    have hnext := toNat_ofNat_of_le (Nat.le_trans (allowance_next_le r) hbound)
    rw [← hnext, htally.eq_zero, UInt32.toNat_zero]

/-- **The allowance is a counter that is exact and does not overflow.**  However many calls have been
made before, and whether they failed or not: a call takes one from the counter for each form that it
opens and gives one back for each that it completes, which never leads above the limit or below zero.
At every place it is short of the forms that the call has open there.  So it is as before if the call
does not fail; if it does, the forms that stay open are lost; and it is at zero behind a form that is
nested too deep. -/
theorem calls_accounted (maxDepth : UInt32) (text : String) (n : Nat) :
    ((ofString ⟨maxDepth.toNat⟩ text).afterCalls n).Accounted text maxDepth := by
  obtain ⟨front, back, hstands⟩ := (standsAt_ofString ⟨maxDepth.toNat⟩ text).exists_afterCalls n
  exact hstands.accounted (allowance_afterCalls_le _ n)

/-- The parenthesis behind `a` completes a list and its mark.  The last form is refused. -/
example : (ofString ⟨3⟩ "('(a) ''(b))").transfers =
    [.take, .take, .take, .giveBack, .giveBack, .take, .take, .take] := rfl

end Reader

end SExpr
