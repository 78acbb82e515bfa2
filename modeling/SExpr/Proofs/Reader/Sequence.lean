import SExpr.Proofs.Reader.Diagnosis

/-!
# One form after another

A reader is asked for one form after another.  As long as it gives values it moves on.  The first
call that gives none is the last one that moves it: from then on it stands where no form begins, or
in front of a form that its allowance does not let it open.  What failed forms have used of the
allowance is not given back.

## What is here

* `Reader.afterCalls`, `Reader.given` — a reader behind some calls, and what a call gives.
* `Reader.StandsAt` — the place of a reader in its text.
* `Halts.front_ne_of_value`, `Halts.exists_open_of_failed` — where a call ends, by its outcome.
* `next_of_ends`, `next_of_spent` — the readers that no call moves.
* `Finishes` — a call that is the last one to move a reader, with `Exhausted` and `Broken` for the
  two ways in which it is.
* `calls_finish` — every sequence of calls.
-/

set_option autoImplicit false

namespace SExpr
namespace Reader

open Grammar

/-! ## Calls -/

/-- The reader behind so many calls. -/
def afterCalls (r : Reader) : Nat → Reader
  | 0 => r
  | n + 1 => (r.afterCalls n).next.2

/-- What the call behind so many others gives. -/
def given (r : Reader) (n : Nat) : Except SyntaxError (Option Value) :=
  (r.afterCalls n).next.1

/-- The calls behind the first one. -/
theorem afterCalls_succ (r : Reader) (n : Nat) : r.afterCalls (n + 1) = r.next.2.afterCalls n := by
  induction n with
  | zero => rfl
  | succ n ih => rw [afterCalls, ih, afterCalls]

theorem given_succ (r : Reader) (n : Nat) : r.given (n + 1) = r.next.2.given n := by
  rw [given, afterCalls_succ, given]

theorem afterCalls_of_fixed {r : Reader} (h : r.next.2 = r) (n : Nat) : r.afterCalls n = r := by
  induction n with
  | zero => rfl
  | succ n ih => rw [afterCalls, ih, h]

/-- The reader stands at a place of the text, with `front` behind it and `back` ahead. -/
structure StandsAt (r : Reader) (text front back : String) : Prop where
  /-- What is ahead is cut into units. -/
  rest_eq : r.cursor.rest = TextUnit.ofString back
  /-- The position is that of the place. -/
  divides : r.cursor.pos.Divides text front back

theorem standsAt_ofString (limits : Limits) (text : String) :
    (ofString limits text).StandsAt text "" text :=
  ⟨rfl, String.empty_append, by simp, rfl⟩

variable {text front mid back behind : String} {limit : Nat} {last : State} {outcome : Outcome}
  {r : Reader}

theorem StandsAt.peek_eq (h : r.StandsAt text front back) : r.cursor.peek = back.toList.head? := by
  rw [Cursor.peek, h.rest_eq, TextUnit.ofString, TextUnit.map_lead_head?_ofChars]

/-! ## Where a call ends -/

theorem Halts.head?_cases (h : Halts limit text front back last outcome) :
    (back.toList.head? = none ∧ outcome = finish last) ∨
      ∃ u : TextUnit, back.toList.head? = some u.lead ∧ step limit last u = .stop outcome := by
  have hhead := TextUnit.map_lead_head?_ofChars back.toList
  rcases h.ends with ⟨hback, hfinish⟩ | ⟨u, us, hback, hstop⟩
  · rw [← TextUnit.ofString, hback] at hhead
    exact Or.inl ⟨hhead.symm, hfinish⟩
  · rw [← TextUnit.ofString, hback] at hhead
    exact Or.inr ⟨u, hhead.symm, hstop⟩

/-- A form takes at least one character. -/
theorem Halts.front_ne_of_value {v : Value} (h : Halts limit text front back last (.value v)) :
    front ≠ "" := by
  rintro rfl
  obtain rfl := Option.some.inj h.after
  rcases h.head?_cases with ⟨-, hfinish⟩ | ⟨u, -, hstop⟩
  · cases hfinish
  · exact begins_ne_value [] hstop

/-- No form is found at the end of the text, or in front of a parenthesis that closes none. -/
theorem Halts.head?_of_nothing (h : Halts limit text front back last .nothing) :
    back.toList.head? = none ∨ back.toList.head? = some ')' := by
  rcases h.head?_cases with ⟨hhead, -⟩ | ⟨u, hhead, hstop⟩
  · exact Or.inl hhead
  · rcases step_stop_cases hstop with ⟨stack, -, -, -, hdeep⟩ | ⟨stack, -, rfl, -⟩ | ⟨v, -, hvalue⟩
    · cases hdeep
    · exact Or.inr hhead
    · cases hvalue

/-- A call fails in front of a form that would be nested too deep, or where no form begins. -/
theorem Halts.head?_of_failed {cause : SyntaxError.Cause} {openForms : Nat}
    (h : Halts limit text front back last (.failed cause openForms)) :
    (cause = .nestingTooDeep ∧ limit ≤ openForms ∧
        ∃ c, back.toList.head? = some c ∧ opens c = true) ∨
      (cause ≠ .nestingTooDeep ∧ (back.toList.head? = none ∨ back.toList.head? = some ')')) := by
  rcases h.head?_cases with ⟨hhead, hfinish⟩ | ⟨u, hhead, hstop⟩
  · refine Or.inr ⟨?_, Or.inl hhead⟩
    rintro rfl
    exact finish_ne_nestingTooDeep last openForms hfinish.symm
  · rcases step_stop_cases hstop with
      ⟨stack, -, hopens, hfull, hdeep⟩ | ⟨stack, -, rfl, hclose⟩ | ⟨v, -, hvalue⟩
    · obtain ⟨rfl, rfl⟩ := Outcome.failed.inj hdeep
      exact Or.inl ⟨rfl, hfull, u.lead, hhead, hopens⟩
    · refine Or.inr ⟨?_, Or.inr hhead⟩
      rintro rfl
      exact noForm_ne_nestingTooDeep _ stack openForms hclose.symm
    · cases hvalue

/-- **A failure leaves the forms open that are open in front of its place**, and these are no more
than the limit allows. -/
theorem Halts.exists_open_of_failed {cause : SyntaxError.Cause} {openForms : Nat}
    (h : Halts limit text front back last (.failed cause openForms)) :
    ∃ stack, OpenAtEnd front.toList stack ∧ stack.length = openForms ∧ openForms ≤ limit := by
  obtain ⟨stack, hlength, hend⟩ := exists_atEnd h.after
  suffices hopen : stack.length = openForms from ⟨stack, hend.openAtEnd, hopen, hopen ▸ hlength⟩
  have hsame : ∀ {other : List Frame}, finish last = noForm none other →
      stack.length = other.length := by
    intro other hfinish
    rw [hfinish] at hend
    exact (noForm_none_eq hend.of_noForm.2).1
  rcases h.head?_cases with ⟨-, hfinish⟩ | ⟨u, -, hstop⟩
  · rw [← hfinish] at hend
    exact hend.of_failed
  · rcases step_stop_cases hstop with
      ⟨other, hfinish, -, -, hdeep⟩ | ⟨other, hfinish, -, hclose⟩ | ⟨v, -, hvalue⟩
    · exact (hsame hfinish).trans (Outcome.failed.inj hdeep).2.symm
    · exact (hsame hfinish).trans (length_eq_of_noForm hclose.symm)
    · cases hvalue

/-- **A form within the limit is read**, with the blanks around it and nothing else. -/
theorem exists_halts_of_form {spaced behind rest : List Char} {v : Value}
    (hblanks : Blanks text.toList spaced) (hform : Form spaced v behind)
    (hbehind : Blanks behind rest) (hrest : EndsBlanksAt rest) (hdepth : v.depth ≤ limit) :
    ∃ front last, Halts limit text front (String.ofList rest) last (.value v) := by
  obtain ⟨front, back, last, outcome, hhalts⟩ := exists_halts limit text
  obtain ⟨taken, -, hrun⟩ : Reaches limit .start (TextUnit.ofString text) (.between (.complete v))
      (TextUnit.ofChars rest) :=
    ((reaches_of_blanks hblanks (hform.head?_ne (by decide)) (.within [])).trans
      (reaches_of_form hform [] hdepth)).trans
      (reaches_of_blanks hbehind (hrest.head?_ne (by decide)) (.complete v))
  -- behind the blanks the run ends, because nothing else belongs to the form
  have hstop : ∀ pos, run limit (.between (.complete v)) pos (TextUnit.ofChars rest) =
      (.value v, ⟨TextUnit.ofChars rest, pos⟩) := by
    intro pos
    cases hunits : TextUnit.ofChars rest with
    | nil => rfl
    | cons u us =>
      have hlead := TextUnit.map_lead_head?_ofChars rest
      rw [hunits] at hlead
      refine run_cons_of_stop ?_ pos us
      simp [step, continues, hrest u.lead hlead.symm]
  have hends := run_of_halts hhalts
  rw [hrun, hstop] at hends
  obtain ⟨houtcome, hcursor⟩ := Prod.mk.inj hends
  obtain rfl := TextUnit.eq_ofList_of_ofString_eq (Cursor.mk.inj hcursor).1.symm
  exact ⟨front, last, houtcome ▸ hhalts⟩

/-! ## One call -/

/-- The result of a run as a call gives it, with the reader behind it. -/
def Outcome.give (r : Reader) (cursor : Cursor) :
    Outcome → Except SyntaxError (Option Value) × Reader
  | .value v => (.ok (some v), { r with cursor })
  | .nothing => (.ok none, { r with cursor })
  | .failed cause openForms => (.error ⟨cause, cursor.pos⟩, ⟨cursor, r.allowance - openForms⟩)

@[simp] theorem Outcome.cursor_give (r : Reader) (cursor : Cursor) (outcome : Outcome) :
    (outcome.give r cursor).2.cursor = cursor := by
  cases outcome <;> rfl

/-- **A call is a run over what is ahead.** -/
theorem next_of_halts (hrest : r.cursor.rest = TextUnit.ofString back)
    (h : Halts r.allowance back mid behind last outcome) :
    r.next = outcome.give r
      ⟨TextUnit.ofString behind, r.cursor.pos.advanceAll (TextUnit.ofString mid)⟩ := by
  rw [next, hrest, h.run_eq]
  cases outcome <;> rfl

theorem StandsAt.next_eq (hr : r.StandsAt text front back)
    (h : Halts r.allowance back mid behind last outcome) :
    r.next = outcome.give r ⟨TextUnit.ofString behind, .behind (front ++ mid)⟩ := by
  rw [next_of_halts hr.rest_eq h, (hr.divides.trans h.divides).1]

theorem StandsAt.next (hr : r.StandsAt text front back)
    (h : Halts r.allowance back mid behind last outcome) :
    r.next.2.StandsAt text (front ++ mid) behind := by
  have hdivides := (hr.divides.trans h.divides).2
  rw [hr.next_eq h]
  cases outcome <;> exact ⟨rfl, hdivides⟩

/-- Where no form begins, a call gives none and moves nothing. -/
theorem next_of_ends (h : r.cursor.peek = none ∨ r.cursor.peek = some ')') :
    r.next = (.ok none, r) := by
  obtain ⟨⟨rest, pos⟩, allowance⟩ := r
  cases rest with
  | nil => rfl
  | cons u us =>
    rw [Cursor.peek_cons] at h
    rcases h with h | h
    · cases h
    · obtain rfl := TextUnit.eq_char_of_lead (Option.some.inj h) (by decide)
      rfl

/-- With nothing left of the allowance, a call that has to open a form fails and moves nothing. -/
theorem next_of_spent (hspent : r.allowance = 0) {c : Char} (hc : r.cursor.peek = some c)
    (hopens : opens c = true) : r.next = (.error ⟨.nestingTooDeep, r.cursor.pos⟩, r) := by
  obtain ⟨⟨rest, pos⟩, allowance⟩ := r
  obtain rfl : allowance = 0 := hspent
  cases rest with
  | nil => cases hc
  | cons u us =>
    obtain rfl := Option.some.inj hc
    have hstop : step 0 .start u = .stop (.failed .nestingTooDeep 0) := begins_of_opens hopens rfl
    rw [Reader.next, run_cons_of_stop hstop]
    rfl

/-! ## All calls -/

/-- From this call on, no other form is found. -/
structure Exhausted (r : Reader) (n : Nat) : Prop where
  /-- This call and all later ones give none. -/
  nothing : ∀ m, n ≤ m → r.given m = .ok none
  /-- The reader stands at the end, or at a parenthesis that closes nothing. -/
  place : (r.afterCalls (n + 1)).cursor.peek = none ∨
    (r.afterCalls (n + 1)).cursor.peek = some ')'
  /-- Nothing of the allowance is used up. -/
  allowance_eq : (r.afterCalls (n + 1)).allowance = r.allowance

/-- This call fails, and no later one gives a form. -/
structure Broken (r : Reader) (text : String) (n : Nat) (e : SyntaxError) : Prop where
  /-- The call gives the error. -/
  error : r.given n = .error e
  /-- The reader stands at its place. -/
  pos_eq : e.pos = (r.afterCalls (n + 1)).cursor.pos
  /-- A form that is nested too deep stays so. -/
  again : e.cause = .nestingTooDeep → ∀ m, n < m → r.given m = .error e
  /-- Behind any other error there is nothing. -/
  nothing : e.cause ≠ .nestingTooDeep → ∀ m, n < m → r.given m = .ok none
  /-- What the forms use that this call has opened and not completed is not given back. -/
  lost : ∃ front mid back stack, (r.afterCalls n).StandsAt text front (mid ++ back) ∧
    (r.afterCalls (n + 1)).StandsAt text (front ++ mid) back ∧ OpenAtEnd mid.toList stack ∧
    (r.afterCalls (n + 1)).allowance + stack.length = r.allowance

/-- The calls up to this one, and what becomes of the reader. -/
structure Finishes (r : Reader) (text : String) (n : Nat) : Prop where
  /-- All calls in front of it give values and move the reader on. -/
  values : ∀ i, i < n → ∃ v, r.given i = .ok (some v) ∧
    (r.afterCalls i).cursor.pos.offset < (r.afterCalls (i + 1)).cursor.pos.offset
  /-- No call behind it changes the reader. -/
  fixed : ∀ m, n < m → r.afterCalls m = r.afterCalls (n + 1)
  /-- It finds nothing, or fails. -/
  ends : r.Exhausted n ∨ ∃ e, r.Broken text n e

theorem Exhausted.succ {n : Nat} (h : r.next.2.Exhausted n)
    (hallowance : r.next.2.allowance = r.allowance) : r.Exhausted (n + 1) := by
  refine ⟨fun m hm => ?_, ?_, ?_⟩
  · obtain ⟨k, rfl⟩ : ∃ k, m = k + 1 := ⟨m - 1, by omega⟩
    rw [given_succ]
    exact h.nothing k (by omega)
  · rw [afterCalls_succ]
    exact h.place
  · rw [afterCalls_succ, h.allowance_eq, hallowance]

theorem Broken.succ {n : Nat} {e : SyntaxError} (h : r.next.2.Broken text n e)
    (hallowance : r.next.2.allowance = r.allowance) : r.Broken text (n + 1) e := by
  have hlater : ∀ {result}, (∀ m, n < m → r.next.2.given m = result) →
      ∀ m, n + 1 < m → r.given m = result := by
    intro result hresult m hm
    obtain ⟨k, rfl⟩ : ∃ k, m = k + 1 := ⟨m - 1, by omega⟩
    rw [given_succ]
    exact hresult k (by omega)
  refine ⟨?_, ?_, fun hdeep => hlater (h.again hdeep), fun hcause => hlater (h.nothing hcause), ?_⟩
  · rw [given_succ, h.error]
  · rw [afterCalls_succ, h.pos_eq]
  · rw [afterCalls_succ, afterCalls_succ, ← hallowance]
    exact h.lost

/-- **A call that gives a value is followed by the calls of the reader behind it.** -/
theorem Finishes.succ {n : Nat} {v : Value} (h : r.next.2.Finishes text n)
    (hvalue : r.given 0 = .ok (some v))
    (hoffset : r.cursor.pos.offset < r.next.2.cursor.pos.offset)
    (hallowance : r.next.2.allowance = r.allowance) : r.Finishes text (n + 1) := by
  refine ⟨fun i hi => ?_, fun m hm => ?_, ?_⟩
  · cases i with
    | zero => exact ⟨v, hvalue, hoffset⟩
    | succ i =>
      rw [given_succ, afterCalls_succ, afterCalls_succ]
      exact h.values i (by omega)
  · obtain ⟨k, rfl⟩ : ∃ k, m = k + 1 := ⟨m - 1, by omega⟩
    rw [afterCalls_succ, afterCalls_succ]
    exact h.fixed k (by omega)
  · rcases h.ends with hend | ⟨e, hend⟩
    · exact Or.inl (hend.succ hallowance)
    · exact Or.inr ⟨e, hend.succ hallowance⟩

/-- Behind a reader that no call moves, every call is like the next one. -/
theorem given_of_fixed {result : Except SyntaxError (Option Value)}
    (h : r.next.2.next = (result, r.next.2)) {m : Nat} (hm : 0 < m) :
    r.afterCalls m = r.next.2 ∧ r.given m = result := by
  obtain ⟨k, rfl⟩ : ∃ k, m = k + 1 := ⟨m - 1, by omega⟩
  rw [given_succ, given, afterCalls_succ, afterCalls_of_fixed (by rw [h]), h]
  exact ⟨rfl, rfl⟩

/-- The first call finishes the reader, if no call moves it any more and this one ends as it has to. -/
theorem finishes_zero {result : Except SyntaxError (Option Value)}
    (h : r.next.2.next = (result, r.next.2))
    (hends : r.Exhausted 0 ∨ ∃ e, r.Broken text 0 e) : r.Finishes text 0 :=
  ⟨fun i hi => absurd hi (Nat.not_lt_zero i), fun _ hm => (given_of_fixed h hm).1, hends⟩

/-- A call that finds nothing is the last one to move the reader. -/
theorem StandsAt.finishes_of_nothing (hr : r.StandsAt text front back)
    (h : Halts r.allowance back mid behind last .nothing) : r.Finishes text 0 := by
  have hnext := hr.next_eq h
  have hends : r.next.2.cursor.peek = none ∨ r.next.2.cursor.peek = some ')' := by
    rw [(hr.next h).peek_eq]
    exact h.head?_of_nothing
  have hfixed := next_of_ends hends
  refine finishes_zero hfixed (Or.inl ⟨fun m _ => ?_, hends, by rw [afterCalls, afterCalls, hnext]; rfl⟩)
  cases m with
  | zero => rw [given, afterCalls, hnext]; rfl
  | succ m => exact (given_of_fixed hfixed (Nat.succ_pos m)).2

/-- A call that fails is the last one to move the reader. -/
theorem StandsAt.finishes_of_failed {cause : SyntaxError.Cause} {openForms : Nat}
    (hr : r.StandsAt text front back)
    (h : Halts r.allowance back mid behind last (.failed cause openForms)) : r.Finishes text 0 := by
  have hnext := hr.next_eq h
  have hstands := hr.next h
  have hallowance : r.next.2.allowance = r.allowance - openForms := by rw [hnext]; rfl
  have herror : r.given 0 = .error ⟨cause, r.next.2.cursor.pos⟩ := by
    rw [given, afterCalls, hnext]
    rfl
  obtain ⟨stack, hopen, hlength, hle⟩ := h.exists_open_of_failed
  have hlost : ∃ front mid back stack, (r.afterCalls 0).StandsAt text front (mid ++ back) ∧
      (r.afterCalls 1).StandsAt text (front ++ mid) back ∧ OpenAtEnd mid.toList stack ∧
      (r.afterCalls 1).allowance + stack.length = r.allowance := by
    refine ⟨front, mid, behind, stack, by rwa [h.divides.append_eq], hstands, hopen, ?_⟩
    rw [afterCalls, afterCalls, hallowance]
    omega
  rcases h.head?_of_failed with ⟨rfl, hfull, c, hc, hopens⟩ | ⟨hcause, hends⟩
  · have hspent : r.next.2.allowance = 0 := by omega
    have hfixed := next_of_spent hspent (hstands.peek_eq.trans hc) hopens
    exact finishes_zero hfixed (Or.inr ⟨_, herror, rfl, fun _ m hm => (given_of_fixed hfixed hm).2,
      fun hne => absurd rfl hne, hlost⟩)
  · have hfixed := next_of_ends (r := r.next.2) (by rwa [hstands.peek_eq])
    exact finishes_zero hfixed (Or.inr ⟨_, herror, rfl, fun hdeep => absurd hdeep hcause,
      fun _ m hm => (given_of_fixed hfixed hm).2, hlost⟩)

/-- What a call takes moves the reader on. -/
theorem StandsAt.offset_lt (hr : r.StandsAt text front back) {r' : Reader}
    (hr' : r'.StandsAt text (front ++ mid) behind) (hmid : mid ≠ "") :
    r.cursor.pos.offset < r'.cursor.pos.offset := by
  have hsize : mid.utf8ByteSize ≠ 0 := fun hzero => hmid (String.utf8ByteSize_eq_zero_iff.1 hzero)
  rw [hr.divides.offset_eq, hr'.divides.offset_eq, String.utf8ByteSize_append]
  omega

/-- The calls of a reader at any place of its text. -/
theorem exists_finishes {text front back : String} {r : Reader} (hr : r.StandsAt text front back) :
    ∃ n, r.Finishes text n := by
  obtain ⟨mid, behind, last, outcome, hhalts⟩ := exists_halts r.allowance back
  cases outcome with
  | value v =>
    have hmid := hhalts.front_ne_of_value
    have hnext := hr.next_eq hhalts
    have hshorter : behind.length < back.length := by
      have hpos : mid.length ≠ 0 := fun hzero => hmid (by simpa using hzero)
      rw [← hhalts.divides.append_eq, String.length_append]
      omega
    obtain ⟨n, hfinishes⟩ := exists_finishes (hr.next hhalts)
    exact ⟨n + 1, hfinishes.succ (by rw [given, afterCalls, hnext]; rfl)
      (hr.offset_lt (hr.next hhalts) hmid) (by rw [hnext]; rfl)⟩
  | nothing => exact ⟨0, hr.finishes_of_nothing hhalts⟩
  | failed cause openForms => exact ⟨0, hr.finishes_of_failed hhalts⟩
termination_by back.length

/-- **A reader is finished by the first call that gives no value.**  All calls in front of it give
values and move the reader on; no call behind it gives a value or changes the reader.  If it fails,
the forms that it has opened and not completed are lost from the allowance for good. -/
theorem calls_finish (limits : Limits) (text : String) :
    ∃ n, (ofString limits text).Finishes text n :=
  exists_finishes (standsAt_ofString limits text)

end Reader

end SExpr
