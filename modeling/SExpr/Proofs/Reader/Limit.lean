import SExpr.Proofs.Reader.Diagnosis

/-!
# The limit of nesting

A larger limit changes nothing about a reading, unless the reading failed for the limit.  Then the
larger limit takes it further, to the end or to a later place at which a form is nested too deep.

## What is here

* `step_eq_or_exceeds`, `run_eq_or_exceeds` — steps and runs under two limits.
* `exists_exceedsAt_of_run` — a run that fails for its limit is one over a text that exceeds it.
* `Grammar.NestedAt` — a form of some level of nesting begins at a place in a text.
* `parseWith_limits` — one text under all limits.
-/

set_option autoImplicit false

namespace SExpr

open Grammar

namespace Reader

variable {limit limit' : Nat}

/-! ## Two limits -/

theorem enter_eq_or_exceeds (h : limit ≤ limit') (stack : List Frame) (next : State) :
    enter limit' stack next = enter limit stack next ∨
      ∃ openForms, enter limit stack next = .stop (.failed .nestingTooDeep openForms) := by
  rw [enter, enter]
  by_cases hlt : stack.length < limit
  · rw [if_pos hlt, if_pos (Nat.lt_of_lt_of_le hlt h)]
    exact Or.inl rfl
  · rw [if_neg hlt]
    exact Or.inr ⟨stack.length, rfl⟩

theorem begins_eq_or_exceeds (h : limit ≤ limit') (stack : List Frame) (u : TextUnit) :
    begins limit' stack u = begins limit stack u ∨
      ∃ openForms, begins limit stack u = .stop (.failed .nestingTooDeep openForms) := by
  rcases u.unit_cases with hu | rfl | rfl | rfl | rfl | rfl | rfl | rfl | hu
  · exact Or.inl ((begins_of_isBlank hu).trans (begins_of_isBlank hu).symm)
  · exact enter_eq_or_exceeds h stack _
  · exact Or.inl rfl
  · exact Or.inl rfl
  · exact Or.inl rfl
  · exact enter_eq_or_exceeds h stack _
  · exact enter_eq_or_exceeds h stack _
  · exact enter_eq_or_exceeds h stack _
  · exact Or.inl ((begins_of_endsAtom hu).trans (begins_of_endsAtom hu).symm)

theorem continues_eq_or_exceeds (h : limit ≤ limit') (progress : Progress) (u : TextUnit) :
    continues limit' progress u = continues limit progress u ∨
      ∃ openForms, continues limit progress u = .stop (.failed .nestingTooDeep openForms) := by
  cases progress with
  | within stack => exact begins_eq_or_exceeds h stack u
  | complete v => exact Or.inl rfl

/-- **A step is the same under a larger limit**, unless it opens one form too many. -/
theorem step_eq_or_exceeds (h : limit ≤ limit') (state : State) (u : TextUnit) :
    step limit' state u = step limit state u ∨
      ∃ openForms, step limit state u = .stop (.failed .nestingTooDeep openForms) := by
  cases state with
  | between progress => exact continues_eq_or_exceeds h progress u
  | comma stack =>
    rw [step, step]
    split
    · exact Or.inl rfl
    · exact begins_eq_or_exceeds h _ u
  | atom text stack =>
    rw [step, step]
    split
    · exact Or.inl rfl
    · split
      · exact continues_eq_or_exceeds h _ u
      · exact Or.inl rfl
  | atomEscape | string | stringEscape => exact Or.inl rfl

/-- **A run is the same under a larger limit**, unless it fails for the smaller one. -/
theorem run_eq_or_exceeds (h : limit ≤ limit') (state : State) (pos : Position)
    (us : List TextUnit) :
    run limit' state pos us = run limit state pos us ∨
      ∃ openForms, (run limit state pos us).1 = .failed .nestingTooDeep openForms := by
  induction us generalizing state pos with
  | nil => exact Or.inl rfl
  | cons u us ih =>
    rcases step_eq_or_exceeds h state u with hsame | ⟨openForms, hstop⟩
    · cases hstep : step limit state u with
      | go next =>
        rw [run_cons_of_go hstep, run_cons_of_go (hsame.trans hstep)]
        exact ih next (pos.advance u)
      | stop outcome =>
        rw [run_cons_of_stop hstep, run_cons_of_stop (hsame.trans hstep)]
        exact Or.inl rfl
    · rw [run_cons_of_stop hstop]
      exact Or.inr ⟨openForms, rfl⟩

/-- What is given for the one form that is left depends on the run alone. -/
theorem last_eq_of_run_eq {r r' : Reader}
    (h : run r.allowance .start r.cursor.pos r.cursor.rest =
      run r'.allowance .start r'.cursor.pos r'.cursor.rest) : r.last = r'.last := by
  rw [last, last, next, next, h]
  rcases run r'.allowance .start r'.cursor.pos r'.cursor.rest with ⟨outcome, cursor⟩
  cases outcome <;> rfl

/-! ## Texts that exceed a limit -/

variable {text start start' : List Char} {stack stack' : List Frame}

/-- Behind a form, a run ends with that form. -/
theorem run_complete (v : Value) (pos : Position) (us : List TextUnit) :
    (run limit (.between (.complete v)) pos us).1 = .value v := by
  induction us generalizing pos with
  | nil => rfl
  | cons u us ih =>
    cases hblank : isBlank u.lead with
    | true =>
      have hstep : step limit (.between (.complete v)) u = .go (.between (.complete v)) :=
        step_of_isBlank hblank rfl
      rw [run_cons_of_go hstep, ih]
    | false =>
      have hstep : step limit (.between (.complete v)) u = .stop (.value v) := by
        simp only [step, continues, hblank]
        rfl
      rw [run_cons_of_stop hstep]

/-- Only a run that fails for its limit is reported as one. -/
theorem exists_failed_of_cause? {outcome : Outcome} {seen : Option Char}
    (h : outcome.cause? seen = some .nestingTooDeep) :
    ∃ openForms, outcome = .failed .nestingTooDeep openForms := by
  cases outcome with
  | value v => cases seen <;> cases h
  | nothing => cases seen <;> cases h
  | failed cause openForms =>
    obtain rfl := Option.some.inj h
    exact ⟨openForms, rfl⟩

theorem AtEnd.ne_nestingTooDeep {outcome : Outcome} (h : AtEnd text stack outcome)
    (openForms : Nat) : outcome ≠ .failed .nestingTooDeep openForms := by
  cases h with
  | value | string => simp
  | missing => exact noForm_ne_nestingTooDeep none stack openForms

/-- **A run that fails for its limit is one over a text that exceeds it.** -/
theorem exists_exceedsAt_of_run {pos : Position} {openForms : Nat}
    (h : (run limit .start pos (TextUnit.ofChars text)).1 = .failed .nestingTooDeep openForms) :
    ∃ stack start, ExceedsAt limit [] text stack start := by
  rcases exists_form_or_stuck text with ⟨spaced, v, rest, hblanks, hform⟩ | ⟨rest, hclose⟩ | hstuck
  · have hspaced := hform.head?_ne (c := '\n') (by decide)
    rcases Nat.lt_or_ge limit v.depth with hdeep | hdepth
    · obtain ⟨stack, start, hexceeds, -⟩ :=
        exists_exceedsAt_of_form hform [] (Nat.zero_le limit) hdeep
      exact ⟨stack, start, hexceeds.of_blanks hblanks hspaced⟩
    · obtain ⟨taken, -, hrun⟩ : Reaches limit .start _ _ _ :=
        (reaches_of_blanks hblanks hspaced (.within [])).trans (reaches_of_form hform [] hdepth)
      rw [hrun, deliver, run_complete] at h
      cases h
  · obtain ⟨taken, -, hrun⟩ : Reaches limit .start _ _ _ :=
      reaches_of_blanks hclose (by simp) (.within [])
    rw [hrun, TextUnit.ofChars_cons_of_ne (by decide),
      run_cons_of_stop (step_close_of_not_list (by simp))] at h
    cases h
  · obtain ⟨stack, tail, hleads, hstuck⟩ := hstuck []
    rcases reaches_or_exceeds_of_leads hleads (hstuck.endsBlanksAt.head?_ne (by decide))
        (Nat.zero_le limit) with ⟨-, taken, -, hrun⟩ | ⟨stack', start, hexceeds, -⟩
    · rw [State.start, hrun] at h
      cases hstuck with
      | fragment hfragment =>
        exact absurd h ((atEnd_of_fragment hleads hfragment _).ne_nestingTooDeep openForms)
      | close notList =>
        rw [TextUnit.ofChars_cons_of_ne (by decide),
          run_cons_of_stop (step_close_of_not_list notList)] at h
        exact absurd h (noForm_ne_nestingTooDeep _ stack openForms)
    · exact ⟨stack', start, hexceeds⟩

/-- The run over a text that exceeds the limit stops there. -/
theorem ExceedsAt.exists_run (h : ExceedsAt limit [] text stack start) :
    ∃ taken, TextUnit.ofChars text = taken ++ TextUnit.ofChars start ∧
      ∀ pos, run limit .start pos (TextUnit.ofChars text) =
        (.failed .nestingTooDeep limit, ⟨TextUnit.ofChars start, pos.advanceAll taken⟩) := by
  obtain ⟨taken, htaken, hrun⟩ := h.reaches
  obtain ⟨u, us, hunits, hstop⟩ := h.stop
  refine ⟨taken, htaken, fun pos => ?_⟩
  rw [State.start, hrun, hunits, run_cons_of_stop hstop]

/-- There is one place at which a text exceeds a limit. -/
theorem ExceedsAt.unique (h : ExceedsAt limit [] text stack start)
    (h' : ExceedsAt limit [] text stack' start') : start = start' := by
  obtain ⟨taken, -, hrun⟩ := h.exists_run
  obtain ⟨taken', -, hrun'⟩ := h'.exists_run
  have hrest := congrArg (fun result => TextUnit.toChars result.2.rest)
    ((hrun .start).symm.trans (hrun' .start))
  simpa using hrest

/-- **No other place of the same level is in front of it.** -/
theorem ExceedsAt.length_le (h : ExceedsAt limit [] text stack start) {tail : List Char}
    (hleads : Leads [] text stack' tail) (hfull : stack'.length = limit) (hopens : OpensForm tail) :
    tail.length ≤ start.length := by
  rcases reaches_or_exceeds_of_leads hleads hopens.head?_ne (Nat.zero_le limit) with
    ⟨-, hreach⟩ | ⟨stack'', start', hexceeds, hlength⟩
  · have hexceeds : ExceedsAt limit [] text stack' tail := ⟨hleads, hfull, hopens, hreach⟩
    obtain rfl := h.unique hexceeds
    exact Nat.le_refl _
  · rw [h.unique hexceeds]
    exact Nat.le_of_lt hlength

end Reader

/-! ## Levels of nesting -/

/-- `NestedAt level front back`: where `front` ends and `back` begins, a list or a quoted form of
this level of nesting does.  Forms that are not inside of others have level one. -/
def Grammar.NestedAt (level : Nat) (front back : List Char) : Prop :=
  OpensForm back ∧ ∃ stack, Leads [] (front ++ back) stack back ∧ stack.length + 1 = level

namespace Value

open Reader

variable {limits : Limits} {text : String}

/-- A text that exceeds the limit fails for it, at that place. -/
theorem exists_parseWith_of_exceedsAt {stack : List Frame} {start : List Char}
    (h : ExceedsAt limits.maxDepth [] text.toList stack start) :
    ∃ front back pos, back.toList = start ∧ pos.Divides text front back ∧
      parseWith limits text = .error ⟨.nestingTooDeep, pos⟩ := by
  obtain ⟨taken, htaken, hrun⟩ := h.exists_run
  obtain ⟨front, back, hdivides, -, hback⟩ := Position.divides_of_ofString htaken
  refine ⟨front, back, _, ?_, hdivides, last_eq_error_iff.2 ?_⟩
  · rw [TextUnit.eq_ofList_of_ofString_eq hback, String.toList_ofList]
  · have hlast : run (Reader.ofString limits text).allowance .start
        (Reader.ofString limits text).cursor.pos (Reader.ofString limits text).cursor.rest = _ :=
      hrun .start
    rw [hlast]
    exact ⟨rfl, rfl⟩

/-- A text that fails for the limit exceeds it. -/
theorem exists_exceedsAt_of_parseWith {pos : Position}
    (h : parseWith limits text = .error ⟨.nestingTooDeep, pos⟩) :
    ∃ stack start, ExceedsAt limits.maxDepth [] text.toList stack start := by
  obtain ⟨openForms, hfail⟩ := exists_failed_of_cause? (last_eq_error_iff.1 h).1
  exact exists_exceedsAt_of_run hfail

/-- A larger limit changes nothing, unless the reading failed for the limit. -/
theorem parseWith_of_limit_le {d d' : Nat} (h : d ≤ d')
    (hdeep : ∀ pos, parseWith ⟨d⟩ text ≠ .error ⟨.nestingTooDeep, pos⟩) :
    parseWith ⟨d'⟩ text = parseWith ⟨d⟩ text := by
  rcases run_eq_or_exceeds h .start .start (TextUnit.ofString text) with hsame | ⟨openForms, hfail⟩
  · exact @last_eq_of_run_eq (Reader.ofString ⟨d'⟩ text) (Reader.ofString ⟨d⟩ text) hsame
  · obtain ⟨stack, start, hexceeds⟩ := exists_exceedsAt_of_run hfail
    obtain ⟨front, back, pos, -, -, hparse⟩ :=
      @exists_parseWith_of_exceedsAt ⟨d⟩ text stack start hexceeds
    exact absurd hparse (hdeep pos)

/-- What fails for a limit fails for every smaller one, at an earlier place. -/
theorem exists_of_parseWith_nestingTooDeep {d d' : Nat} {pos' : Position} (h : d < d')
    (hparse : parseWith ⟨d'⟩ text = .error ⟨.nestingTooDeep, pos'⟩) :
    ∃ pos, parseWith ⟨d⟩ text = .error ⟨.nestingTooDeep, pos⟩ ∧ pos.offset < pos'.offset := by
  obtain ⟨stack', start', hexceeds'⟩ := exists_exceedsAt_of_parseWith hparse
  obtain ⟨front', back', place', rfl, hdivides', hparse'⟩ :=
    @exists_parseWith_of_exceedsAt ⟨d'⟩ text stack' start' hexceeds'
  obtain rfl : place' = pos' := by
    rw [hparse'] at hparse
    simpa using hparse
  rcases reaches_or_exceeds_of_leads hexceeds'.leads hexceeds'.opens.head?_ne (Nat.zero_le d) with
    ⟨hle, -⟩ | ⟨stack, start, hexceeds, hlength⟩
  · have hfull : stack'.length = d' := hexceeds'.full
    omega
  · obtain ⟨front, back, pos, rfl, hdivides, hparse⟩ :=
      @exists_parseWith_of_exceedsAt ⟨d⟩ text stack start hexceeds
    exact ⟨pos, hparse, hdivides.offset_lt hdivides' hlength⟩

/-- A value that is nested deeper than the limit is not read beyond the first form that is. -/
theorem exists_nestedAt_of_input {d : Nat} {v : Value} (h : Input text.toList v) (hd : d < v.depth) :
    ∃ front back pos, parseWith ⟨d⟩ text = .error ⟨.nestingTooDeep, pos⟩ ∧
      pos.Divides text front back ∧ NestedAt (d + 1) front.toList back.toList ∧
      ∀ front' back', front' ++ back' = text.toList → NestedAt (d + 1) front' back' →
        front.toList.length ≤ front'.length := by
  obtain ⟨spaced, behind, hblanks, hform, -⟩ := exists_form_of_input h
  obtain ⟨stack, start, hexceeds, -⟩ := exists_exceedsAt_of_form hform [] (Nat.zero_le d) hd
  have hexceeds := hexceeds.of_blanks hblanks (hform.head?_ne (by decide))
  obtain ⟨front, back, pos, rfl, hdivides, hparse⟩ :=
    @exists_parseWith_of_exceedsAt ⟨d⟩ text stack start hexceeds
  have htext : front.toList ++ back.toList = text.toList := by
    rw [← String.toList_append, hdivides.append_eq]
  refine ⟨front, back, pos, hparse, hdivides, ⟨hexceeds.opens, stack, ?_, ?_⟩, ?_⟩
  · rw [htext]
    exact hexceeds.leads
  · rw [hexceeds.full]
  · rintro front' back' htext' ⟨hopens, stack', hleads, hlevel⟩
    rw [htext'] at hleads
    have hlength := hexceeds.length_le hleads (Nat.succ.inj hlevel) hopens
    have hsum := congrArg List.length (htext.trans htext'.symm)
    rw [List.length_append, List.length_append] at hsum
    omega

/-- **One text under all limits.**  A larger limit changes nothing, unless the reading fails for
the limit; what fails for a limit fails for every smaller one, and earlier.  A text that is read
under some limit is read under all that are no less than the depth of its value.  Under the others it
fails where the first form begins that is nested one level deeper than the limit. -/
theorem parseWith_limits (text : String) :
    (∀ d d', d ≤ d' → (∀ pos, parseWith ⟨d⟩ text ≠ .error ⟨.nestingTooDeep, pos⟩) →
      parseWith ⟨d'⟩ text = parseWith ⟨d⟩ text) ∧
    (∀ d d' pos', d ≤ d' → parseWith ⟨d'⟩ text = .error ⟨.nestingTooDeep, pos'⟩ →
      ∃ pos, parseWith ⟨d⟩ text = .error ⟨.nestingTooDeep, pos⟩ ∧ pos.offset ≤ pos'.offset ∧
        (d < d' → pos.offset < pos'.offset)) ∧
    ∀ limits v, parseWith limits text = .ok v →
      (∀ d, parseWith ⟨d⟩ text = .ok v ↔ v.depth ≤ d) ∧
      ∀ d, d < v.depth → ∃ front back pos,
        parseWith ⟨d⟩ text = .error ⟨.nestingTooDeep, pos⟩ ∧ pos.Divides text front back ∧
        NestedAt (d + 1) front.toList back.toList ∧
        ∀ front' back', front' ++ back' = text.toList → NestedAt (d + 1) front' back' →
          front.toList.length ≤ front'.length := by
  refine ⟨fun d d' h hdeep => parseWith_of_limit_le h hdeep, fun d d' pos' h hparse => ?_,
    fun limits v hparse => ?_⟩
  · rcases Nat.eq_or_lt_of_le h with rfl | hlt
    · exact ⟨pos', hparse, Nat.le_refl _, fun hlt => absurd hlt (Nat.lt_irrefl d)⟩
    · obtain ⟨pos, hparse, hoffset⟩ := exists_of_parseWith_nestingTooDeep hlt hparse
      exact ⟨pos, hparse, Nat.le_of_lt hoffset, fun _ => hoffset⟩
  · have hinput := input_of_parseWith hparse
    refine ⟨fun d => ?_, fun d hd => exists_nestedAt_of_input hinput hd⟩
    rw [parseWith_eq_ok_iff]
    exact and_iff_right hinput

/-- Siblings get back what a form in front of them used.  Here the list behind the mark is the first
form that is nested too deep. -/
theorem parseWith_limits_siblings :
    parseWith ⟨7⟩ "((a) 'b)" = parseWith ⟨2⟩ "((a) 'b)" ∧
      (∃ pos, parseWith ⟨1⟩ "((a) '(b))" = .error ⟨.nestingTooDeep, pos⟩ ∧ pos.offset < 6) ∧
      ∃ front back pos, parseWith ⟨2⟩ "((a) '(b))" = .error ⟨.nestingTooDeep, pos⟩ ∧
        pos.Divides "((a) '(b))" front back ∧ NestedAt 3 front.toList back.toList := by
  have hdeep : parseWith ⟨2⟩ "((a) '(b))" = .error ⟨.nestingTooDeep, ⟨6, 0, 6⟩⟩ := rfl
  have hread : parseWith ⟨3⟩ "((a) '(b))" =
    .ok (.list [.list [.atom "a"], .quoted .quote (.list [.atom "b"])]) := rfl
  have hok : parseWith ⟨2⟩ "((a) 'b)" = .ok (.list [.list [.atom "a"], .quoted .quote (.atom "b")]) :=
    rfl
  obtain ⟨pos, hpos, -, hlt⟩ := (parseWith_limits "((a) '(b))").2.1 1 2 _ (by decide) hdeep
  obtain ⟨front, back, place, hplace, hdivides, hnested, -⟩ :=
    ((parseWith_limits "((a) '(b))").2.2 ⟨3⟩ _ hread).2 2 (by decide)
  refine ⟨?_, ⟨pos, hpos, hlt (by decide)⟩, front, back, place, hplace, hdivides, hnested⟩
  exact (parseWith_limits "((a) 'b)").1 2 7 (by decide) fun pos h => by rw [hok] at h; cases h

end Value

end SExpr
