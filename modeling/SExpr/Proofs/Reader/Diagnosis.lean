import SExpr.Proofs.Grammar.OpenForms
import SExpr.Proofs.Reader.Failure
import SExpr.Proofs.Reader.Recognition

/-!
# What an error says

The cause that is reported follows from the text in front of the place alone, by the innermost form
that is open there, and from the one character behind it.

## What is here

* `AtEnd` — what is reported at the end of a text, by the open forms (`exists_atEnd`).
* `step_eq_stop` — what a stop says about the same text without its rest.
* `SyntaxError.Cause.Fits` — when a cause is right for open forms and a character behind them.
* `Value.parseWith_error_cause` — errors report what fits, and nothing else.
-/

set_option autoImplicit false

namespace SExpr
namespace Reader

open Grammar

variable {limit : Nat}

/-! ## Strings that are open -/

/-- A state inside of a string, in front of a text that does not close it. -/
def State.StaysInString (stack : List Frame) : State → List Char → Prop
  | .string _ stack', text => stack' = stack ∧ Unclosed text
  | .stringEscape _ stack', text => stack' = stack ∧ Unclosed ('\\' :: text)
  | _, _ => False

/-- No unit of such a text leads out of the string. -/
theorem staysInString_of_step (limit : Nat) {state : State} {stack : List Frame} {u : TextUnit}
    {text : List Char} (h : state.StaysInString stack (u.chars ++ text)) :
    ∃ next, step limit state u = .go next ∧ next.StaysInString stack text := by
  cases state with
  | string before stack' =>
    obtain ⟨rfl, hopen⟩ := h
    by_cases hquote : u.lead = '"'
    · obtain rfl := TextUnit.eq_char_of_lead hquote (by decide)
      exact absurd hopen not_unclosed_quote
    by_cases hescape : u.lead = '\\'
    · obtain rfl := TextUnit.eq_char_of_lead hescape (by decide)
      exact ⟨.stringEscape before stack', rfl, rfl, hopen⟩
    · refine ⟨.string (before ++ u.text) stack', ?_, rfl, ?_⟩
      · simp only [step, hquote, hescape, if_false]
      · cases u with
        | char c => exact (unclosed_plain_iff hquote hescape).1 hopen
        | crlf =>
          exact (unclosed_plain_iff (by decide) (by decide)).1
            ((unclosed_plain_iff (by decide) (by decide)).1 hopen)
  | stringEscape before stack' =>
    obtain ⟨rfl, hopen⟩ := h
    refine ⟨.string (before ++ Escape.resolve u.text) stack', rfl, rfl, ?_⟩
    cases u with
    | char c => exact unclosed_escaped_iff.1 hopen
    | crlf => exact (unclosed_plain_iff (by decide) (by decide)).1 (unclosed_escaped_iff.1 hopen)
  | between | comma | atom | atomEscape => cases h

/-- **A text that does not close a string ends in it.** -/
theorem run_of_staysInString {state : State} {stack : List Frame} {text : List Char}
    (h : state.StaysInString stack text) (pos : Position) :
    (run limit state pos (TextUnit.ofChars text)).1 =
      .failed .unterminatedString stack.length := by
  generalize hus : TextUnit.ofChars text = us
  induction us generalizing state pos text with
  | nil =>
    cases state with
    | string before stack' | stringEscape before stack' =>
      obtain ⟨rfl, -⟩ := h
      rfl
    | between | comma | atom | atomEscape => cases h
  | cons u us ih =>
    obtain ⟨tail, rfl, htail, -⟩ := TextUnit.eq_append_of_ofChars_eq_cons hus
    obtain ⟨next, hstep, hnext⟩ := staysInString_of_step limit h
    rw [run_cons_of_go hstep]
    exact ih hnext _ htail

/-! ## The end of a text -/

/-- `AtEnd text stack outcome`: this is reported at the end of a text in which these forms are
open. -/
inductive AtEnd (text : List Char) : List Frame → Outcome → Prop where
  | value {v : Value} : Input text v → AtEnd text [] (.value v)
  | missing {stack : List Frame} {tail : List Char} :
    Leads [] text stack tail → tail = [] ∨ tail = ['\\'] → AtEnd text stack (noForm none stack)
  | string {stack : List Frame} {body : List Char} :
    Leads [] text stack ('"' :: body) → Unclosed body →
    AtEnd text stack (.failed .unterminatedString stack.length)

theorem AtEnd.openAtEnd {text : List Char} {stack : List Frame} {outcome : Outcome}
    (h : AtEnd text stack outcome) : OpenAtEnd text stack := by
  cases h with
  | value input => exact .complete input
  | missing leads htail =>
    rcases htail with rfl | rfl
    · exact .within leads .none
    · exact .within leads .escape
  | string leads unclosed => exact .within leads (.string unclosed)

theorem atEnd_of_fragment {text tail : List Char} {stack : List Frame}
    (h : Leads [] text stack tail) (htail : Fragment tail) (pos : Position) :
    AtEnd text stack
      (run limit (.between (.within stack)) pos (TextUnit.ofChars tail)).1 := by
  cases htail with
  | none => exact .missing h (Or.inl rfl)
  | escape => exact .missing h (Or.inr rfl)
  | @string body unclosed =>
    have hstring : (State.string "" stack).StaysInString stack body := ⟨rfl, unclosed⟩
    have hbegins : step limit (.between (.within stack)) (.char '"') = .go (.string "" stack) := rfl
    rw [TextUnit.ofChars_cons_of_ne (by decide), run_cons_of_go hbegins,
      run_of_staysInString hstring]
    exact .string h unclosed

/-- That a form is missing is another failure than that one is nested too deep. -/
theorem noForm_ne_nestingTooDeep (seen : Option Char) (stack : List Frame) (openForms : Nat) :
    noForm seen stack ≠ .failed .nestingTooDeep openForms := by
  unfold noForm
  split <;> simp

/-- No text ends too deep. -/
theorem finish_ne_nestingTooDeep (state : State) (openForms : Nat) :
    finish state ≠ .failed .nestingTooDeep openForms := by
  have hprogress : ∀ progress : Progress, progress.finish ≠ .failed .nestingTooDeep openForms := by
    intro progress
    cases progress with
    | within stack => exact noForm_ne_nestingTooDeep none stack openForms
    | complete v => exact Outcome.noConfusion
  unfold finish
  split
  · exact hprogress _
  · exact noForm_ne_nestingTooDeep none _ openForms
  · exact hprogress _
  · split
    · exact noForm_ne_nestingTooDeep none _ openForms
    · exact hprogress _
  · simp
  · simp

section

variable {front : List Char} {last : State}

/-- A place that a run comes by, if it takes the whole text: it goes on from there to the end. -/
theorem run_of_reaches {next : State} {rest : List TextUnit}
    (h : State.start.after? limit (TextUnit.ofChars front) = some last)
    (hreach : Reaches limit .start (TextUnit.ofChars front) next rest) :
    ∃ pos, (run limit next pos rest).1 = finish last ∧ (run limit next pos rest).2.rest = [] := by
  obtain ⟨taken, -, hrun⟩ := hreach
  have hwhole := run_append h .start []
  rw [List.append_nil, run_nil, hrun] at hwhole
  exact ⟨_, by rw [hwhole], by rw [hwhole]⟩

/-- So it does not stop there. -/
theorem not_stop_of_reaches {next : State} {u : TextUnit} {rest : List TextUnit}
    {outcome : Outcome} (h : State.start.after? limit (TextUnit.ofChars front) = some last)
    (hreach : Reaches limit .start (TextUnit.ofChars front) next (u :: rest)) :
    step limit next u ≠ .stop outcome := by
  intro hstop
  obtain ⟨pos, -, hrest⟩ := run_of_reaches h hreach
  rw [run_cons_of_stop hstop] at hrest
  cases hrest

theorem not_overruns_of_after
    (h : State.start.after? limit (TextUnit.ofChars front) = some last) :
    ¬Overruns limit .start (TextUnit.ofChars front) := by
  intro hover
  have hwhole := run_append h .start []
  rw [List.append_nil, run_nil] at hwhole
  have hdeep := hover .start
  rw [hwhole] at hdeep
  exact finish_ne_nestingTooDeep last limit hdeep

/-- A text that is taken and begins with a form is that form, and blanks. -/
theorem atEnd_of_form {spaced behind : List Char} {v : Value}
    (h : State.start.after? limit (TextUnit.ofChars front) = some last)
    (hblanks : Blanks front spaced) (hform : Form spaced v behind) :
    AtEnd front [] (finish last) := by
  obtain ⟨rest, hrest, hends⟩ := exists_blanks behind
  have hbegin : Reaches limit .start _ _ _ :=
    reaches_of_blanks hblanks (hform.head?_ne (by decide)) (.within [])
  rcases Nat.lt_or_ge limit v.depth with hdeep | hdepth
  · exact absurd (hbegin.overruns (overruns_of_form hform [] (Nat.zero_le limit) hdeep))
      (not_overruns_of_after h)
  have hreach : Reaches limit .start (TextUnit.ofChars front) (.between (.complete v))
      (TextUnit.ofChars rest) :=
    (hbegin.trans (reaches_of_form hform [] hdepth)).trans
      (reaches_of_blanks hrest (hends.head?_ne (by decide)) (.complete v))
  cases rest with
  | nil =>
    obtain ⟨pos, hfinish, -⟩ := run_of_reaches h hreach
    rw [← hfinish]
    exact .value (.cons hblanks hform (.nil hrest))
  | cons c rest =>
    obtain ⟨u, us, hunits, rfl⟩ := TextUnit.exists_ofChars_cons (@List.head?_cons _ c rest)
    rw [hunits] at hreach
    have hstop : step limit (.between (.complete v)) u = .stop (.value v) := by
      simp [step, continues, hends _ rfl]
    exact absurd hstop (not_stop_of_reaches h hreach)

theorem step_close_of_not_list {stack : List Frame}
    (h : ∀ items outer, stack ≠ .list items :: outer) :
    step limit (.between (.within stack)) (.char ')') = .stop (noForm (some ')') stack) := by
  match stack with
  | [] | .quoted kind :: outer => rfl
  | .list items :: outer => exact absurd rfl (h items outer)

/-- A text that is taken and gets stuck does so at its end. -/
theorem atEnd_of_stuck {stack : List Frame} {tail : List Char}
    (h : State.start.after? limit (TextUnit.ofChars front) = some last)
    (hleads : Leads [] front stack tail) (hstuck : Stuck stack tail) :
    stack.length ≤ limit ∧ AtEnd front stack (finish last) := by
  rcases reaches_or_exceeds_of_leads hleads (hstuck.endsBlanksAt.head?_ne (by decide))
      (Nat.zero_le limit) with
    ⟨hlength, hreach⟩ | ⟨stack', start, hexceeds, -⟩
  · refine ⟨hlength, ?_⟩
    cases hstuck with
    | fragment hfragment =>
      obtain ⟨pos, hfinish, -⟩ := run_of_reaches h hreach
      rw [← hfinish]
      exact atEnd_of_fragment hleads hfragment pos
    | close notList =>
      rw [TextUnit.ofChars_cons_of_ne (by decide)] at hreach
      exact absurd (step_close_of_not_list notList) (not_stop_of_reaches h hreach)
  · exact absurd hexceeds.overruns (not_overruns_of_after h)

/-- **What a run reports at the end of a text that it takes**, by the forms that are open there. -/
theorem exists_atEnd (h : State.start.after? limit (TextUnit.ofChars front) = some last) :
    ∃ stack, stack.length ≤ limit ∧ AtEnd front stack (finish last) := by
  rcases exists_form_or_stuck front with ⟨spaced, v, behind, hblanks, hform⟩ | ⟨rest, hclose⟩ | hstuck
  · exact ⟨[], Nat.zero_le limit, atEnd_of_form h hblanks hform⟩
  · exact ⟨[], atEnd_of_stuck h (.stay hclose) (.close (by rintro items outer ⟨⟩))⟩
  · obtain ⟨stack, tail, hleads, hstuck⟩ := hstuck []
    exact ⟨stack, atEnd_of_stuck h hleads hstuck⟩

/-- A backslash behind blanks has still to escape something. -/
theorem after?_of_escape (h : Blanks front ['\\']) :
    State.start.after? limit (TextUnit.ofChars front) = some (.atomEscape "" []) := by
  obtain ⟨taken, htext, hblank⟩ := exists_blank_units h (by simp)
  rw [htext, State.after?_append, State.start, after?_of_blank hblank]
  rfl

/-- In a text of blanks, to which a backslash may be added, no form has begun. -/
theorem exists_after?_of_blanks (limit : Nat) (h : Blanks front [] ∨ Blanks front ['\\']) :
    ∃ last, State.start.after? limit (TextUnit.ofChars front) = some last ∧
      finish last = .nothing := by
  rcases h with h | h
  · obtain ⟨taken, htext, hblank⟩ := exists_blank_units h (by simp)
    rw [TextUnit.ofChars_nil, List.append_nil] at htext
    exact ⟨.start, by rw [htext, State.start, after?_of_blank hblank], rfl⟩
  · exact ⟨_, after?_of_escape h, rfl⟩

end

/-! ## What a stop says -/

theorem continues_eq_stop {progress : Progress} {u : TextUnit} {outcome : Outcome}
    (h : continues limit progress u = .stop outcome) :
    (∃ stack, progress.finish = noForm none stack ∧ begins limit stack u = .stop outcome) ∨
      ∃ v, progress.finish = .value v ∧ outcome = .value v := by
  cases progress with
  | within stack => exact Or.inl ⟨stack, rfl, h⟩
  | complete v =>
    rw [continues] at h
    split at h
    · cases h
    · exact Or.inr ⟨v, rfl, (Step.stop.inj h).symm⟩

/-- **A unit is refused where a form can begin, or behind a value.**  What would be reported without
the unit, at the end of the text, tells which. -/
theorem step_eq_stop {state : State} {u : TextUnit} {outcome : Outcome}
    (h : step limit state u = .stop outcome) :
    (∃ stack, finish state = noForm none stack ∧ begins limit stack u = .stop outcome) ∨
      ∃ v, finish state = .value v ∧ outcome = .value v := by
  cases state with
  | between progress => exact continues_eq_stop h
  | comma stack =>
    rw [step] at h
    split at h
    · cases h
    · exact Or.inl ⟨.quoted .unquote :: stack, rfl, h⟩
  | atom text stack =>
    rw [step] at h
    split at h
    · cases h
    · split at h
      · exact continues_eq_stop h
      · cases h
  | string text stack =>
    rw [step] at h
    repeat' split at h
    all_goals cases h
  | atomEscape text stack | stringEscape text stack => cases h

/-- **Why a unit is refused:** it opens one form too many, it closes a list where none is open, or a
value is complete in front of it. -/
theorem step_stop_cases {state : State} {u : TextUnit} {outcome : Outcome}
    (h : step limit state u = .stop outcome) :
    (∃ stack, finish state = noForm none stack ∧ opens u.lead = true ∧ limit ≤ stack.length ∧
        outcome = .failed .nestingTooDeep stack.length) ∨
      (∃ stack, finish state = noForm none stack ∧ u = .char ')' ∧
        outcome = noForm (some ')') stack) ∨
      ∃ v, finish state = .value v ∧ outcome = .value v := by
  rcases step_eq_stop h with ⟨stack, hfinish, hbegins⟩ | hvalue
  · rcases begins_eq_stop hbegins with ⟨hopens, hfull, hdeep⟩ | ⟨hu, -, hclose⟩
    · exact Or.inl ⟨stack, hfinish, hopens, hfull, hdeep⟩
    · exact Or.inr (Or.inl ⟨stack, hfinish, hu, hclose⟩)
  · exact Or.inr (Or.inr hvalue)

theorem length_eq_of_noForm {seen : Option Char} {stack : List Frame} {cause : SyntaxError.Cause}
    {openForms : Nat} (h : noForm seen stack = .failed cause openForms) :
    stack.length = openForms := by
  match stack with
  | [] => cases h
  | .list _ :: outer | .quoted _ :: outer => exact (Outcome.failed.inj h).2

/-- What is reported where no form begins shows how many forms are open, and which is the innermost
one. -/
theorem noForm_none_eq {stack stack' : List Frame} (h : noForm none stack = noForm none stack') :
    stack.length = stack'.length ∧ ∀ seen, noForm seen stack = noForm seen stack' := by
  match stack, stack' with
  | [], [] => exact ⟨rfl, fun seen => rfl⟩
  | .list _ :: outer, .list _ :: outer' =>
    have hlength := (Outcome.failed.inj h).2
    exact ⟨hlength, fun seen => by rw [noForm, noForm, hlength]⟩
  | .quoted kind :: outer, .quoted kind' :: outer' =>
    obtain ⟨hkind, hlength⟩ := Outcome.failed.inj h
    obtain ⟨rfl, -⟩ := SyntaxError.Cause.missingOperand.inj hkind
    exact ⟨hlength, fun seen => by rw [noForm, noForm, hlength]⟩
  | [], .list _ :: _ | [], .quoted _ :: _ | .list _ :: _, [] | .quoted _ :: _, []
  | .list _ :: _, .quoted _ :: _ | .quoted _ :: _, .list _ :: _ => cases h

theorem AtEnd.of_value {text : List Char} {stack : List Frame} {v : Value}
    (h : AtEnd text stack (.value v)) : stack = [] ∧ Input text v := by
  generalize hout : Outcome.value v = outcome at h
  cases h with
  | value input =>
    obtain rfl := Outcome.value.inj hout
    exact ⟨rfl, input⟩
  | missing => exact absurd hout.symm (noForm_ne_value none stack v)
  | string => cases hout

theorem AtEnd.of_failed {text : List Char} {stack : List Frame} {cause : SyntaxError.Cause}
    {openForms : Nat} (h : AtEnd text stack (.failed cause openForms)) : stack.length = openForms := by
  generalize hout : Outcome.failed cause openForms = outcome at h
  cases h with
  | value => cases hout
  | missing => exact length_eq_of_noForm hout.symm
  | string => exact (Outcome.failed.inj hout).2.symm

/-- Where no form begins at the end of a text, the open forms show in what is reported. -/
theorem AtEnd.of_noForm {text : List Char} {stack stack' : List Frame}
    (h : AtEnd text stack (noForm none stack')) :
    (∃ tail, Leads [] text stack tail ∧ (tail = [] ∨ tail = ['\\'])) ∧
      noForm none stack = noForm none stack' := by
  generalize hout : noForm none stack' = outcome at h
  cases h with
  | value => exact absurd hout (noForm_ne_value none stack' _)
  | missing leads htail => exact ⟨⟨_, leads, htail⟩, rfl⟩
  | string =>
    unfold noForm at hout
    split at hout <;> cases hout

end Reader

/-! ## Causes that fit -/

open Grammar Reader

/-- Is a cause right, if these forms are open at the end of `front`, and `next` is the character
behind it? -/
def SyntaxError.Cause.Fits (limit : Nat) (front : List Char) (stack : List Frame)
    (next : Option Char) : SyntaxError.Cause → Prop
  | .nestingTooDeep => stack.length = limit ∧ ∃ c, next = some c ∧ opens c = true
  | .missingOperand kind seen =>
    (∃ outer, stack = .quoted kind :: outer) ∧ seen = next ∧ (next = none ∨ next = some ')')
  | .expectedClose seen => (∃ items outer, stack = .list items :: outer) ∧ seen = none ∧ next = none
  | .expectedOpen _ => False
  | .unterminatedString => next = none ∧ ∃ body, Leads [] front stack ('"' :: body) ∧ Unclosed body
  | .superfluous c =>
    stack = [] ∧ next = some c ∧ ((∃ v, Input front v) ∨ Blanks front [] ∧ c = ')')
  | .emptyInput => stack = [] ∧ next = none ∧ (Blanks front [] ∨ Blanks front ['\\'])

namespace Reader

variable {limit : Nat} {front : List Char} {stack : List Frame} {outcome : Outcome}
  {cause : SyntaxError.Cause}

/-- Blanks, and perhaps a backslash, are all that a text without open forms can end with where a
form is missing. -/
theorem blanks_of_leads {tail : List Char} (h : Leads [] front [] tail)
    (htail : tail = [] ∨ tail = ['\\']) : Blanks front [] ∨ Blanks front ['\\'] := by
  rcases htail with rfl | rfl
  · exact Or.inl h.blanks
  · exact Or.inr h.blanks

theorem fits_of_atEnd (h : AtEnd front stack outcome) (hcause : outcome.cause? none = some cause) :
    cause.Fits limit front stack none := by
  cases h with
  | value => cases hcause
  | missing leads htail =>
    match stack with
    | [] =>
      cases hcause
      exact ⟨rfl, rfl, blanks_of_leads leads htail⟩
    | .list items :: outer =>
      cases hcause
      exact ⟨⟨items, outer, rfl⟩, rfl, rfl⟩
    | .quoted kind :: outer =>
      cases hcause
      exact ⟨⟨outer, rfl⟩, rfl, Or.inl rfl⟩
  | string leads unclosed =>
    cases hcause
    exact ⟨rfl, _, leads, unclosed⟩

theorem fits_of_stop {last : State} {u : TextUnit}
    (h : State.start.after? limit (TextUnit.ofChars front) = some last)
    (hend : AtEnd front stack (finish last)) (hlength : stack.length ≤ limit)
    (hstop : step limit last u = .stop outcome) (hcause : outcome.cause? (some u.lead) = some cause) :
    cause.Fits limit front stack (some u.lead) := by
  rcases step_eq_stop hstop with ⟨stack', hfinish, hbegins⟩ | ⟨v, hfinish, rfl⟩
  · rw [hfinish] at hend
    obtain ⟨⟨tail, leads, htail⟩, hsame⟩ := hend.of_noForm
    obtain ⟨hsize, hnoForm⟩ := noForm_none_eq hsame
    rcases begins_eq_stop hbegins with ⟨hopens, hfull, rfl⟩ | ⟨rfl, hlist, rfl⟩
    · cases hcause
      exact ⟨by omega, u.lead, rfl, hopens⟩
    · rw [← hnoForm] at hcause
      match stack with
      | [] =>
        cases hcause
        refine ⟨rfl, rfl, Or.inr ⟨?_, rfl⟩⟩
        rcases blanks_of_leads leads htail with hblanks | hescape
        · exact hblanks
        · -- whatever the backslash escapes is taken
          rw [after?_of_escape hescape] at h
          cases h
          cases hstop
      | .list items :: outer =>
        match stack' with
        | .list items' :: outer' => exact absurd rfl (hlist items' outer')
        | [] | .quoted _ :: _ => cases hsame
      | .quoted kind :: outer =>
        cases hcause
        exact ⟨⟨outer, rfl⟩, rfl, Or.inr rfl⟩
  · rw [hfinish] at hend
    obtain ⟨rfl, input⟩ := hend.of_value
    cases hcause
    exact ⟨rfl, rfl, Or.inl ⟨v, input⟩⟩

end Reader

namespace Value

variable {limits : Limits} {text : String}

/-- **The cause of an error fits its place.** -/
theorem exists_fits_of_parseWith {e : SyntaxError} (h : parseWith limits text = .error e) :
    ∃ front back stack, e.pos.Divides text front back ∧ OpenAtEnd front.toList stack ∧
      e.cause.Fits limits.maxDepth front.toList stack back.toList.head? := by
  obtain ⟨front, back, last, outcome, hhalts, hcause, hpos⟩ := parseWith_eq_error_iff.1 h
  obtain ⟨stack, hlength, hend⟩ := exists_atEnd hhalts.after
  refine ⟨front, back, stack, hpos ▸ hhalts.divides, hend.openAtEnd, ?_⟩
  have hnext : back.toList.head? = (TextUnit.ofString back).head?.map TextUnit.lead :=
    (TextUnit.map_lead_head?_ofChars back.toList).symm
  rw [hnext] at hcause ⊢
  rcases hhalts.ends with ⟨hback, rfl⟩ | ⟨u, us, hback, hstop⟩
  · rw [hback] at hcause ⊢
    exact fits_of_atEnd hend hcause
  · rw [hback] at hcause ⊢
    exact fits_of_stop hhalts.after hend hlength hstop hcause

/-- **Errors by the innermost open form and the next character.**  An error stands at a place of the
text, one stack of forms is open in front of it, and the cause fits both.  That there is no form is
said of texts of blanks, to which a backslash at the end may be added, and of no other. -/
theorem parseWith_error_cause (limits : Limits) (text : String) :
    (∀ e, parseWith limits text = .error e →
      ∃ front back stack, e.pos.Divides text front back ∧ OpenAtEnd front.toList stack ∧
        (∀ other, OpenAtEnd front.toList other → other = stack) ∧
        e.cause.Fits limits.maxDepth front.toList stack back.toList.head?) ∧
    ((∃ pos, parseWith limits text = .error ⟨.emptyInput, pos⟩) ↔
      Blanks text.toList [] ∨ Blanks text.toList ['\\']) := by
  refine ⟨fun e h => ?_, ⟨?_, fun h => ?_⟩⟩
  · obtain ⟨front, back, stack, hdivides, hopen, hfits⟩ := exists_fits_of_parseWith h
    exact ⟨front, back, stack, hdivides, hopen, fun other hother => hother.unique hopen, hfits⟩
  · rintro ⟨pos, h⟩
    obtain ⟨front, back, stack, hdivides, -, -, hnext, hblanks⟩ := exists_fits_of_parseWith h
    obtain rfl : back = "" := by simpa using hnext
    obtain rfl : front = text := by rw [← hdivides.append_eq, String.append_empty]
    exact hblanks
  · obtain ⟨last, hafter, hfinish⟩ := exists_after?_of_blanks limits.maxDepth h
    exact ⟨.behind text, parseWith_eq_error_iff.2
      ⟨text, "", last, .nothing, ⟨.at_end text, hafter, Or.inl ⟨rfl, hfinish.symm⟩⟩, rfl, rfl⟩⟩

/-- A closing parenthesis where the operand of a mark is missing, and a backslash on its own. -/
theorem openAtEnd_in_front_of_close :
    (∃ outer, OpenAtEnd "(a '".toList (.quoted .quote :: outer)) ∧
      ∃ pos, parseWith ⟨2⟩ " \\" = .error ⟨.emptyInput, pos⟩ := by
  have hclose : parseWith ⟨2⟩ "(a ')" = .error ⟨.missingOperand .quote (some ')'), ⟨4, 0, 4⟩⟩ := rfl
  obtain ⟨front, back, stack, hdivides, hopen, -, ⟨outer, rfl⟩, -⟩ :=
    (parseWith_error_cause ⟨2⟩ "(a ')").1 _ hclose
  have hplace : (Position.behind "(a '").Divides "(a ')" "(a '" ")" := ⟨rfl, by decide, rfl⟩
  obtain ⟨rfl, -, -⟩ := hdivides.unique hplace rfl
  exact ⟨⟨outer, hopen⟩,
    (parseWith_error_cause ⟨2⟩ " \\").2.2 (Or.inr (.cons (by decide) (.none _)))⟩

end Value

end SExpr
