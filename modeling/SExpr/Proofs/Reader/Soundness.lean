import SExpr.Proofs.Grammar.Inversion
import SExpr.Proofs.Reader.Reach

/-!
# Every value that is read has a derivation

A state holds a part of a derivation.  What the text has to add for the state to come to a value
is written down first, as `State.Yields`.  One step from behind then adds one unit in front, and
so a run that ends with a value has the whole derivation at its start.

## What is here

* `Delivers`, `Completes` — what the text must hold for the open forms around a value, and for
  open forms that still wait for something.
* `State.Yields` — the same for every state.
* `yields_of_step`, `yields_of_run` — one step and whole runs.
-/

set_option autoImplicit false

namespace SExpr
namespace Reader

open Grammar

/-! ## What is still missing from a derivation -/

/-- `Delivers x stack text v rest`: with `x` delivered to the open forms, the text completes all of
them to `v`, with blanks and then `rest` behind. -/
def Delivers (x : Value) : List Frame → List Char → Value → List Char → Prop
  | [], text, v, rest => x = v ∧ Blanks text rest
  | .list items :: outer, text, v, rest =>
    ∃ more behind, Forms text more (')' :: behind) ∧
      Delivers (.list (items.reverse ++ x :: more)) outer behind v rest
  | .quoted kind :: outer, text, v, rest => Delivers (.quoted kind x) outer text v rest

/-- `Completes stack text v rest`: the text completes the open forms to `v`, with blanks and then
`rest` behind. -/
def Completes : List Frame → List Char → Value → List Char → Prop
  | .list items :: outer, text, v, rest =>
    ∃ more behind, Forms text more (')' :: behind) ∧
      Delivers (.list (items.reverse ++ more)) outer behind v rest
  | stack, text, v, rest =>
    ∃ spaced x behind, Blanks text spaced ∧ Form spaced x behind ∧ Delivers x stack behind v rest

/-- The same for a place between two tokens. -/
def Progress.Yields : Progress → List Char → Value → List Char → Prop
  | .within stack, text, v, rest => Completes stack text v rest
  | .complete w, text, v, rest => w = v ∧ Blanks text rest

/-- `state.Yields text v rest`: from this state the text leads to `v`, with `rest` left. -/
def State.Yields : State → List Char → Value → List Char → Prop
  | .between progress, text, v, rest => progress.Yields text v rest
  | .comma stack, text, v, rest =>
    (∃ behind, text = '@' :: behind ∧ Completes (.quoted .unquoteSplicing :: stack) behind v rest) ∨
      text.head? ≠ some '@' ∧ Completes (.quoted .unquote :: stack) text v rest
  | .atom before stack, text, v, rest =>
    ∃ chars behind, AtomBody text chars behind ∧
      Delivers (.atom (before ++ String.ofList chars)) stack behind v rest
  | .atomEscape before stack, text, v, rest =>
    ∃ chars behind, AtomBody ('\\' :: text) chars behind ∧ before ++ String.ofList chars ≠ "" ∧
      Delivers (.atom (before ++ String.ofList chars)) stack behind v rest
  | .string before stack, text, v, rest =>
    ∃ chars behind, StringBody text chars behind ∧
      Delivers (.string (before ++ String.ofList chars)) stack behind v rest
  | .stringEscape before stack, text, v, rest =>
    ∃ chars behind, StringBody ('\\' :: text) chars behind ∧
      Delivers (.string (before ++ String.ofList chars)) stack behind v rest

theorem delivers_of_yields {stack : List Frame} {x v : Value} {text rest : List Char}
    (h : (deliver x stack).Yields text v rest) : Delivers x stack text v rest := by
  induction stack generalizing x with
  | nil => exact h
  | cons frame outer ih =>
    cases frame with
    | list items =>
      obtain ⟨more, behind, hforms, hdelivers⟩ := h
      refine ⟨more, behind, hforms, ?_⟩
      rwa [List.reverse_cons, List.append_assoc] at hdelivers
    | quoted kind => exact ih h

/-- The next form of the text is delivered to the open forms. -/
theorem completes_of_form {stack : List Frame} {text spaced behind rest : List Char} {x v : Value}
    (hblanks : Blanks text spaced) (hform : Form spaced x behind)
    (h : Delivers x stack behind v rest) : Completes stack text v rest := by
  match stack, h with
  | [], h => exact ⟨spaced, x, behind, hblanks, hform, h⟩
  | .quoted kind :: outer, h => exact ⟨spaced, x, behind, hblanks, hform, h⟩
  | .list items :: outer, ⟨more, behind', hforms, h⟩ =>
    exact ⟨x :: more, behind', .cons hblanks hform hforms, h⟩

/-- Blanks in front make no difference. -/
theorem completes_of_blanks {stack : List Frame} {text mid rest : List Char} {v : Value}
    (hblanks : Blanks text mid) (h : Completes stack mid v rest) :
    Completes stack text v rest := by
  match stack, h with
  | [], ⟨spaced, x, behind, hmid, hform, h⟩ =>
    exact ⟨spaced, x, behind, hblanks.trans hmid, hform, h⟩
  | .quoted kind :: outer, ⟨spaced, x, behind, hmid, hform, h⟩ =>
    exact ⟨spaced, x, behind, hblanks.trans hmid, hform, h⟩
  | .list items :: outer, ⟨more, behind, hforms, h⟩ =>
    exact ⟨more, behind, forms_of_blanks hblanks hforms, h⟩

/-- The operand of a mark is the next form. -/
theorem completes_of_mark {stack : List Frame} {text behind rest : List Char} {kind : QuoteKind}
    {v : Value} (hmark : Mark text kind behind)
    (h : Completes (.quoted kind :: stack) behind v rest) : Completes stack text v rest := by
  obtain ⟨spaced, x, after, hblanks, hform, hdelivers⟩ := h
  exact completes_of_form (.none text) (.quoted hmark hblanks hform) hdelivers

theorem head?_chars_append (u : TextUnit) (text : List Char) :
    (u.chars ++ text).head? = some u.lead := by
  cases u <;> rfl

/-- A unit of blanks is blanks. -/
theorem blanks_of_unit {u : TextUnit} (h : isBlank u.lead = true) (text : List Char) :
    Blanks (u.chars ++ text) text := by
  cases u with
  | char c => exact .cons h (.none text)
  | crlf => exact .cons h (.cons (by decide) (.none text))

/-! ## One step -/

section

variable {limit : Nat} {u : TextUnit} {text rest : List Char} {v : Value}

theorem completes_of_begins {stack : List Frame} {next : State}
    (hstep : begins limit stack u = .go next) (h : next.Yields text v rest) :
    Completes stack (u.chars ++ text) v rest := by
  rcases u.unit_cases with hu | rfl | rfl | rfl | rfl | rfl | rfl | rfl | hu
  · rw [begins_of_isBlank hu] at hstep
    obtain rfl := Step.go.inj hstep
    exact completes_of_blanks (blanks_of_unit hu text) h
  · obtain ⟨-, rfl⟩ := enter_eq_go (begins_open.symm.trans hstep)
    obtain ⟨items, behind, hforms, hdelivers⟩ := h
    exact completes_of_form (.none _) (.list hforms) hdelivers
  · match stack, hstep with
    | .list items :: outer, hstep =>
      obtain rfl := Step.go.inj ((begins_close items outer).symm.trans hstep)
      refine ⟨[], text, .nil (.none _), ?_⟩
      rw [List.append_nil]
      exact delivers_of_yields h
    | [], hstep => cases hstep
    | .quoted kind :: outer, hstep => cases hstep
  · obtain rfl := Step.go.inj (begins_string.symm.trans hstep)
    obtain ⟨chars, behind, hbody, hdelivers⟩ := h
    rw [String.empty_append] at hdelivers
    exact completes_of_form (.none _) (.string hbody) hdelivers
  · obtain rfl := Step.go.inj (begins_escape.symm.trans hstep)
    obtain ⟨chars, behind, hbody, hne, hdelivers⟩ := h
    rw [String.empty_append] at hne hdelivers
    exact completes_of_form (.none _) (.atom hbody (by simpa using hne)) hdelivers
  · obtain ⟨-, rfl⟩ := enter_eq_go (begins_quote.symm.trans hstep)
    exact completes_of_mark (.quote text) h
  · obtain ⟨-, rfl⟩ := enter_eq_go (begins_quasiquote.symm.trans hstep)
    exact completes_of_mark (.quasiquote text) h
  · obtain ⟨-, rfl⟩ := enter_eq_go (begins_comma.symm.trans hstep)
    rcases h with ⟨behind, rfl, h⟩ | ⟨halone, h⟩
    · exact completes_of_mark (.unquoteSplicing behind) h
    · exact completes_of_mark (.unquote halone) h
  · rw [begins_of_endsAtom hu] at hstep
    obtain rfl := Step.go.inj hstep
    obtain ⟨chars, behind, hbody, hdelivers⟩ := h
    obtain ⟨c, rfl⟩ : ∃ c, u = .char c := by
      cases u with
      | char c => exact ⟨c, rfl⟩
      | crlf => cases hu
    rw [TextUnit.text, ← String.ofList_append] at hdelivers
    exact completes_of_form (.none _) (.atom (.plain hu hbody) (List.cons_ne_nil c chars)) hdelivers

theorem yields_of_continues {progress : Progress} {next : State}
    (hstep : continues limit progress u = .go next) (h : next.Yields text v rest) :
    progress.Yields (u.chars ++ text) v rest := by
  cases progress with
  | within stack => exact completes_of_begins hstep h
  | complete w =>
    rw [continues] at hstep
    split at hstep
    · rename_i hu
      obtain rfl := Step.go.inj hstep
      exact ⟨h.1, (blanks_of_unit hu text).trans h.2⟩
    · cases hstep

/-- An atom that ends here is delivered here. -/
theorem yields_atom_of_ends {before : String} {stack : List Frame} (hends : EndsAtomAt text)
    (h : (deliver (.atom before) stack).Yields text v rest) :
    (State.atom before stack).Yields text v rest := by
  refine ⟨[], text, .done hends, ?_⟩
  rw [String.ofList_nil, String.append_empty]
  exact delivers_of_yields h

theorem endsAtomAt_chars (hends : endsAtom u.lead = true) (hescape : u.lead ≠ '\\')
    (text : List Char) : EndsAtomAt (u.chars ++ text) := by
  rw [EndsAtomAt, head?_chars_append]
  rintro c ⟨⟩
  exact ⟨hends, hescape⟩

theorem yields_of_step_atom {before : String} {stack : List Frame} {next : State}
    (hstep : step limit (.atom before stack) u = .go next) (h : next.Yields text v rest) :
    (State.atom before stack).Yields (u.chars ++ text) v rest := by
  rw [step] at hstep
  split at hstep
  · rename_i hu
    obtain rfl := TextUnit.eq_char_of_lead hu (by decide)
    obtain rfl := Step.go.inj hstep
    obtain ⟨chars, behind, hbody, -, hdelivers⟩ := h
    exact ⟨chars, behind, hbody, hdelivers⟩
  · rename_i hescape
    split at hstep
    · rename_i hends
      exact yields_atom_of_ends (endsAtomAt_chars hends hescape text) (yields_of_continues hstep h)
    · rename_i hends
      obtain rfl := Step.go.inj hstep
      obtain ⟨chars, behind, hbody, hdelivers⟩ := h
      rw [append_ofList_cons] at hdelivers
      cases u with
      | char c =>
        exact ⟨c :: chars, behind, .plain ((Bool.not_eq_true _).mp hends) hbody, hdelivers⟩
      | crlf => exact absurd rfl hends

theorem yields_of_step_string {before : String} {stack : List Frame} {next : State}
    (hstep : step limit (.string before stack) u = .go next) (h : next.Yields text v rest) :
    (State.string before stack).Yields (u.chars ++ text) v rest := by
  rw [step] at hstep
  split at hstep
  · rename_i hu
    obtain rfl := TextUnit.eq_char_of_lead hu (by decide)
    obtain rfl := Step.go.inj hstep
    refine ⟨[], text, .done text, ?_⟩
    rw [String.ofList_nil, String.append_empty]
    exact delivers_of_yields h
  · rename_i hquote
    split at hstep
    · rename_i hu
      obtain rfl := TextUnit.eq_char_of_lead hu (by decide)
      obtain rfl := Step.go.inj hstep
      exact h
    · rename_i hescape
      obtain rfl := Step.go.inj hstep
      obtain ⟨chars, behind, hbody, hdelivers⟩ := h
      rw [append_ofList_cons] at hdelivers
      cases u with
      | char c => exact ⟨c :: chars, behind, .plain hquote hescape hbody, hdelivers⟩
      | crlf =>
        exact ⟨'\r' :: '\n' :: chars, behind,
          .plain (by decide) (by decide) (.plain (by decide) (by decide) hbody), hdelivers⟩

/-- **A step adds its unit to the derivation.**  A carriage return on its own must not stand in
front of a line feed. -/
theorem yields_of_step {state next : State} (hstep : step limit state u = .go next)
    (halone : ∀ c, u = .char c → ¬Pairs c text) (h : next.Yields text v rest) :
    state.Yields (u.chars ++ text) v rest := by
  cases state with
  | between progress => exact yields_of_continues hstep h
  | comma stack =>
    rw [step] at hstep
    split at hstep
    · rename_i hu
      obtain rfl := TextUnit.eq_char_of_lead hu (by decide)
      obtain rfl := Step.go.inj hstep
      exact Or.inl ⟨text, rfl, h⟩
    · rename_i hu
      refine Or.inr ⟨?_, completes_of_begins hstep h⟩
      rw [head?_chars_append]
      exact fun heq => hu (Option.some.inj heq)
  | atom before stack => exact yields_of_step_atom hstep h
  | atomEscape before stack =>
    obtain rfl := Step.go.inj hstep
    obtain ⟨chars, behind, hbody, hdelivers⟩ := h
    rw [append_ofList_cons] at hdelivers
    cases u with
    | char c => exact ⟨c :: chars, behind, .escaped (halone c rfl) hbody, by simp, hdelivers⟩
    | crlf => exact ⟨'\r' :: '\n' :: chars, behind, .escapedPair hbody, by simp, hdelivers⟩
  | string before stack => exact yields_of_step_string hstep h
  | stringEscape before stack =>
    obtain rfl := Step.go.inj hstep
    obtain ⟨chars, behind, hbody, hdelivers⟩ := h
    cases u with
    | char c =>
      rw [resolve_char, append_ofList_cons] at hdelivers
      exact ⟨Escape.denoted c :: chars, behind, .escaped hbody, hdelivers⟩
    | crlf =>
      rw [resolve_crlf, append_ofList_cons] at hdelivers
      exact ⟨'\r' :: '\n' :: chars, behind, .escapedPair hbody, hdelivers⟩

/-! ## The end of a run -/

theorem noForm_ne_value (seen : Option Char) (stack : List Frame) (v : Value) :
    noForm seen stack ≠ .value v := by
  unfold noForm
  split <;> exact Outcome.noConfusion

theorem yields_of_finish_progress {progress : Progress} (h : progress.finish = .value v) :
    progress.Yields [] v [] := by
  cases progress with
  | within stack => exact absurd h (noForm_ne_value none stack v)
  | complete w => exact ⟨Outcome.value.inj h, .none []⟩

/-- A text that ends with a value has nothing missing from its derivation. -/
theorem yields_of_finish {state : State} (h : finish state = .value v) :
    state.Yields [] v [] := by
  cases state with
  | between progress => exact yields_of_finish_progress h
  | comma stack => exact absurd h (noForm_ne_value none (.quoted .unquote :: stack) v)
  | atom before stack =>
    exact yields_atom_of_ends (by simp [EndsAtomAt]) (yields_of_finish_progress h)
  | atomEscape before stack =>
    rw [finish] at h
    split at h
    · exact absurd h (noForm_ne_value none stack v)
    · rename_i hne
      refine ⟨[], [], .cutOff, ?_⟩
      rw [String.ofList_nil, String.append_empty]
      exact ⟨by simpa using hne, delivers_of_yields (yields_of_finish_progress h)⟩
  | string before stack | stringEscape before stack => cases h

theorem begins_ne_value (stack : List Frame) : begins limit stack u ≠ .stop (.value v) := by
  intro h
  rcases begins_eq_stop h with ⟨-, -, h⟩ | ⟨-, -, h⟩
  · cases h
  · exact noForm_ne_value _ stack v h.symm

theorem yields_of_continues_stop {progress : Progress}
    (h : continues limit progress u = .stop (.value v)) (text : List Char) :
    progress.Yields text v text := by
  cases progress with
  | within stack => exact absurd h (begins_ne_value stack)
  | complete w =>
    rw [continues] at h
    split at h
    · cases h
    · exact ⟨Outcome.value.inj (Step.stop.inj h), .none text⟩

/-- The same in front of a unit that does not belong to the form any more. -/
theorem yields_of_stop {state : State} (h : step limit state u = .stop (.value v))
    (text : List Char) : state.Yields (u.chars ++ text) v (u.chars ++ text) := by
  cases state with
  | between progress => exact yields_of_continues_stop h _
  | comma stack =>
    rw [step] at h
    split at h
    · cases h
    · exact absurd h (begins_ne_value _)
  | atom before stack =>
    rw [step] at h
    split at h
    · cases h
    · rename_i hescape
      split at h
      · rename_i hends
        exact yields_atom_of_ends (endsAtomAt_chars hends hescape text)
          (yields_of_continues_stop h _)
      · cases h
  | atomEscape before stack | stringEscape before stack => cases h
  | string before stack =>
    rw [step] at h
    repeat' split at h
    all_goals cases h

end

/-! ## Whole runs -/

/-- **A run that ends with a value has its whole derivation in the text.** -/
theorem yields_of_run {limit : Nat} {state : State} {pos : Position} {text : List Char}
    {v : Value} (h : (run limit state pos (TextUnit.ofChars text)).1 = .value v) :
    state.Yields text v
      (TextUnit.toChars (run limit state pos (TextUnit.ofChars text)).2.rest) := by
  generalize hus : TextUnit.ofChars text = us at h ⊢
  induction us generalizing state pos text with
  | nil =>
    obtain rfl : text = [] := by simpa [hus] using (TextUnit.toChars_ofChars text).symm
    exact yields_of_finish h
  | cons u us ih =>
    obtain ⟨tail, rfl, htail, halone⟩ := TextUnit.eq_append_of_ofChars_eq_cons hus
    cases hstep : step limit state u with
    | go next =>
      rw [run_cons_of_go hstep] at h ⊢
      exact yields_of_step hstep halone (ih htail h)
    | stop outcome =>
      rw [run_cons_of_stop hstep] at h ⊢
      obtain rfl : outcome = .value v := h
      rw [TextUnit.toChars_cons, ← htail, TextUnit.toChars_ofChars]
      exact yields_of_stop hstep tail

end Reader

end SExpr
