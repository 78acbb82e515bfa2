import SExpr.Grammar
import SExpr.Value.Shape

/-!
# Derivations by their first character

The first character of a text settles which rule derives it.  Each lemma says what a derivation of
such a text is, in both directions.

## What is here

* `Form.exists_cons` — no form begins with a blank, so the blanks in front of a form are all the
  blanks there are (`blanks_cons_iff`).
* `atomBody_plain_iff`, `atomBody_escaped_iff`, `atomBody_pair_iff`, `atomBody_ends_iff` — atoms.
* `stringBody_quote_iff`, `stringBody_plain_iff`, `stringBody_escaped_iff` — strings.
* `form_atom_iff`, `form_string_iff`, `form_list_iff`, `form_quoted_iff`, `form_mark_iff` — forms.
* `forms_blank_iff`, `forms_cons_iff`, `forms_close_iff` — the elements of a list.
* `Form.atom_ne_empty` — the grammar derives no empty atom.
-/

set_option autoImplicit false

namespace SExpr
namespace Grammar

/-! ## What a form begins with -/

/-- A text that an atom is read from does not begin with a blank. -/
theorem AtomBody.exists_cons {text chars rest : List Char} (h : AtomBody text chars rest)
    (hne : chars ≠ []) : ∃ c tail, text = c :: tail ∧ isBlank c = false := by
  cases h with
  | done => exact absurd rfl hne
  | plain plain => exact ⟨_, _, rfl, isBlank_eq_false_of_endsAtom plain⟩
  | escapedPair | escaped | cutOff => exact ⟨_, _, rfl, by decide⟩

/-- **A form begins with a character that is no blank.** -/
theorem Form.exists_cons {text rest : List Char} {v : Value} (h : Form text v rest) :
    ∃ c tail, text = c :: tail ∧ isBlank c = false := by
  cases h with
  | atom body hne => exact body.exists_cons hne
  | string | list => exact ⟨_, _, rfl, by decide⟩
  | quoted mark => cases mark <;> exact ⟨_, _, rfl, by decide⟩

theorem Form.head?_ne {text rest : List Char} {v : Value} (h : Form text v rest) {c : Char}
    (hc : isBlank c = true) : text.head? ≠ some c := by
  obtain ⟨d, tail, rfl, hd⟩ := h.exists_cons
  intro heq
  obtain rfl := Option.some.inj heq
  rw [hc] at hd
  cases hd

variable {text tail chars rest : List Char} {c : Char}

/-! ## Blanks -/

theorem blanks_cons_iff (h : isBlank c = false) : Blanks (c :: text) rest ↔ rest = c :: text := by
  constructor
  · intro hblanks
    cases hblanks with
    | none => rfl
    | cons blank => rw [h] at blank; cases blank
  · rintro rfl
    exact .none _

theorem Blanks.trans {text mid rest : List Char} (h₁ : Blanks text mid) (h₂ : Blanks mid rest) :
    Blanks text rest := by
  induction h₁ with
  | none => exact h₂
  | cons blank _ ih => exact .cons blank (ih h₂)

theorem forms_of_blanks {text mid rest : List Char} {items : List Value} (h : Blanks text mid)
    (hforms : Forms mid items rest) : Forms text items rest := by
  cases hforms with
  | nil blanks => exact .nil (h.trans blanks)
  | cons blanks form forms => exact .cons (h.trans blanks) form forms

/-! ## Atoms -/

theorem atomBody_plain_iff (h : endsAtom c = false) :
    AtomBody (c :: text) chars rest ↔ ∃ more, chars = c :: more ∧ AtomBody text more rest := by
  constructor
  · intro hbody
    cases hbody with
    | done ends =>
      have hends := (ends c rfl).1
      rw [h] at hends
      cases hends
    | plain _ hbody => exact ⟨_, rfl, hbody⟩
    | escapedPair | escaped | cutOff => cases h
  · rintro ⟨more, rfl, hbody⟩
    exact .plain h hbody

theorem atomBody_escaped_iff (h : ¬Pairs c text) :
    AtomBody ('\\' :: c :: text) chars rest ↔
      ∃ more, chars = c :: more ∧ AtomBody text more rest := by
  constructor
  · intro hbody
    cases hbody with
    | done ends => exact absurd rfl (ends '\\' rfl).2
    | plain plain => cases plain
    | escapedPair => exact absurd ⟨rfl, rfl⟩ h
    | escaped _ hbody => exact ⟨_, rfl, hbody⟩
  · rintro ⟨more, rfl, hbody⟩
    exact .escaped h hbody

theorem atomBody_pair_iff :
    AtomBody ('\\' :: '\r' :: '\n' :: text) chars rest ↔
      ∃ more, chars = '\r' :: '\n' :: more ∧ AtomBody text more rest := by
  constructor
  · intro hbody
    cases hbody with
    | done ends => exact absurd rfl (ends '\\' rfl).2
    | plain plain => cases plain
    | escapedPair hbody => exact ⟨_, rfl, hbody⟩
    | escaped alone => exact absurd ⟨rfl, rfl⟩ alone
  · rintro ⟨more, rfl, hbody⟩
    exact .escapedPair hbody

theorem atomBody_ends_iff (h : EndsAtomAt text) :
    AtomBody text chars rest ↔ chars = [] ∧ rest = text := by
  constructor
  · intro hbody
    cases hbody with
    | done => exact ⟨rfl, rfl⟩
    | plain plain =>
      have hends := (h _ rfl).1
      rw [plain] at hends
      cases hends
    | escapedPair | escaped | cutOff => exact absurd rfl (h '\\' rfl).2
  · rintro ⟨rfl, rfl⟩
    exact .done h

/-! ## Strings -/

theorem stringBody_quote_iff : StringBody ('"' :: text) chars rest ↔ chars = [] ∧ rest = text := by
  constructor
  · intro hbody
    cases hbody with
    | done => exact ⟨rfl, rfl⟩
    | plain notQuote => exact absurd rfl notQuote
  · rintro ⟨rfl, rfl⟩
    exact .done _

theorem stringBody_plain_iff (hquote : c ≠ '"') (hescape : c ≠ '\\') :
    StringBody (c :: text) chars rest ↔ ∃ more, chars = c :: more ∧ StringBody text more rest := by
  constructor
  · intro hbody
    cases hbody with
    | done => exact absurd rfl hquote
    | plain _ _ hbody => exact ⟨_, rfl, hbody⟩
    | escapedPair | escaped => exact absurd rfl hescape
  · rintro ⟨more, rfl, hbody⟩
    exact .plain hquote hescape hbody

/-- A line break pair behind a backslash is a carriage return behind it, and a line feed. -/
theorem stringBody_escaped_iff :
    StringBody ('\\' :: c :: text) chars rest ↔
      ∃ more, chars = Escape.denoted c :: more ∧ StringBody text more rest := by
  constructor
  · intro hbody
    cases hbody with
    | plain _ notEscape => exact absurd rfl notEscape
    | escapedPair hbody => exact ⟨_, rfl, .plain (by decide) (by decide) hbody⟩
    | escaped hbody => exact ⟨_, rfl, hbody⟩
  · rintro ⟨more, rfl, hbody⟩
    exact .escaped hbody

/-! ## Forms -/

theorem AtomBody.ne_special {c : Char} (h : AtomBody (c :: text) chars rest) (hne : chars ≠ []) :
    endsAtom c = false ∨ c = '\\' := by
  cases h with
  | done => exact absurd rfl hne
  | plain plain => exact Or.inl plain
  | escapedPair | escaped | cutOff => exact Or.inr rfl

theorem Mark.head_cases {kind : QuoteKind} (h : Mark (c :: text) kind rest) :
    c = '\'' ∨ c = '\x60' ∨ c = ',' := by
  cases h <;> simp

/-- Where an atom begins, the form is that atom. -/
theorem form_atom_iff {v : Value} (h : endsAtom c = false ∨ c = '\\') :
    Form (c :: text) v rest ↔
      ∃ chars, v = .atom (String.ofList chars) ∧ AtomBody (c :: text) chars rest ∧ chars ≠ [] := by
  constructor
  · intro hform
    cases hform with
    | atom hbody hne => exact ⟨_, rfl, hbody, hne⟩
    | string | list => rcases h with h | h <;> cases h
    | quoted mark =>
      rcases mark.head_cases with rfl | rfl | rfl <;> rcases h with h | h <;> cases h
  · rintro ⟨chars, rfl, hbody, hne⟩
    exact .atom hbody hne

theorem form_string_iff {v : Value} :
    Form ('"' :: text) v rest ↔
      ∃ chars, v = .string (String.ofList chars) ∧ StringBody text chars rest := by
  constructor
  · intro hform
    cases hform with
    | atom hbody hne => rcases hbody.ne_special hne with h | h <;> cases h
    | string hbody => exact ⟨_, rfl, hbody⟩
    | quoted mark => cases mark
  · rintro ⟨chars, rfl, hbody⟩
    exact .string hbody

theorem form_list_iff {v : Value} :
    Form ('(' :: text) v rest ↔ ∃ items, v = .list items ∧ Forms text items (')' :: rest) := by
  constructor
  · intro hform
    cases hform with
    | atom hbody hne => rcases hbody.ne_special hne with h | h <;> cases h
    | list forms => exact ⟨_, rfl, forms⟩
    | quoted mark => cases mark
  · rintro ⟨items, rfl, forms⟩
    exact .list forms

theorem mark_iff {kind kind' : QuoteKind} (h : kind = .unquote → text.head? ≠ some '@') :
    Mark (kind.mark.toList ++ text) kind' rest ↔ kind' = kind ∧ rest = text := by
  constructor
  · intro hmark
    cases kind with
    | quote | quasiquote =>
      cases hmark
      exact ⟨rfl, rfl⟩
    | unquoteSplicing =>
      cases hmark with
      | unquote alone => exact absurd rfl alone
      | unquoteSplicing => exact ⟨rfl, rfl⟩
    | unquote =>
      cases hmark with
      | unquote => exact ⟨rfl, rfl⟩
      | unquoteSplicing => exact absurd rfl (h rfl)
  · rintro ⟨rfl, rfl⟩
    cases kind' with
    | quote => exact .quote _
    | quasiquote => exact .quasiquote _
    | unquote => exact .unquote (h rfl)
    | unquoteSplicing => exact .unquoteSplicing _

/-- Where a mark begins, the form is quoted. -/
theorem form_quoted_iff {v : Value} (h : c = '\'' ∨ c = '\x60' ∨ c = ',') :
    Form (c :: text) v rest ↔ ∃ kind operand behind spaced, v = .quoted kind operand ∧
      Mark (c :: text) kind behind ∧ Blanks behind spaced ∧ Form spaced operand rest := by
  constructor
  · intro hform
    cases hform with
    | atom hbody hne =>
      rcases h with rfl | rfl | rfl <;> rcases hbody.ne_special hne with h | h <;> cases h
    | string | list => rcases h with h | h | h <;> cases h
    | quoted mark blanks form => exact ⟨_, _, _, _, rfl, mark, blanks, form⟩
  · rintro ⟨kind, operand, behind, spaced, rfl, mark, blanks, form⟩
    exact .quoted mark blanks form

theorem exists_mark_cons (kind : QuoteKind) :
    ∃ c tail, kind.mark.toList = c :: tail ∧ (c = '\'' ∨ c = '\x60' ∨ c = ',') := by
  cases kind <;> exact ⟨_, _, rfl, by decide⟩

/-- Behind a mark, the form is the quoted form of what follows, if that does not begin with a
blank and does not make the mark another one. -/
theorem form_mark_iff {kind : QuoteKind} {v : Value} (hblank : isBlank c = false)
    (h : kind = .unquote → c ≠ '@') :
    Form (kind.mark.toList ++ c :: text) v rest ↔
      ∃ operand, v = .quoted kind operand ∧ Form (c :: text) operand rest := by
  have hmark : ∀ {kind' : QuoteKind} {behind : List Char},
      Mark (kind.mark.toList ++ c :: text) kind' behind ↔ kind' = kind ∧ behind = c :: text :=
    mark_iff fun hkind => by simpa using h hkind
  obtain ⟨d, tail, htail, hd⟩ := exists_mark_cons kind
  rw [htail, List.cons_append] at hmark ⊢
  rw [form_quoted_iff hd]
  constructor
  · rintro ⟨kind', operand, behind, spaced, rfl, mark, blanks, form⟩
    obtain ⟨rfl, rfl⟩ := hmark.1 mark
    obtain rfl := (blanks_cons_iff hblank).1 blanks
    exact ⟨operand, rfl, form⟩
  · rintro ⟨operand, rfl, form⟩
    exact ⟨kind, operand, _, _, rfl, hmark.2 ⟨rfl, rfl⟩, .none _, form⟩

/-- No form begins with a closing parenthesis. -/
theorem not_form_close {v : Value} : ¬Form (')' :: text) v rest := by
  intro hform
  cases hform with
  | atom hbody hne => rcases hbody.ne_special hne with h | h <;> cases h
  | quoted mark => cases mark

/-! ## The elements of a list -/

/-- Can no other element follow?  At the end of a text, and in front of a closing parenthesis. -/
def EndsFormsAt (rest : List Char) : Prop :=
  ∀ c ∈ rest.head?, c = ')'

theorem forms_blank_iff {items : List Value} (h : isBlank c = true) (hrest : EndsFormsAt rest) :
    Forms (c :: text) items rest ↔ Forms text items rest := by
  constructor
  · intro hforms
    cases hforms with
    | nil blanks =>
      cases blanks with
      | none => cases hrest c rfl; cases h
      | cons _ blanks => exact .nil blanks
    | cons blanks form forms =>
      cases blanks with
      | none => exact absurd rfl (form.head?_ne h)
      | cons _ blanks => exact .cons blanks form forms
  · intro hforms
    cases hforms with
    | nil blanks => exact .nil (.cons h blanks)
    | cons blanks form forms => exact .cons (.cons h blanks) form forms

/-- Where no blank and no closing parenthesis stands, an element begins. -/
theorem forms_cons_iff {items : List Value} (hblank : isBlank c = false) (hclose : c ≠ ')')
    (hrest : EndsFormsAt rest) :
    Forms (c :: text) items rest ↔ ∃ v behind more,
      items = v :: more ∧ Form (c :: text) v behind ∧ Forms behind more rest := by
  constructor
  · intro hforms
    cases hforms with
    | nil blanks =>
      obtain rfl := (blanks_cons_iff hblank).1 blanks
      exact absurd (hrest c rfl) hclose
    | cons blanks form forms =>
      obtain rfl := (blanks_cons_iff hblank).1 blanks
      exact ⟨_, _, _, rfl, form, forms⟩
  · rintro ⟨v, behind, more, rfl, form, forms⟩
    exact .cons (.none _) form forms

theorem forms_close_iff {items : List Value} :
    Forms (')' :: text) items (')' :: rest) ↔ items = [] ∧ rest = text := by
  constructor
  · intro hforms
    cases hforms with
    | nil blanks =>
      have heq := (blanks_cons_iff (by decide)).1 blanks
      exact ⟨rfl, List.tail_eq_of_cons_eq heq⟩
    | cons blanks form =>
      obtain rfl := (blanks_cons_iff (by decide)).1 blanks
      exact absurd form not_form_close
  · rintro ⟨rfl, rfl⟩
    exact .nil (.none _)

/-! ## The values that have derivations -/

mutual

/-- **No atom that is derived is empty.** -/
theorem Form.atom_ne_empty : ∀ {text rest : List Char} {v : Value}, Form text v rest →
    ∀ a ∈ v.atoms, a ≠ ""
  | _, _, _, .atom _ hne, a, ha => by
    obtain rfl := List.mem_singleton.1 ha
    simpa using hne
  | _, _, _, .string _, a, ha => absurd ha List.not_mem_nil
  | _, _, _, .list forms, a, ha => Forms.atom_ne_empty forms a ha
  | _, _, _, .quoted _ _ form, a, ha => Form.atom_ne_empty form a ha

theorem Forms.atom_ne_empty : ∀ {text rest : List Char} {items : List Value},
    Forms text items rest → ∀ a ∈ Value.atomsAll items, a ≠ ""
  | _, _, _, .nil _, a, ha => absurd ha List.not_mem_nil
  | _, _, _, .cons _ form forms, a, ha => by
    rcases List.mem_append.1 ha with ha | ha
    · exact Form.atom_ne_empty form a ha
    · exact Forms.atom_ne_empty forms a ha

end

end Grammar

end SExpr
