import SExpr.Proofs.Grammar.Inversion

/-!
# The grammar is unambiguous

Whatever follows a token or a form, a text has at most one at its beginning: one value is derived,
and one rest is left.  Every rule takes at least one character, so rests are shorter than texts.

## What is here

* `Blanks.unique` — the blanks in front of something else are all the blanks there are.
* `AtomBody.unique`, `StringBody.unique`, `Mark.unique` — the tokens.
* `Mark.form_iff`, `Form.unique` — the forms.
* `Form.length_lt` — what is left behind a form is shorter.
-/

set_option autoImplicit false

namespace SExpr
namespace Grammar

/-! ## Blanks -/

/-- Is this no blank?  So it is at the end of a text, and in front of every token. -/
def EndsBlanksAt (rest : List Char) : Prop :=
  ∀ c ∈ rest.head?, isBlank c = false

theorem endsBlanksAt_cons {c : Char} {rest : List Char} (h : isBlank c = false) :
    EndsBlanksAt (c :: rest) := by
  rintro d ⟨⟩
  exact h

theorem EndsBlanksAt.head?_ne {rest : List Char} (h : EndsBlanksAt rest) {c : Char}
    (hc : isBlank c = true) : rest.head? ≠ some c := by
  intro hhead
  rw [h c hhead] at hc
  cases hc

theorem Form.endsBlanksAt {text rest : List Char} {v : Value} (h : Form text v rest) :
    EndsBlanksAt text := by
  obtain ⟨c, tail, rfl, hc⟩ := h.exists_cons
  exact endsBlanksAt_cons hc

theorem Mark.endsBlanksAt {text rest : List Char} {kind : QuoteKind} (h : Mark text kind rest) :
    EndsBlanksAt text := by
  cases h <;> exact endsBlanksAt_cons (by decide)

theorem Blanks.eq_of_endsBlanksAt {text rest : List Char} (h : Blanks text rest)
    (htext : EndsBlanksAt text) : rest = text := by
  cases h with
  | none => rfl
  | @cons c _ _ blank =>
    have hc := htext c rfl
    rw [blank] at hc
    cases hc

/-- **What follows blanks is what follows some of them**, without the others. -/
theorem Blanks.unspaced {text mid rest : List Char} (h : Blanks text mid) (h' : Blanks text rest)
    (hrest : EndsBlanksAt rest) : Blanks mid rest := by
  induction h with
  | none => exact h'
  | @cons c text mid blank _ ih =>
    cases h' with
    | none =>
      have hc := hrest c rfl
      rw [blank] at hc
      cases hc
    | cons _ h' => exact ih h'

theorem Blanks.unique {text rest rest' : List Char} (h : Blanks text rest)
    (h' : Blanks text rest') (hrest : EndsBlanksAt rest) (hrest' : EndsBlanksAt rest') :
    rest = rest' :=
  ((h.unspaced h' hrest').eq_of_endsBlanksAt hrest).symm

/-- Every text is blanks and something else. -/
theorem exists_blanks (text : List Char) : ∃ rest, Blanks text rest ∧ EndsBlanksAt rest := by
  induction text with
  | nil => exact ⟨[], .none [], by rintro c ⟨⟩⟩
  | cons c text ih =>
    cases hc : isBlank c with
    | true =>
      obtain ⟨rest, hblanks, hrest⟩ := ih
      exact ⟨rest, .cons hc hblanks, hrest⟩
    | false => exact ⟨c :: text, .none _, endsBlanksAt_cons hc⟩

theorem Blanks.length_le {text rest : List Char} (h : Blanks text rest) :
    rest.length ≤ text.length := by
  induction h with
  | none => exact Nat.le_refl _
  | cons _ _ ih => exact Nat.le_succ_of_le ih

/-! ## Tokens -/

theorem AtomBody.unique {text chars chars' rest rest' : List Char} (h : AtomBody text chars rest)
    (h' : AtomBody text chars' rest') : chars = chars' ∧ rest = rest' := by
  induction h generalizing chars' with
  | done ends =>
    obtain ⟨rfl, rfl⟩ := (atomBody_ends_iff ends).1 h'
    exact ⟨rfl, rfl⟩
  | plain plain _ ih =>
    obtain ⟨more, rfl, hbody⟩ := (atomBody_plain_iff plain).1 h'
    obtain ⟨rfl, rfl⟩ := ih hbody
    exact ⟨rfl, rfl⟩
  | escapedPair _ ih =>
    obtain ⟨more, rfl, hbody⟩ := atomBody_pair_iff.1 h'
    obtain ⟨rfl, rfl⟩ := ih hbody
    exact ⟨rfl, rfl⟩
  | escaped alone _ ih =>
    obtain ⟨more, rfl, hbody⟩ := (atomBody_escaped_iff alone).1 h'
    obtain ⟨rfl, rfl⟩ := ih hbody
    exact ⟨rfl, rfl⟩
  | cutOff =>
    cases h' with
    | done ends => exact absurd rfl (ends '\\' rfl).2
    | plain plain => cases plain
    | cutOff => exact ⟨rfl, rfl⟩

theorem StringBody.unique {text chars chars' rest rest' : List Char}
    (h : StringBody text chars rest) (h' : StringBody text chars' rest') :
    chars = chars' ∧ rest = rest' := by
  induction h generalizing chars' with
  | done =>
    obtain ⟨rfl, rfl⟩ := stringBody_quote_iff.1 h'
    exact ⟨rfl, rfl⟩
  | plain notQuote notEscape _ ih =>
    obtain ⟨more, rfl, hbody⟩ := (stringBody_plain_iff notQuote notEscape).1 h'
    obtain ⟨rfl, rfl⟩ := ih hbody
    exact ⟨rfl, rfl⟩
  | escapedPair _ ih =>
    -- read as one unit or as two, the pair contains the same characters
    obtain ⟨more, rfl, hfeed⟩ := stringBody_escaped_iff.1 h'
    obtain ⟨more, rfl, hbody⟩ := (stringBody_plain_iff (by decide) (by decide)).1 hfeed
    obtain ⟨rfl, rfl⟩ := ih hbody
    exact ⟨rfl, rfl⟩
  | escaped _ ih =>
    obtain ⟨more, rfl, hbody⟩ := stringBody_escaped_iff.1 h'
    obtain ⟨rfl, rfl⟩ := ih hbody
    exact ⟨rfl, rfl⟩

theorem Mark.unique {text rest rest' : List Char} {kind kind' : QuoteKind}
    (h : Mark text kind rest) (h' : Mark text kind' rest') : kind = kind' ∧ rest = rest' := by
  cases h <;> cases h'
  case unquote.unquoteSplicing alone => exact absurd rfl alone
  case unquoteSplicing.unquote alone => exact absurd rfl alone
  all_goals exact ⟨rfl, rfl⟩

theorem Mark.exists_cons {text rest : List Char} {kind : QuoteKind} (h : Mark text kind rest) :
    ∃ c tail, text = c :: tail ∧ (c = '\'' ∨ c = '\x60' ∨ c = ',') := by
  cases h <;> exact ⟨_, _, rfl, by decide⟩

/-! ## Forms -/

/-- Where a mark stands, the form is the quoted form of the next one. -/
theorem Mark.form_iff {text behind rest : List Char} {kind : QuoteKind} {v : Value}
    (h : Mark text kind behind) :
    Form text v rest ↔
      ∃ operand spaced, v = .quoted kind operand ∧ Blanks behind spaced ∧
        Form spaced operand rest := by
  constructor
  · intro hform
    obtain ⟨c, tail, rfl, hc⟩ := h.exists_cons
    obtain ⟨kind', operand, behind', spaced, rfl, mark, blanks, form⟩ :=
      (form_quoted_iff hc).1 hform
    obtain ⟨rfl, rfl⟩ := h.unique mark
    exact ⟨operand, spaced, rfl, blanks, form⟩
  · rintro ⟨operand, spaced, rfl, blanks, form⟩
    exact .quoted h blanks form

mutual

/-- **At most one form begins where a text does.** -/
theorem Form.unique : ∀ {text rest rest' : List Char} {v v' : Value}, Form text v rest →
    Form text v' rest' → v = v' ∧ rest = rest'
  | _, _, _, _, _, .atom body hne, h' => by
    obtain ⟨c, tail, rfl, -⟩ := body.exists_cons hne
    obtain ⟨chars', rfl, body', -⟩ := (form_atom_iff (body.ne_special hne)).1 h'
    obtain ⟨rfl, rfl⟩ := body.unique body'
    exact ⟨rfl, rfl⟩
  | _, _, _, _, _, .string body, h' => by
    obtain ⟨chars', rfl, body'⟩ := form_string_iff.1 h'
    obtain ⟨rfl, rfl⟩ := body.unique body'
    exact ⟨rfl, rfl⟩
  | _, _, _, _, _, .list forms, h' => by
    obtain ⟨items', rfl, forms'⟩ := form_list_iff.1 h'
    obtain ⟨rfl, rfl⟩ := Forms.unique forms forms'
    exact ⟨rfl, rfl⟩
  | _, _, _, _, _, .quoted mark blanks form, h' => by
    obtain ⟨operand', spaced', rfl, blanks', form'⟩ := mark.form_iff.1 h'
    obtain rfl := blanks.unique blanks' form.endsBlanksAt form'.endsBlanksAt
    obtain ⟨rfl, rfl⟩ := Form.unique form form'
    exact ⟨rfl, rfl⟩

/-- The same for the elements of a list, up to its closing parenthesis. -/
theorem Forms.unique : ∀ {text rest rest' : List Char} {items items' : List Value},
    Forms text items (')' :: rest) → Forms text items' (')' :: rest') →
      items = items' ∧ rest = rest'
  | _, _, _, _, _, .nil blanks, .nil blanks' => by
    have heq := blanks.unique blanks' (endsBlanksAt_cons (by decide)) (endsBlanksAt_cons (by decide))
    exact ⟨rfl, List.tail_eq_of_cons_eq heq⟩
  | _, _, _, _, _, .nil blanks, .cons blanks' form' _ => by
    obtain rfl := blanks.unique blanks' (endsBlanksAt_cons (by decide)) form'.endsBlanksAt
    exact absurd form' not_form_close
  | _, _, _, _, _, .cons blanks form _, .nil blanks' => by
    obtain rfl := blanks.unique blanks' form.endsBlanksAt (endsBlanksAt_cons (by decide))
    exact absurd form not_form_close
  | _, _, _, _, _, .cons blanks form forms, .cons blanks' form' forms' => by
    obtain rfl := blanks.unique blanks' form.endsBlanksAt form'.endsBlanksAt
    obtain ⟨rfl, rfl⟩ := Form.unique form form'
    obtain ⟨rfl, rfl⟩ := Forms.unique forms forms'
    exact ⟨rfl, rfl⟩

end

/-! ## What is left -/

theorem AtomBody.length_le {text chars rest : List Char} (h : AtomBody text chars rest) :
    rest.length + chars.length ≤ text.length := by
  induction h <;> simp only [List.length_cons, List.length_nil] at * <;> omega

theorem StringBody.length_lt {text chars rest : List Char} (h : StringBody text chars rest) :
    rest.length < text.length := by
  induction h <;> simp only [List.length_cons] at * <;> omega

theorem Mark.length_lt {text rest : List Char} {kind : QuoteKind} (h : Mark text kind rest) :
    rest.length < text.length := by
  cases h <;> simp only [List.length_cons] <;> omega

mutual

/-- **A form takes at least one character.** -/
theorem Form.length_lt : ∀ {text rest : List Char} {v : Value}, Form text v rest →
    rest.length < text.length
  | _, _, _, .atom body hne => by
    have hle := body.length_le
    have hpos := List.length_pos_iff.2 hne
    omega
  | _, _, _, .string body => Nat.lt_succ_of_lt body.length_lt
  | _, _, _, .list forms => by
    have hle := Forms.length_le forms
    rw [List.length_cons] at hle ⊢
    omega
  | _, _, _, .quoted mark blanks form => by
    have hmark := mark.length_lt
    have hblanks := blanks.length_le
    have hform := Form.length_lt form
    omega

theorem Forms.length_le : ∀ {text rest : List Char} {items : List Value},
    Forms text items rest → rest.length ≤ text.length
  | _, _, _, .nil blanks => blanks.length_le
  | _, _, _, .cons blanks form forms => by
    have hblanks := blanks.length_le
    have hform := Form.length_lt form
    have hforms := Forms.length_le forms
    omega

end

end Grammar

end SExpr
