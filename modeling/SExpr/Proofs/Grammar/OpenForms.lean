import SExpr.Reader.Machine
import SExpr.Proofs.Grammar.Unambiguous

/-!
# Forms that are open

A text that ends too early has begun some lists and quoted forms and not completed them.  Which ones
follows from the rules of derivation: in each open form, what stands in front of the next one is
complete.

## What is here

* `Unclosed`, `Fragment` — what is left of a token at the end of a text.
* `Leads` — a text opens forms, up to a place at which another form is missing.
* `OpenAtEnd` — the forms that are open at the end of a text.  No text has two such stacks
  (`OpenAtEnd.unique`).
* `exists_form_or_stuck` — every text begins with a form, or with a closing parenthesis, or leads to
  a place at which no form can begin.
-/

set_option autoImplicit false

namespace SExpr
namespace Grammar

open Reader (Frame)

/-! ## Tokens that are cut off -/

/-- The text is inside of a string up to its end. -/
inductive Unclosed : List Char → Prop where
  | done : Unclosed []
  | cutOff : Unclosed ['\\']
  | plain {c : Char} {text : List Char} (notQuote : c ≠ '"') (notEscape : c ≠ '\\') :
    Unclosed text → Unclosed (c :: text)
  | escaped {c : Char} {text : List Char} : Unclosed text → Unclosed ('\\' :: c :: text)

theorem not_unclosed_quote {text : List Char} : ¬Unclosed ('"' :: text) := by
  intro h
  cases h with
  | plain notQuote => exact absurd rfl notQuote

theorem unclosed_plain_iff {c : Char} {text : List Char} (hquote : c ≠ '"') (hescape : c ≠ '\\') :
    Unclosed (c :: text) ↔ Unclosed text := by
  constructor
  · intro h
    cases h with
    | plain _ _ h => exact h
    | cutOff | escaped => exact absurd rfl hescape
  · exact .plain hquote hescape

theorem unclosed_escaped_iff {c : Char} {text : List Char} :
    Unclosed ('\\' :: c :: text) ↔ Unclosed text := by
  constructor
  · intro h
    cases h with
    | plain _ notEscape => exact absurd rfl notEscape
    | escaped h => exact h
  · exact .escaped

theorem Unclosed.not_stringBody {text chars rest : List Char} (h : Unclosed text) :
    ¬StringBody text chars rest := by
  intro hbody
  induction hbody with
  | done => exact not_unclosed_quote h
  | plain notQuote notEscape _ ih => exact ih ((unclosed_plain_iff notQuote notEscape).1 h)
  | escapedPair _ ih =>
    exact ih ((unclosed_plain_iff (by decide) (by decide)).1 (unclosed_escaped_iff.1 h))
  | escaped _ ih => exact ih (unclosed_escaped_iff.1 h)

/-- **A string is closed, or the text ends in it.** -/
theorem stringBody_or_unclosed : ∀ text : List Char,
    (∃ chars rest, StringBody text chars rest) ∨ Unclosed text
  | [] => Or.inr .done
  | c :: text => by
    by_cases hquote : c = '"'
    · subst hquote
      exact Or.inl ⟨[], text, .done text⟩
    by_cases hescape : c = '\\'
    · subst hescape
      match text with
      | [] => exact Or.inr .cutOff
      | d :: text =>
        rcases stringBody_or_unclosed text with ⟨chars, rest, hbody⟩ | hopen
        · exact Or.inl ⟨_, rest, .escaped hbody⟩
        · exact Or.inr (.escaped hopen)
    · rcases stringBody_or_unclosed text with ⟨chars, rest, hbody⟩ | hopen
      · exact Or.inl ⟨_, rest, .plain hquote hescape hbody⟩
      · exact Or.inr (.plain hquote hescape hopen)

/-- Every text begins with what can belong to an atom, which may be nothing. -/
theorem exists_atomBody (text : List Char) : ∃ chars rest, AtomBody text chars rest := by
  match text with
  | [] => exact ⟨[], [], .done (by rintro c ⟨⟩)⟩
  | c :: text =>
    cases hends : endsAtom c with
    | false =>
      obtain ⟨chars, rest, hbody⟩ := exists_atomBody text
      exact ⟨_, rest, .plain hends hbody⟩
    | true =>
      by_cases hescape : c = '\\'
      · subst hescape
        match text with
        | [] => exact ⟨[], [], .cutOff⟩
        | d :: text =>
          by_cases hpairs : Pairs d text
          · obtain ⟨rfl, hfeed⟩ := hpairs
            obtain ⟨tail, rfl⟩ := List.head?_eq_some_iff.1 hfeed
            obtain ⟨chars, rest, hbody⟩ := exists_atomBody tail
            exact ⟨_, rest, .escapedPair hbody⟩
          · obtain ⟨chars, rest, hbody⟩ := exists_atomBody text
            exact ⟨_, rest, .escaped hpairs hbody⟩
      · refine ⟨[], c :: text, .done ?_⟩
        rintro d ⟨⟩
        exact ⟨hends, hescape⟩
termination_by text.length

/-- What can stand at the end of a text where a form is missing: nothing, a backslash that escapes
nothing, or a string that is not closed. -/
inductive Fragment : List Char → Prop where
  | none : Fragment []
  | escape : Fragment ['\\']
  | string {text : List Char} (unclosed : Unclosed text) : Fragment ('"' :: text)

theorem Fragment.endsBlanksAt {tail : List Char} (h : Fragment tail) : EndsBlanksAt tail := by
  cases h with
  | none => rintro c ⟨⟩
  | escape | string => exact endsBlanksAt_cons (by decide)

/-- No form begins at a fragment. -/
theorem Fragment.not_form {tail rest : List Char} {v : Value} (h : Fragment tail) :
    ¬Form tail v rest := by
  intro hform
  cases h with
  | none =>
    obtain ⟨c, cs, hcons, -⟩ := hform.exists_cons
    cases hcons
  | escape =>
    obtain ⟨chars, -, hbody, hne⟩ := (form_atom_iff (Or.inr rfl)).1 hform
    exact hne (hbody.unique .cutOff).1
  | string unclosed =>
    obtain ⟨chars, -, hbody⟩ := form_string_iff.1 hform
    exact unclosed.not_stringBody hbody

theorem Fragment.not_mark {tail rest : List Char} {kind : QuoteKind} (h : Fragment tail) :
    ¬Mark tail kind rest := by
  intro hmark
  cases h <;> cases hmark

/-! ## Open forms -/

/-- `Leads stack text stack' rest`: inside of the forms of `stack`, the text opens the others of
`stack'`, and what is left is `rest`.  Elements of a list that are complete are passed over. -/
inductive Leads : List Frame → List Char → List Frame → List Char → Prop where
  | stay {stack : List Frame} {text rest : List Char} :
    Blanks text rest → Leads stack text stack rest
  | list {stack stack' : List Frame} {text behind rest : List Char} :
    Blanks text ('(' :: behind) → Leads (.list [] :: stack) behind stack' rest →
    Leads stack text stack' rest
  | element {items : List Value} {outer stack' : List Frame} {v : Value}
    {text spaced behind rest : List Char} :
    Blanks text spaced → Form spaced v behind →
    Leads (.list (v :: items) :: outer) behind stack' rest →
    Leads (.list items :: outer) text stack' rest
  | mark {stack stack' : List Frame} {kind : QuoteKind} {text spaced behind rest : List Char} :
    Blanks text spaced → Mark spaced kind behind →
    Leads (.quoted kind :: stack) behind stack' rest → Leads stack text stack' rest

/-- `OpenAtEnd text stack`: at the end of the text, these forms have begun and are not complete,
the innermost first. -/
inductive OpenAtEnd : List Char → List Frame → Prop where
  | complete {text : List Char} {v : Value} : Input text v → OpenAtEnd text []
  | within {text tail : List Char} {stack : List Frame} :
    Leads [] text stack tail → Fragment tail → OpenAtEnd text stack

variable {stack stack' : List Frame} {text tail : List Char}

theorem Leads.length_le (h : Leads stack text stack' tail) : stack.length ≤ stack'.length := by
  induction h with
  | stay => exact Nat.le_refl _
  | list _ _ ih | mark _ _ _ ih => exact Nat.le_of_succ_le ih
  | element _ _ _ ih => exact ih

/-- What is left is no longer than the text. -/
theorem Leads.tail_length_le (h : Leads stack text stack' tail) : tail.length ≤ text.length := by
  induction h with
  | stay blanks => exact blanks.length_le
  | list blanks _ ih => exact Nat.le_trans (Nat.le_succ_of_le ih) blanks.length_le
  | element blanks form _ ih =>
    exact Nat.le_trans ih (Nat.le_trans (Nat.le_of_lt form.length_lt) blanks.length_le)
  | mark blanks mark _ ih =>
    exact Nat.le_trans ih (Nat.le_trans (Nat.le_of_lt mark.length_lt) blanks.length_le)

/-- In front of the first form there are only blanks. -/
theorem Leads.blanks (h : Leads [] text [] tail) : Blanks text tail := by
  cases h with
  | stay blanks => exact blanks
  | list _ leads | mark _ _ leads => exact absurd leads.length_le (by simp)

/-- Blanks in front make no difference. -/
theorem Leads.unspaced {spaced : List Char} (h : Leads stack text stack' tail)
    (hblanks : Blanks text spaced) (htail : EndsBlanksAt tail) :
    Leads stack spaced stack' tail := by
  cases h with
  | stay blanks => exact .stay (hblanks.unspaced blanks htail)
  | list blanks leads => exact .list (hblanks.unspaced blanks (endsBlanksAt_cons (by decide))) leads
  | element blanks form leads =>
    exact .element (hblanks.unspaced blanks form.endsBlanksAt) form leads
  | mark blanks mark leads => exact .mark (hblanks.unspaced blanks mark.endsBlanksAt) mark leads

/-- **What a text leads to, by what it begins with:** it is stuck there, a list or a quoted form
begins, or an element of a list. -/
theorem Leads.next (h : Leads stack text stack' tail) (htext : EndsBlanksAt text) :
    (tail = text ∧ stack' = stack) ∨
      (∃ behind, text = '(' :: behind ∧ Leads (.list [] :: stack) behind stack' tail) ∨
      (∃ items outer v behind, stack = .list items :: outer ∧ Form text v behind ∧
        Leads (.list (v :: items) :: outer) behind stack' tail) ∨
      ∃ kind behind, Mark text kind behind ∧ Leads (.quoted kind :: stack) behind stack' tail := by
  cases h with
  | stay blanks => exact Or.inl ⟨blanks.eq_of_endsBlanksAt htext, rfl⟩
  | list blanks leads =>
    exact Or.inr (Or.inl ⟨_, (blanks.eq_of_endsBlanksAt htext).symm, leads⟩)
  | element blanks form leads =>
    obtain rfl := blanks.eq_of_endsBlanksAt htext
    exact Or.inr (Or.inr (Or.inl ⟨_, _, _, _, rfl, form, leads⟩))
  | mark blanks mark leads =>
    obtain rfl := blanks.eq_of_endsBlanksAt htext
    exact Or.inr (Or.inr (Or.inr ⟨_, _, mark, leads⟩))

/-- A fragment opens nothing. -/
theorem Leads.of_fragment (h : Leads stack text stack' tail) (htext : Fragment text) :
    stack' = stack := by
  rcases h.next htext.endsBlanksAt with
    ⟨-, hstack⟩ | ⟨behind, rfl, -⟩ | ⟨items, outer, v, behind, -, form, -⟩ | ⟨kind, behind, mark, -⟩
  · exact hstack
  · cases htext
  · exact absurd form htext.not_form
  · exact absurd mark htext.not_mark

/-- A text is stuck in front of a closing parenthesis. -/
theorem Leads.of_close (h : Leads stack (')' :: text) stack' tail) : tail = ')' :: text := by
  rcases h.next (endsBlanksAt_cons (by decide)) with
    ⟨htail, -⟩ | ⟨behind, htext, -⟩ | ⟨items, outer, v, behind, -, form, -⟩ |
      ⟨kind, behind, mark, -⟩
  · exact htail
  · cases htext
  · exact absurd form not_form_close
  · cases mark

/-! ## There is one way to open forms -/

mutual

/-- **What is complete is not opened.**  Where a form begins, a text leads on only inside of a list,
and behind that form. -/
theorem Leads.of_form {stack stack' : List Frame} {text tail rest : List Char} {v : Value}
    (h : Leads stack text stack' tail) (htail : Fragment tail) (hform : Form text v rest) :
    ∃ items outer, stack = .list items :: outer ∧
      Leads (.list (v :: items) :: outer) rest stack' tail := by
  rcases h.next hform.endsBlanksAt with
    ⟨rfl, -⟩ | ⟨behind, htext, leads⟩ | ⟨items, outer, v', behind, hstack, form, leads⟩ |
      ⟨kind, behind, mark, leads⟩
  · exact absurd hform htail.not_form
  · have hlength : behind.length < text.length := by
      rw [htext]
      exact Nat.lt_succ_self _
    rw [htext] at hform
    obtain ⟨more, rfl, hforms⟩ := form_list_iff.1 hform
    exact absurd hforms (Leads.not_forms leads htail)
  · obtain ⟨rfl, rfl⟩ := form.unique hform
    exact ⟨items, outer, hstack, leads⟩
  · have hlength := mark.length_lt
    exact absurd hform (Leads.not_form_of_mark leads htail mark)
termination_by 2 * text.length
decreasing_by all_goals omega

/-- The elements of a list that is closed lead nowhere. -/
theorem Leads.not_forms {stack' outer : List Frame} {text tail rest : List Char}
    {items more : List Value} (h : Leads (.list items :: outer) text stack' tail)
    (htail : Fragment tail) : ¬Forms text more (')' :: rest) := by
  intro hforms
  cases hforms with
  | nil blanks =>
    obtain rfl := (h.unspaced blanks htail.endsBlanksAt).of_close
    cases htail
  | cons blanks form forms =>
    have hblanks := blanks.length_le
    have hlength := form.length_lt
    obtain ⟨items', outer', hstack, leads⟩ :=
      Leads.of_form (h.unspaced blanks htail.endsBlanksAt) htail form
    cases hstack
    exact Leads.not_forms leads htail forms
termination_by 2 * text.length + 1
decreasing_by all_goals omega

/-- A mark that has opened a form is not part of a complete one. -/
theorem Leads.not_form_of_mark {stack stack' : List Frame} {text behind tail rest : List Char}
    {kind : QuoteKind} {v : Value} (h : Leads (.quoted kind :: stack) behind stack' tail)
    (htail : Fragment tail) (hmark : Mark text kind behind) : ¬Form text v rest := by
  intro hform
  obtain ⟨operand, spaced, rfl, hspaced, hoperand⟩ := hmark.form_iff.1 hform
  have hlength := hspaced.length_le
  obtain ⟨items, outer, hstack, -⟩ :=
    Leads.of_form (h.unspaced hspaced htail.endsBlanksAt) htail hoperand
  cases hstack
termination_by 2 * behind.length + 1
decreasing_by all_goals omega

end

/-- **At most one stack of forms is open at the end of a text.** -/
theorem Leads.unique {stack₁ stack₂ : List Frame} {tail₁ tail₂ : List Char}
    (h₁ : Leads stack text stack₁ tail₁) (h₂ : Leads stack text stack₂ tail₂)
    (htail₁ : Fragment tail₁) (htail₂ : Fragment tail₂) : stack₁ = stack₂ := by
  induction h₁ with
  | stay blanks => exact ((h₂.unspaced blanks htail₂.endsBlanksAt).of_fragment htail₁).symm
  | list blanks leads ih =>
    rcases (h₂.unspaced blanks htail₂.endsBlanksAt).next (endsBlanksAt_cons (by decide)) with
      ⟨rfl, -⟩ | ⟨behind, htext, leads₂⟩ | ⟨items, outer, v, behind, -, form, -⟩ |
        ⟨kind, behind, mark, -⟩
    · cases htail₂
    · cases htext
      exact ih leads₂ htail₁
    · obtain ⟨more, rfl, hforms⟩ := form_list_iff.1 form
      exact absurd hforms (leads.not_forms htail₁)
    · cases mark
  | element blanks form leads ih =>
    obtain ⟨items, outer, hstack, leads₂⟩ :=
      (h₂.unspaced blanks htail₂.endsBlanksAt).of_form htail₂ form
    cases hstack
    exact ih leads₂ htail₁
  | mark blanks mark leads ih =>
    rcases (h₂.unspaced blanks htail₂.endsBlanksAt).next mark.endsBlanksAt with
      ⟨rfl, -⟩ | ⟨behind, rfl, -⟩ | ⟨items, outer, v, behind, -, form, -⟩ |
        ⟨kind, behind, mark₂, leads₂⟩
    · exact absurd mark htail₂.not_mark
    · cases mark
    · exact absurd form (leads.not_form_of_mark htail₁ mark)
    · obtain ⟨rfl, rfl⟩ := mark.unique mark₂
      exact ih leads₂ htail₁

/-- A text with an open form is not a whole text of the grammar. -/
theorem Leads.not_input {v : Value} (h : Leads [] text stack' tail) (htail : Fragment tail) :
    ¬Input text v := by
  rintro (_ | ⟨blanks, form, -⟩)
  obtain ⟨items, outer, hstack, -⟩ := (h.unspaced blanks htail.endsBlanksAt).of_form htail form
  cases hstack

theorem OpenAtEnd.unique (h : OpenAtEnd text stack) (h' : OpenAtEnd text stack') :
    stack = stack' := by
  cases h with
  | complete input =>
    cases h' with
    | complete => rfl
    | within leads htail => exact absurd input (leads.not_input htail)
  | within leads htail =>
    cases h' with
    | complete input => exact absurd input (leads.not_input htail)
    | within leads' htail' => exact leads.unique leads' htail htail'

/-! ## How far a text goes -/

/-- `Stuck stack text`: inside of these forms, none begins and none is closed. -/
inductive Stuck (stack : List Frame) : List Char → Prop where
  | fragment {text : List Char} : Fragment text → Stuck stack text
  | close {text : List Char} (notList : ∀ items outer, stack ≠ .list items :: outer) :
    Stuck stack (')' :: text)

theorem Stuck.endsBlanksAt (h : Stuck stack text) : EndsBlanksAt text := by
  cases h with
  | fragment hfragment => exact hfragment.endsBlanksAt
  | close => exact endsBlanksAt_cons (by decide)

theorem exists_mark {c : Char} (h : c = '\'' ∨ c = '\x60' ∨ c = ',') (text : List Char) :
    ∃ kind behind, Mark (c :: text) kind behind := by
  rcases h with rfl | rfl | rfl
  · exact ⟨_, _, .quote text⟩
  · exact ⟨_, _, .quasiquote text⟩
  · by_cases hat : text.head? = some '@'
    · obtain ⟨tail, rfl⟩ := List.head?_eq_some_iff.1 hat
      exact ⟨_, _, .unquoteSplicing tail⟩
    · exact ⟨_, _, .unquote hat⟩

/-- What begins with an atom or a string is a form, or a fragment of one. -/
theorem form_or_fragment {c : Char} (hblank : isBlank c = false) (hopen : c ≠ '(') (hclose : c ≠ ')')
    (hmark : ¬(c = '\'' ∨ c = '\x60' ∨ c = ',')) (text : List Char) :
    (∃ v rest, Form (c :: text) v rest) ∨ Fragment (c :: text) := by
  rcases lead_cases c with hc | hc | hc | rfl | rfl | hc | hc | hc | hc
  · rw [hblank] at hc
    cases hc
  · exact absurd hc hopen
  · exact absurd hc hclose
  · rcases stringBody_or_unclosed text with ⟨chars, rest, hbody⟩ | hunclosed
    · exact Or.inl ⟨_, rest, .string hbody⟩
    · exact Or.inr (.string hunclosed)
  · obtain ⟨chars, rest, hbody⟩ := exists_atomBody ('\\' :: text)
    cases chars with
    | nil =>
      -- only at the end of the text does a backslash add nothing
      cases hbody with
      | done ends => exact absurd rfl (ends '\\' rfl).2
      | cutOff => exact Or.inr .escape
    | cons d chars => exact Or.inl ⟨_, rest, .atom hbody (List.cons_ne_nil d chars)⟩
  · exact absurd (Or.inl hc) hmark
  · exact absurd (Or.inr (Or.inl hc)) hmark
  · exact absurd (Or.inr (Or.inr hc)) hmark
  · obtain ⟨chars, rest, hbody⟩ := exists_atomBody text
    exact Or.inl ⟨_, rest, .atom (.plain hc hbody) (List.cons_ne_nil c chars)⟩

mutual

/-- **How a text can go on:** with a form, with a closing parenthesis, or up to a place at which it
is stuck. -/
theorem exists_form_or_stuck (text : List Char) :
    (∃ spaced v rest, Blanks text spaced ∧ Form spaced v rest) ∨
      (∃ rest, Blanks text (')' :: rest)) ∨
      ∀ stack, ∃ stack' tail, Leads stack text stack' tail ∧ Stuck stack' tail := by
  obtain ⟨start, hblanks, hstart⟩ := exists_blanks text
  have hfragment : Fragment start →
      ∀ stack, ∃ stack' tail, Leads stack text stack' tail ∧ Stuck stack' tail :=
    fun h stack => ⟨stack, start, .stay hblanks, .fragment h⟩
  match start with
  | [] => exact Or.inr (Or.inr (hfragment .none))
  | c :: behind =>
    have hbehind : behind.length < text.length := hblanks.length_le
    by_cases hopen : c = '('
    · subst hopen
      rcases exists_forms_or_stuck behind with ⟨items, rest, hforms⟩ | hstuck
      · exact Or.inl ⟨_, _, rest, hblanks, .list hforms⟩
      · refine Or.inr (Or.inr fun stack => ?_)
        obtain ⟨stack', tail, hleads, hstuck⟩ := hstuck [] stack
        exact ⟨stack', tail, .list hblanks hleads, hstuck⟩
    by_cases hmark : c = '\'' ∨ c = '\x60' ∨ c = ','
    · obtain ⟨kind, after, mark⟩ := exists_mark hmark behind
      have hafter : after.length < text.length :=
        Nat.lt_of_lt_of_le mark.length_lt hblanks.length_le
      rcases exists_form_or_stuck after with
        ⟨spaced, v, rest, hspaced, hform⟩ | ⟨rest, hclose⟩ | hstuck
      · exact Or.inl ⟨_, _, rest, hblanks, .quoted mark hspaced hform⟩
      · -- the mark has no operand
        refine Or.inr (Or.inr fun stack =>
          ⟨.quoted kind :: stack, _, .mark hblanks mark (.stay hclose), .close ?_⟩)
        rintro items outer ⟨⟩
      · refine Or.inr (Or.inr fun stack => ?_)
        obtain ⟨stack', tail, hleads, hstuck⟩ := hstuck (.quoted kind :: stack)
        exact ⟨stack', tail, .mark hblanks mark hleads, hstuck⟩
    by_cases hclose : c = ')'
    · subst hclose
      exact Or.inr (Or.inl ⟨behind, hblanks⟩)
    rcases form_or_fragment (hstart c rfl) hopen hclose hmark behind with ⟨v, rest, hform⟩ | h
    · exact Or.inl ⟨_, v, rest, hblanks, hform⟩
    · exact Or.inr (Or.inr (hfragment h))
termination_by 2 * text.length
decreasing_by all_goals omega

/-- The same for the elements of a list. -/
theorem exists_forms_or_stuck (text : List Char) :
    (∃ items rest, Forms text items (')' :: rest)) ∨
      ∀ items outer, ∃ stack' tail,
        Leads (.list items :: outer) text stack' tail ∧ Stuck stack' tail := by
  rcases exists_form_or_stuck text with ⟨spaced, v, behind, hblanks, hform⟩ | ⟨rest, hblanks⟩ | h
  · have hspaced := hblanks.length_le
    have hbehind := hform.length_lt
    rcases exists_forms_or_stuck behind with ⟨items, rest, hforms⟩ | hstuck
    · exact Or.inl ⟨v :: items, rest, .cons hblanks hform hforms⟩
    · refine Or.inr fun items outer => ?_
      obtain ⟨stack', tail, hleads, hstuck⟩ := hstuck (v :: items) outer
      exact ⟨stack', tail, .element hblanks hform hleads, hstuck⟩
  · exact Or.inl ⟨[], rest, .nil hblanks⟩
  · exact Or.inr fun items outer => h (.list items :: outer)
termination_by 2 * text.length + 1
decreasing_by all_goals omega

end

end Grammar

end SExpr
