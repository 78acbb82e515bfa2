import SExpr.Proofs.Grammar.Unambiguous
import SExpr.Proofs.Printer.ReadBack

/-!
# Printing without escapes

A value that is printed without escapes is read back if its leaves need none: its atoms are bare
words, its strings hold neither a quotation mark nor a backslash, and no comma is written in front
of an at sign.  No other value is.  What is read could be wrong in several places that make up for
each other, so the leaves are not compared one by one.  Instead the backslashes of the whole text
are counted: reading makes at most one of two, so a value that is read back holds none, and then the
rest of what is read is as it was written.

## What is here

* `Value.NeedsNoEscape` — the values that are read back.
* `backslashes`, `Form.two_mul_backslashes_add_le` — what reading makes of backslashes.
* `Form.bare` — what is read from a text without backslashes.
* `forms_verbatim_iff` — the lines of a value with such leaves.
* `parseWith_print_verbatim_iff` — which values are read back, in both styles.
-/

set_option autoImplicit false

namespace SExpr

open Grammar

/-! ## Leaves that need no escape -/

/-- A text that is an atom as it stands. -/
def IsBareWord (text : String) : Prop :=
  text ≠ "" ∧ ∀ c ∈ text.toList, endsAtom c = false

/-- A text that is the contents of a string as it stands. -/
def IsRawContents (text : String) : Prop :=
  ∀ c ∈ text.toList, c ≠ '"' ∧ c ≠ '\\'

/-- A text that turns a comma in front of it into another mark. -/
def BeginsWithAt (text : String) : Prop :=
  text.toList.head? = some '@'

namespace Value

/-- Does a value, printed in this style, mean the same with escapes and without? -/
structure NeedsNoEscape (style : QuoteStyle) (v : Value) : Prop where
  /-- All atoms can stand bare. -/
  atoms : ∀ a ∈ v.atoms, IsBareWord a
  /-- All strings can stand between quotation marks. -/
  strings : ∀ s ∈ v.strings, IsRawContents s
  /-- Where a comma is written, no at sign follows. -/
  unquoted : style = .shorthand → ∀ a ∈ v.unquotedAtoms, ¬BeginsWithAt a

end Value

/-! ## Counting backslashes -/

/-- How many backslashes several texts hold. -/
def backslashes (texts : List String) : Nat :=
  (texts.flatMap String.toList).count '\\'

@[simp] theorem backslashes_nil : backslashes [] = 0 := rfl

@[simp] theorem backslashes_singleton (text : String) :
    backslashes [text] = text.toList.count '\\' := by
  simp [backslashes]

@[simp] theorem backslashes_append (texts others : List String) :
    backslashes (texts ++ others) = backslashes texts + backslashes others := by
  simp [backslashes]

namespace Grammar

variable {text chars rest : List Char}

theorem Blanks.count_le (h : Blanks text rest) : rest.count '\\' ≤ text.count '\\' := by
  induction h with
  | none => exact Nat.le_refl _
  | cons _ _ ih => exact Nat.le_trans ih List.count_le_count_cons

theorem Mark.count_le {kind : QuoteKind} (h : Mark text kind rest) :
    rest.count '\\' ≤ text.count '\\' := by
  cases h <;> simp

/-- Behind a backslash, one more may be read, if another one stands there. -/
theorem two_mul_count_cons_le {c d : Char} {n : Nat} (hd : d = '\\' → c = '\\')
    (h : 2 * chars.count '\\' + n ≤ text.count '\\') :
    2 * (d :: chars).count '\\' + n ≤ ('\\' :: c :: text).count '\\' := by
  by_cases hescape : d = '\\'
  · obtain rfl := hd hescape
    rw [hescape]
    simp only [List.count_cons_self]
    omega
  · have hc : text.count '\\' ≤ (c :: text).count '\\' := List.count_le_count_cons
    rw [List.count_cons_of_ne hescape, List.count_cons_self]
    omega

theorem AtomBody.two_mul_count_add_le (h : AtomBody text chars rest) :
    2 * chars.count '\\' + rest.count '\\' ≤ text.count '\\' := by
  induction h with
  | done | cutOff => simp
  | plain plain _ ih =>
    have hne := ne_of_endsAtom plain (d := '\\') (by decide)
    rwa [List.count_cons_of_ne hne, List.count_cons_of_ne hne]
  | escapedPair _ ih => simpa using Nat.le_succ_of_le ih
  | escaped _ _ ih => exact two_mul_count_cons_le id ih

/-- Only a backslash denotes a backslash. -/
theorem eq_of_denoted_eq {c : Char} (h : Escape.denoted c = '\\') : c = '\\' := by
  unfold Escape.denoted at h
  split at h
  case h_6 => exact h
  all_goals cases h

theorem StringBody.two_mul_count_add_le (h : StringBody text chars rest) :
    2 * chars.count '\\' + rest.count '\\' ≤ text.count '\\' := by
  induction h with
  | done => simp
  | plain _ notEscape _ ih => rwa [List.count_cons_of_ne notEscape, List.count_cons_of_ne notEscape]
  | escapedPair _ ih => simpa using Nat.le_succ_of_le ih
  | escaped _ ih => exact two_mul_count_cons_le eq_of_denoted_eq ih

mutual

/-- **Reading makes at most one backslash of two.** -/
theorem Form.two_mul_backslashes_add_le : ∀ {text rest : List Char} {v : Value},
    Form text v rest →
      2 * (backslashes v.atoms + backslashes v.strings) + rest.count '\\' ≤ text.count '\\'
  | _, _, _, .atom body _ => by
    simpa [Value.atoms, Value.strings] using body.two_mul_count_add_le
  | _, _, _, .string body => by
    simpa [Value.atoms, Value.strings] using body.two_mul_count_add_le
  | _, _, _, .list forms => by
    simpa [Value.atoms, Value.strings] using Forms.two_mul_backslashes_add_le forms
  | _, _, _, .quoted mark blanks form => by
    have hform := Form.two_mul_backslashes_add_le form
    exact Nat.le_trans hform (Nat.le_trans blanks.count_le mark.count_le)

theorem Forms.two_mul_backslashes_add_le : ∀ {text rest : List Char} {items : List Value},
    Forms text items rest →
      2 * (backslashes (Value.atomsAll items) + backslashes (Value.stringsAll items)) +
        rest.count '\\' ≤ text.count '\\'
  | _, _, _, .nil blanks => by simpa [Value.atomsAll, Value.stringsAll] using blanks.count_le
  | _, _, _, .cons blanks form forms => by
    have hblanks := blanks.count_le
    have hform := Form.two_mul_backslashes_add_le form
    have hforms := Forms.two_mul_backslashes_add_le forms
    simp only [Value.atomsAll, Value.stringsAll, backslashes_append]
    omega

end

/-! ## Texts without backslashes -/

theorem AtomBody.bare (h : AtomBody text chars rest) (hescape : '\\' ∉ text) :
    ∀ c ∈ chars, endsAtom c = false := by
  induction h with
  | done => simp
  | plain plain _ ih =>
    rw [List.forall_mem_cons]
    exact ⟨plain, ih fun hmem => hescape (List.mem_cons_of_mem _ hmem)⟩
  | escapedPair | escaped | cutOff => exact absurd List.mem_cons_self hescape

theorem StringBody.raw (h : StringBody text chars rest) (hescape : '\\' ∉ text) :
    ∀ c ∈ chars, c ≠ '"' ∧ c ≠ '\\' := by
  induction h with
  | done => simp
  | plain notQuote notEscape _ ih =>
    rw [List.forall_mem_cons]
    exact ⟨⟨notQuote, notEscape⟩, ih fun hmem => hescape (List.mem_cons_of_mem _ hmem)⟩
  | escapedPair | escaped => exact absurd List.mem_cons_self hescape

/-- What is left of a text without backslashes has none. -/
theorem not_mem_of_count_le (hescape : '\\' ∉ text) (h : rest.count '\\' ≤ text.count '\\') :
    '\\' ∉ rest := by
  rw [← List.count_eq_zero] at hescape ⊢
  omega

mutual

/-- **What is read from a text without backslashes has leaves that need none.** -/
theorem Form.bare : ∀ {text rest : List Char} {v : Value}, Form text v rest → '\\' ∉ text →
    (∀ a ∈ v.atoms, IsBareWord a) ∧ ∀ s ∈ v.strings, IsRawContents s
  | _, _, _, .atom body hne, hescape => by
    have hbare := body.bare hescape
    refine ⟨?_, by simp [Value.strings]⟩
    rintro a ha
    obtain rfl := List.mem_singleton.1 ha
    exact ⟨by simpa using hne, by simpa using hbare⟩
  | _, _, _, .string body, hescape => by
    have hraw := body.raw fun hmem => hescape (List.mem_cons_of_mem _ hmem)
    simpa [Value.atoms, Value.strings, IsRawContents] using hraw
  | _, _, _, .list forms, hescape =>
    Forms.bare forms fun hmem => hescape (List.mem_cons_of_mem _ hmem)
  | _, _, _, .quoted mark blanks form, hescape => by
    have hspaced := not_mem_of_count_le hescape (Nat.le_trans blanks.count_le mark.count_le)
    have hform := Form.bare form hspaced
    exact hform

theorem Forms.bare : ∀ {text rest : List Char} {items : List Value}, Forms text items rest →
    '\\' ∉ text →
    (∀ a ∈ Value.atomsAll items, IsBareWord a) ∧ ∀ s ∈ Value.stringsAll items, IsRawContents s
  | _, _, _, .nil _, _ => by simp [Value.atomsAll, Value.stringsAll]
  | _, _, _, .cons blanks form forms, hescape => by
    have hspaced := not_mem_of_count_le hescape blanks.count_le
    have hform := form.two_mul_backslashes_add_le
    have hv := Form.bare form hspaced
    have hitems := Forms.bare forms (not_mem_of_count_le hspaced (by omega))
    simp only [Value.atomsAll, Value.stringsAll, List.forall_mem_append]
    exact ⟨⟨hv.1, hitems.1⟩, hv.2, hitems.2⟩

end

end Grammar

namespace Value

variable {width : Nat}

/-! ## What is written -/

mutual

/-- **Without escapes, the backslashes that are written are those of the leaves.** -/
theorem count_verbatim : ∀ (v : Value) (level : Nat) (marks : List QuoteKind),
    (written ⟨width, false, .shorthand⟩ level marks v).count '\\' =
      backslashes v.atoms + backslashes v.strings
  | .atom text, level, marks => by
    simp [written_atom, writeAtom_verbatim, atoms, strings, count_indentation_eq_zero,
      count_markChars_eq_zero]
  | .string text, level, marks => by
    simp [written_string, toList_writeString_verbatim, atoms, strings, count_indentation_eq_zero,
      count_markChars_eq_zero]
  | .list items, level, marks => by
    simp [written_list, atoms, strings, count_indentation_eq_zero, count_markChars_eq_zero,
      count_verbatimAll items (level + 1)]
  | .quoted kind operand, level, marks => count_verbatim operand level (kind :: marks)

theorem count_verbatimAll : ∀ (vs : List Value) (level : Nat),
    (writtenAll ⟨width, false, .shorthand⟩ level vs).count '\\' =
      backslashes (atomsAll vs) + backslashes (stringsAll vs)
  | [], level => rfl
  | v :: vs, level => by
    rw [writtenAll_cons, List.count_append, count_verbatim v level [],
      count_verbatimAll vs level, atomsAll, stringsAll, backslashes_append, backslashes_append]
    omega

end

/-! ## Atoms behind a comma -/

theorem unquotedAtoms_wrap_quoted (marks : List QuoteKind) (kind : QuoteKind) (v : Value) :
    (wrap marks (.quoted kind v)).unquotedAtoms = (quoted kind v).unquotedAtoms := by
  induction marks generalizing kind v with
  | nil => rfl
  | cons outer marks ih =>
    rw [wrap_cons, ih]
    cases outer <;> rfl

/-- Marks in front of anything but an atom make no difference. -/
theorem unquotedAtoms_wrap (marks : List QuoteKind) {v : Value} (h : ∀ text, v ≠ .atom text) :
    (wrap marks v).unquotedAtoms = v.unquotedAtoms := by
  cases marks with
  | nil => rfl
  | cons kind marks =>
    rw [wrap_cons, unquotedAtoms_wrap_quoted]
    cases v with
    | atom text => exact absurd rfl (h text)
    | string | list | quoted => cases kind <;> rfl

theorem forall_unquotedAtoms_wrap_atom (marks : List QuoteKind) (text : String) :
    (∀ a ∈ (wrap marks (.atom text)).unquotedAtoms, ¬BeginsWithAt a) ↔
      (marks.head? = some .unquote → ¬BeginsWithAt text) := by
  cases marks with
  | nil => simp [unquotedAtoms]
  | cons kind marks =>
    rw [wrap_cons, unquotedAtoms_wrap_quoted]
    cases kind <;> simp [unquotedAtoms]

theorem wrap_inj {marks : List QuoteKind} {v w : Value} (h : wrap marks v = wrap marks w) :
    v = w := by
  induction marks generalizing v w with
  | nil => exact h
  | cons kind marks ih => exact (Value.quoted.inj (ih h)).2

/-! ## Lines that are read back -/

theorem atomBody_bare_iff {cs tail chars rest : List Char} (h : ∀ c ∈ cs, endsAtom c = false) :
    AtomBody (cs ++ '\n' :: tail) chars rest ↔ chars = cs ∧ rest = '\n' :: tail := by
  induction cs generalizing chars with
  | nil => exact atomBody_ends_iff (endsAtomAt_lf tail)
  | cons c cs ih =>
    rw [List.forall_mem_cons] at h
    rw [List.cons_append, atomBody_plain_iff h.1]
    constructor
    · rintro ⟨more, rfl, hbody⟩
      obtain ⟨rfl, rfl⟩ := (ih h.2).1 hbody
      exact ⟨rfl, rfl⟩
    · rintro ⟨rfl, rfl⟩
      exact ⟨cs, rfl, (ih h.2).2 ⟨rfl, rfl⟩⟩

theorem stringBody_raw_iff {cs tail chars rest : List Char} (h : ∀ c ∈ cs, c ≠ '"' ∧ c ≠ '\\') :
    StringBody (cs ++ '"' :: tail) chars rest ↔ chars = cs ∧ rest = tail := by
  induction cs generalizing chars with
  | nil => exact stringBody_quote_iff
  | cons c cs ih =>
    rw [List.forall_mem_cons] at h
    rw [List.cons_append, stringBody_plain_iff h.1.1 h.1.2]
    constructor
    · rintro ⟨more, rfl, hbody⟩
      obtain ⟨rfl, rfl⟩ := (ih h.2).1 hbody
      exact ⟨rfl, rfl⟩
    · rintro ⟨rfl, rfl⟩
      exact ⟨cs, rfl, (ih h.2).2 ⟨rfl, rfl⟩⟩

/-- A comma in front of an at sign is not read as it was meant. -/
theorem not_forms_comma_at (level : Nat) (marks : List QuoteKind) {text : String} (v : Value)
    {tail rest : List Char} {more : List Value} (hat : BeginsWithAt text)
    (hrest : EndsFormsAt rest) :
    ¬Forms (indentation width level ++ (markChars (.unquote :: marks) ++ (text.toList ++ tail)))
      (wrap (.unquote :: marks) v :: more) rest := by
  obtain ⟨cs, hcs⟩ := List.head?_eq_some_iff.1 hat
  have hcomma : markChars (.unquote :: marks) ++ (text.toList ++ tail) =
      markChars marks ++ ',' :: '@' :: (cs ++ tail) := by
    rw [markChars_cons, hcs, List.append_assoc]
    rfl
  rw [hcomma, forms_line_iff width level marks (by decide) (by decide) (fun _ => by decide) hrest]
  rintro ⟨x, behind, others, heq, hform, -⟩
  obtain ⟨operand, spaced, rfl, -⟩ := (Mark.unquoteSplicing (cs ++ tail)).form_iff.1 hform
  have hwrap : wrap marks (.quoted .unquote v) = wrap marks (.quoted .unquoteSplicing operand) :=
    (List.cons.inj heq).1
  cases wrap_inj hwrap

/-- A bare word is read as it stands, unless it is behind a comma and begins with an at sign. -/
theorem forms_bareWord_iff (level : Nat) {marks : List QuoteKind} {text : String}
    {tail rest : List Char} {more : List Value} (hword : IsBareWord text)
    (hmark : marks.head? = some .unquote → ¬BeginsWithAt text) (hrest : EndsFormsAt rest) :
    Forms (indentation width level ++ (markChars marks ++ (text.toList ++ '\n' :: tail)))
      (wrap marks (.atom text) :: more) rest ↔ Forms tail more rest := by
  obtain ⟨hne, hbare⟩ := hword
  obtain ⟨c, cs, hcs⟩ := List.exists_cons_of_ne_nil (l := text.toList) (by simpa using hne)
  have hc : marks.head? = some .unquote → c ≠ '@' := by
    rintro hm rfl
    exact hmark hm (by rw [BeginsWithAt, hcs]; rfl)
  have hline := @forms_word_iff width level marks c (cs ++ '\n' :: tail) rest
    (wrap marks (.atom text) :: more) (Or.inl (hbare c (by rw [hcs]; exact List.mem_cons_self)))
    hc hrest
  rw [← List.cons_append, ← hcs] at hline
  rw [hline]
  constructor
  · rintro ⟨chars, behind, others, heq, hbody, -, hforms⟩
    obtain ⟨rfl, rfl⟩ := (atomBody_bare_iff hbare).1 hbody
    obtain ⟨-, rfl⟩ := List.cons.inj heq
    exact (forms_lf_iff hrest).1 hforms
  · intro hforms
    refine ⟨text.toList, '\n' :: tail, more, by rw [String.ofList_toList],
      (atomBody_bare_iff hbare).2 ⟨rfl, rfl⟩, by simp [hcs], (forms_lf_iff hrest).2 hforms⟩

mutual

/-- **The lines of a value whose leaves need no escape are read as that value**, and nothing behind
them takes part, unless a comma stands in front of an at sign. -/
theorem forms_verbatim_iff : ∀ (v : Value), (∀ a ∈ v.atoms, IsBareWord a) →
    (∀ s ∈ v.strings, IsRawContents s) →
    ∀ (level : Nat) (marks : List QuoteKind) {tail rest : List Char} {more : List Value},
      EndsFormsAt rest →
      (Forms (written ⟨width, false, .shorthand⟩ level marks v ++ tail) (wrap marks v :: more)
          rest ↔
        (∀ a ∈ (wrap marks v).unquotedAtoms, ¬BeginsWithAt a) ∧ Forms tail more rest)
  | .atom text, hatoms, _, level, marks, tail, rest, more, hrest => by
    rw [forall_unquotedAtoms_wrap_atom, written_atom, writeAtom_verbatim]
    simp only [List.append_assoc, List.singleton_append]
    by_cases hjoin : marks.head? = some .unquote ∧ BeginsWithAt text
    · obtain ⟨hmark, hat⟩ := hjoin
      obtain ⟨outer, rfl⟩ := List.head?_eq_some_iff.1 hmark
      exact iff_of_false (not_forms_comma_at level outer (.atom text) hat hrest)
        fun h => h.1 rfl hat
    · have hmark : marks.head? = some .unquote → ¬BeginsWithAt text := fun hm hat =>
        hjoin ⟨hm, hat⟩
      rw [and_iff_right hmark]
      exact forms_bareWord_iff level (hatoms text List.mem_cons_self) hmark hrest
  | .string text, _, hstrings, level, marks, tail, rest, more, hrest => by
    have hraw := hstrings text List.mem_cons_self
    have hnone : (wrap marks (.string text)).unquotedAtoms = [] :=
      unquotedAtoms_wrap marks (by simp)
    rw [hnone, written_string, toList_writeString_verbatim]
    simp only [List.append_assoc, List.cons_append, List.nil_append]
    rw [forms_literal_iff level marks (stringBody_raw_iff hraw) hrest]
    simp
  | .list items, hatoms, hstrings, level, marks, tail, rest, more, hrest => by
    have hitems : (wrap marks (.list items)).unquotedAtoms = unquotedAtomsAll items :=
      unquotedAtoms_wrap marks (by simp)
    have helements : ∀ {behind : List Char},
        Forms (writtenAll ⟨width, false, .shorthand⟩ (level + 1) items ++
          (indentation width level ++ ([')', '\n'] ++ tail))) items (')' :: behind) ↔
          (∀ a ∈ unquotedAtomsAll items, ¬BeginsWithAt a) ∧ behind = '\n' :: tail := by
      intro behind
      have hall := @forms_verbatimAll_iff items hatoms hstrings (level + 1)
        (indentation width level ++ ([')', '\n'] ++ tail)) (')' :: behind) []
        (endsFormsAt_close behind)
      rw [List.append_nil] at hall
      rw [hall, forms_close_line_iff]
      simp
    rw [hitems, written_list]
    simp only [List.append_assoc, List.cons_append, List.nil_append] at helements ⊢
    rw [forms_parens_iff level marks hrest]
    constructor
    · rintro ⟨elements, behind, others, heq, hforms, hmore⟩
      obtain ⟨hlist, rfl⟩ := List.cons.inj heq
      obtain rfl := Value.list.inj (wrap_inj hlist)
      obtain ⟨hunquoted, rfl⟩ := helements.1 hforms
      exact ⟨hunquoted, (forms_lf_iff hrest).1 hmore⟩
    · rintro ⟨hunquoted, hforms⟩
      exact ⟨items, '\n' :: tail, more, rfl, helements.2 ⟨hunquoted, rfl⟩,
        (forms_lf_iff hrest).2 hforms⟩
  | .quoted kind operand, hatoms, hstrings, level, marks, _, _, _, hrest =>
    forms_verbatim_iff operand hatoms hstrings level (kind :: marks) hrest

/-- The same for several values. -/
theorem forms_verbatimAll_iff : ∀ (vs : List Value), (∀ a ∈ atomsAll vs, IsBareWord a) →
    (∀ s ∈ stringsAll vs, IsRawContents s) →
    ∀ (level : Nat) {tail rest : List Char} {more : List Value}, EndsFormsAt rest →
      (Forms (writtenAll ⟨width, false, .shorthand⟩ level vs ++ tail) (vs ++ more) rest ↔
        (∀ a ∈ unquotedAtomsAll vs, ¬BeginsWithAt a) ∧ Forms tail more rest)
  | [], _, _, level, tail, rest, more, _ => by
    simp [writtenAll_nil, unquotedAtomsAll]
  | v :: vs, hatoms, hstrings, level, tail, rest, more, hrest => by
    rw [atomsAll, List.forall_mem_append] at hatoms
    rw [stringsAll, List.forall_mem_append] at hstrings
    have hv : Forms _ (v :: (vs ++ more)) rest ↔ _ :=
      @forms_verbatim_iff v hatoms.1 hstrings.1 level []
        (writtenAll ⟨width, false, .shorthand⟩ level vs ++ tail) rest (vs ++ more) hrest
    rw [writtenAll_cons, List.append_assoc, List.cons_append, hv,
      forms_verbatimAll_iff vs hatoms.2 hstrings.2 level hrest, unquotedAtomsAll,
      List.forall_mem_append, and_assoc]
    rfl

end

/-! ## Whole texts -/

/-- **A value that is printed without escapes is read as itself exactly if it needs none.** -/
theorem input_print_verbatim_iff (v : Value) :
    Input (v.print ⟨width, false, .shorthand⟩).toList v ↔ v.NeedsNoEscape .shorthand := by
  have htext : Input (v.print ⟨width, false, .shorthand⟩).toList v ↔
      Forms (written ⟨width, false, .shorthand⟩ 0 [] v ++ []) (wrap [] v :: []) [] := by
    rw [Input, toList_print, List.append_nil, wrap_nil]
  have hlines : (∀ a ∈ v.atoms, IsBareWord a) → (∀ s ∈ v.strings, IsRawContents s) →
      (Input (v.print ⟨width, false, .shorthand⟩).toList v ↔
        ∀ a ∈ v.unquotedAtoms, ¬BeginsWithAt a) := by
    intro hatoms hstrings
    rw [htext, forms_verbatim_iff v hatoms hstrings 0 [] endsFormsAt_nil]
    exact and_iff_left (.nil (.none []))
  constructor
  · intro h
    have hcount := Forms.two_mul_backslashes_add_le h
    rw [toList_print, count_verbatim] at hcount
    simp only [atomsAll, stringsAll, List.append_nil, List.count_nil] at hcount
    have hescape : '\\' ∉ (v.print ⟨width, false, .shorthand⟩).toList := by
      rw [← List.count_eq_zero, toList_print, count_verbatim]
      omega
    have hbare := Forms.bare h hescape
    simp only [atomsAll, stringsAll, List.append_nil] at hbare
    exact ⟨hbare.1, hbare.2, fun _ => (hlines hbare.1 hbare.2).1 h⟩
  · intro h
    exact (hlines h.atoms h.strings).2 (h.unquoted rfl)

/-! ## Both ways of printing quoted forms -/

mutual

/-- Spelling out leaves the strings alone. -/
theorem strings_desugar : ∀ v : Value, v.desugar.strings = v.strings
  | .atom _ | .string _ => rfl
  | .list items => stringsAll_desugarAll items
  | .quoted kind operand => by
    simp [desugar, strings, stringsAll, strings_desugar operand]

theorem stringsAll_desugarAll : ∀ vs : List Value, stringsAll (desugarAll vs) = stringsAll vs
  | [] => rfl
  | v :: vs => by rw [desugarAll, stringsAll, stringsAll, strings_desugar v, stringsAll_desugarAll vs]

end

mutual

/-- Spelled out, no form stands behind a comma. -/
theorem unquotedAtoms_desugar : ∀ v : Value, v.desugar.unquotedAtoms = []
  | .atom _ | .string _ => rfl
  | .list items => unquotedAtomsAll_desugarAll items
  | .quoted kind operand => by
    simp [desugar, unquotedAtoms, unquotedAtomsAll, unquotedAtoms_desugar operand]

theorem unquotedAtomsAll_desugarAll : ∀ vs : List Value, unquotedAtomsAll (desugarAll vs) = []
  | [] => rfl
  | v :: vs => by
    rw [desugarAll, unquotedAtomsAll, unquotedAtoms_desugar v, unquotedAtomsAll_desugarAll vs]
    rfl

end

theorem isBareWord_name (kind : QuoteKind) : IsBareWord kind.name := by
  have hbare : kind.name.toList.all (fun c => !endsAtom c) = true := by cases kind <;> rfl
  exact ⟨name_ne_empty kind, fun c hc => by simpa using List.all_eq_true.1 hbare c hc⟩

theorem needsNoEscape_spelled_iff (style : QuoteStyle) (v : Value) :
    (v.spelled style).NeedsNoEscape .shorthand ↔ v.NeedsNoEscape style := by
  have hatoms := forall_atoms_spelled isBareWord_name style v
  cases style with
  | shorthand => exact Iff.rfl
  | list =>
    constructor
    · intro h
      refine ⟨hatoms.1 h.atoms, ?_, by simp⟩
      rw [← strings_desugar]
      exact h.strings
    · intro h
      refine ⟨hatoms.2 h.atoms, ?_, ?_⟩
      · rw [spelled, strings_desugar]
        exact h.strings
      · simp [spelled, unquotedAtoms_desugar]

/-- **Which values are read back from what is printed without escapes:** those that need none, as
long as the nesting depth is allowed.  Printed as lists, quoted forms are read as the lists that they
stand for. -/
theorem parseWith_print_verbatim_iff (limits : Limits) (width : Nat) (style : QuoteStyle)
    (v : Value) :
    parseWith limits (v.print ⟨width, false, style⟩) = .ok (v.spelled style) ↔
      v.NeedsNoEscape style ∧ v.depth ≤ limits.maxDepth := by
  rw [parseWith_eq_ok_iff, print_spelled, input_print_verbatim_iff, needsNoEscape_spelled_iff,
    depth_spelled]

end Value

end SExpr
