import SExpr.Proofs.Grammar.Inversion
import SExpr.Proofs.Printer.Written

/-!
# Printed tokens

What the grammar makes of the tokens that are printed with escapes.  A token is read up to its end
and no further, with one exception: an atom that ends in a carriage return is followed by the line
feed of its line, and takes it for the second half of a line break pair.

## What is here

* `EndsInReturn` — the atoms that do not end where they were meant to.
* `atomBody_written_iff`, `stringBody_written_iff` — the contents of atoms and strings.
* `atomBody_line_iff`, `exists_of_atomBody_line` — atoms in front of the end of their line.
* `form_marks_iff`, `forms_line_iff` — marks and indentation in front of a token.
-/

set_option autoImplicit false

namespace SExpr

open Grammar

/-- Is the last character of this text a carriage return? -/
def EndsInReturn (text : String) : Prop :=
  text.toList.getLast? = some '\r'

instance (text : String) : Decidable (EndsInReturn text) :=
  inferInstanceAs (Decidable (_ = _))

namespace Value

variable {tail chars rest : List Char}

/-! ## Contents of atoms -/

/-- Behind an escaped character there is no line feed, but for one behind the whole atom. -/
theorem not_pairs_of_seam {c : Char} {cs : List Char}
    (h : ¬((c :: cs).getLast? = some '\r' ∧ tail.head? = some '\n')) :
    ¬Pairs c (cs.flatMap Escape.atomChar ++ tail) := by
  rintro ⟨rfl, hfeed⟩
  cases cs with
  | nil => exact h ⟨rfl, hfeed⟩
  | cons d cs =>
    obtain ⟨e, more, he, hmore⟩ := Escape.exists_atomChar_cons d
    rw [List.flatMap_cons, he] at hfeed
    exact ne_of_beginsAtom hmore (by decide) (by decide) (Option.some.inj hfeed)

/-- **The contents of an atom are read as they were written**, unless a line break pair stands
across their end. -/
theorem atomBody_written_iff {cs : List Char}
    (h : ¬(cs.getLast? = some '\r' ∧ tail.head? = some '\n')) :
    AtomBody (cs.flatMap Escape.atomChar ++ tail) chars rest ↔
      ∃ more, chars = cs ++ more ∧ AtomBody tail more rest := by
  induction cs generalizing chars with
  | nil => simp
  | cons c cs ih =>
    have hcs : ¬(cs.getLast? = some '\r' ∧ tail.head? = some '\n') := by
      rintro ⟨hlast, hfeed⟩
      exact h ⟨by rw [List.getLast?_cons, hlast]; rfl, hfeed⟩
    have hcons : AtomBody (Escape.atomChar c ++ (cs.flatMap Escape.atomChar ++ tail)) chars rest ↔
        ∃ more, chars = c :: more ∧ AtomBody (cs.flatMap Escape.atomChar ++ tail) more rest := by
      cases hc : endsAtom c with
      | true =>
        rw [Escape.atomChar_of_endsAtom hc]
        exact atomBody_escaped_iff (not_pairs_of_seam h)
      | false =>
        rw [Escape.atomChar_of_not_endsAtom hc]
        exact atomBody_plain_iff hc
    rw [List.flatMap_cons, List.append_assoc, hcons]
    constructor
    · rintro ⟨more, rfl, hbody⟩
      obtain ⟨behind, rfl, htail⟩ := (ih hcs).1 hbody
      exact ⟨behind, rfl, htail⟩
    · rintro ⟨more, rfl, hbody⟩
      exact ⟨cs ++ more, rfl, (ih hcs).2 ⟨more, rfl, hbody⟩⟩

/-! ## Atoms in front of the end of a line -/

theorem endsAtomAt_lf (tail : List Char) : EndsAtomAt ('\n' :: tail) := by
  rintro c ⟨⟩
  exact ⟨by decide, by decide⟩

/-- The backslash that keeps a comma and an at sign apart changes nothing else. -/
theorem atomBody_atomChars_iff (marks : List QuoteKind) (text : String) :
    AtomBody (atomChars marks text ++ tail) chars rest ↔
      AtomBody (text.toList.flatMap Escape.atomChar ++ tail) chars rest := by
  rw [atomChars]
  split
  · rename_i hjoins
    obtain ⟨cs, hcs⟩ := List.head?_eq_some_iff.1 (joinsComma_iff.1 hjoins).2
    rw [hcs, List.flatMap_cons, Escape.atomChar_of_not_endsAtom (by decide)]
    exact (atomBody_escaped_iff (fun h => absurd h.1 (by decide))).trans
      (atomBody_plain_iff (by decide)).symm
  · rfl

/-- **An atom ends where its line does.** -/
theorem atomBody_line_iff {marks : List QuoteKind} {text : String} (h : ¬EndsInReturn text) :
    AtomBody (atomChars marks text ++ '\n' :: tail) chars rest ↔
      chars = text.toList ∧ rest = '\n' :: tail := by
  rw [atomBody_atomChars_iff, atomBody_written_iff (fun hseam => h hseam.1)]
  constructor
  · rintro ⟨more, rfl, hbody⟩
    obtain ⟨rfl, rfl⟩ := (atomBody_ends_iff (endsAtomAt_lf tail)).1 hbody
    exact ⟨List.append_nil _, rfl⟩
  · rintro ⟨rfl, rfl⟩
    exact ⟨[], (List.append_nil _).symm, .done (endsAtomAt_lf tail)⟩

/-- **An atom that ends in a carriage return goes on behind its line.** -/
theorem exists_of_atomBody_line {marks : List QuoteKind} {text : String} (h : EndsInReturn text)
    (hbody : AtomBody (atomChars marks text ++ '\n' :: tail) chars rest) :
    ∃ more, chars = text.toList ++ '\n' :: more := by
  obtain ⟨cs, hcs⟩ := List.getLast?_eq_some_iff.1 h
  have hreturn : ['\r'].flatMap Escape.atomChar ++ '\n' :: tail = '\\' :: '\r' :: '\n' :: tail := rfl
  rw [atomBody_atomChars_iff, hcs, List.flatMap_append, List.append_assoc, hreturn,
    atomBody_written_iff (fun hseam => absurd hseam.2 (by simp))] at hbody
  obtain ⟨more, rfl, hpair⟩ := hbody
  obtain ⟨behind, rfl, -⟩ := atomBody_pair_iff.1 hpair
  exact ⟨behind, by rw [hcs, List.append_assoc]; rfl⟩

/-! ## Strings -/

/-- **The contents of a string are read as they were written.** -/
theorem stringBody_written_iff {cs : List Char} :
    StringBody (cs.flatMap Escape.stringChar ++ '"' :: tail) chars rest ↔
      chars = cs ∧ rest = tail := by
  induction cs generalizing chars with
  | nil => exact stringBody_quote_iff
  | cons c cs ih =>
    have hcons : ∀ text, StringBody (Escape.stringChar c ++ text) chars rest ↔
        ∃ more, chars = c :: more ∧ StringBody text more rest := by
      intro text
      rw [Escape.stringChar]
      split
      · rename_i letter hletter
        have hiff : StringBody ('\\' :: letter :: text) chars rest ↔ _ :=
          stringBody_escaped_iff
        rwa [Escape.denoted_of_letter? hletter] at hiff
      · rename_i hletter
        exact stringBody_plain_iff (Escape.ne_of_letter?_eq_none hletter (by decide))
          (Escape.ne_of_letter?_eq_none hletter (by decide))
    rw [List.flatMap_cons, List.append_assoc, hcons]
    constructor
    · rintro ⟨more, rfl, hbody⟩
      obtain ⟨rfl, rfl⟩ := ih.1 hbody
      exact ⟨rfl, rfl⟩
    · rintro ⟨rfl, rfl⟩
      exact ⟨cs, rfl, ih.2 ⟨rfl, rfl⟩⟩

/-! ## What stands in front of a token -/

/-- Behind its marks an atom begins with something that can begin an atom, and that does not make
a comma another mark. -/
theorem exists_atomChars_cons (marks : List QuoteKind) {text : String} (h : text ≠ "") :
    ∃ c more, atomChars marks text = c :: more ∧ (endsAtom c = false ∨ c = '\\') ∧
      (marks.head? = some .unquote → c ≠ '@') := by
  rw [atomChars]
  split
  · exact ⟨_, _, rfl, Or.inr rfl, fun _ => by decide⟩
  · rename_i hjoins
    obtain ⟨d, cs, hcs⟩ := List.exists_cons_of_ne_nil (l := text.toList) (by simpa using h)
    obtain ⟨c, more, hc, hplain⟩ := Escape.exists_atomChar_cons d
    refine ⟨c, more ++ cs.flatMap Escape.atomChar, ?_, hplain, ?_⟩
    · rw [hcs, List.flatMap_cons, hc]
      rfl
    · rintro hmark rfl
      have hd : d = '@' := by
        cases hends : endsAtom d with
        | true => rw [Escape.atomChar_of_endsAtom hends] at hc; cases hc
        | false => rw [Escape.atomChar_of_not_endsAtom hends] at hc; exact (List.cons.inj hc).1
      exact hjoins (joinsComma_iff.2 ⟨hmark, by rw [hcs, hd]; rfl⟩)

/-- What follows an indentation begins with its token or with a mark. -/
theorem exists_markChars_cons (marks : List QuoteKind) (c : Char) (text : List Char) :
    ∃ d more, markChars marks ++ c :: text = d :: more ∧
      (d = c ∨ d = '\'' ∨ d = '\x60' ∨ d = ',') := by
  rw [markChars]
  cases marks.reverse with
  | nil => exact ⟨c, text, rfl, Or.inl rfl⟩
  | cons kind marks =>
    obtain ⟨d, more, hd, hmark⟩ := exists_mark_cons kind
    rw [List.flatMap_cons, hd, List.append_assoc]
    exact ⟨d, _, rfl, Or.inr hmark⟩

/-- Marks make quoted forms of the form behind them. -/
theorem form_marks_iff (marks : List QuoteKind) {c : Char} {text : List Char} {v : Value}
    (hblank : isBlank c = false) (h : marks.head? = some .unquote → c ≠ '@') :
    Form (markChars marks ++ c :: text) v rest ↔
      ∃ x, v = wrap marks x ∧ Form (c :: text) x rest := by
  induction marks generalizing c text with
  | nil => simp [markChars_nil]
  | cons kind marks ih =>
    obtain ⟨d, more, hd, hmark⟩ := exists_mark_cons kind
    have houter := @ih d (more ++ c :: text) (by rcases hmark with rfl | rfl | rfl <;> decide)
      (by rcases hmark with rfl | rfl | rfl <;> intro _ <;> decide)
    rw [← List.cons_append, ← hd] at houter
    rw [markChars_cons, List.append_assoc, houter]
    constructor
    · rintro ⟨x, rfl, hmarked⟩
      obtain ⟨operand, rfl, hform⟩ :=
        (form_mark_iff hblank fun hkind => h (by simp [hkind])).1 hmarked
      exact ⟨operand, rfl, hform⟩
    · rintro ⟨operand, rfl, hform⟩
      exact ⟨.quoted kind operand, rfl,
        (form_mark_iff hblank fun hkind => h (by simp [hkind])).2 ⟨operand, rfl, hform⟩⟩

theorem forms_indentation_iff (width level : Nat) {text : List Char} {items : List Value}
    (hrest : EndsFormsAt rest) :
    Forms (indentation width level ++ text) items rest ↔ Forms text items rest := by
  rw [indentation]
  induction width * level with
  | zero => rfl
  | succ n ih =>
    rw [List.replicate_succ, List.cons_append, forms_blank_iff (by decide) hrest, ih]

/-- **A line is the form behind its indentation and its marks.** -/
theorem forms_line_iff (width level : Nat) (marks : List QuoteKind) {c : Char} {text : List Char}
    {items : List Value} (hblank : isBlank c = false) (hclose : c ≠ ')')
    (h : marks.head? = some .unquote → c ≠ '@') (hrest : EndsFormsAt rest) :
    Forms (indentation width level ++ (markChars marks ++ c :: text)) items rest ↔
      ∃ x behind more,
        items = wrap marks x :: more ∧ Form (c :: text) x behind ∧ Forms behind more rest := by
  obtain ⟨d, more, hd, hfirst⟩ := exists_markChars_cons marks c text
  have hdblank : isBlank d = false := by
    rcases hfirst with rfl | rfl | rfl | rfl
    · exact hblank
    all_goals decide
  have hdclose : d ≠ ')' := by
    rcases hfirst with rfl | rfl | rfl | rfl
    · exact hclose
    all_goals decide
  rw [forms_indentation_iff width level hrest, hd, forms_cons_iff hdblank hdclose hrest, ← hd]
  constructor
  · rintro ⟨v, behind, more, rfl, hmarked, hforms⟩
    obtain ⟨x, rfl, hform⟩ := (form_marks_iff marks hblank h).1 hmarked
    exact ⟨x, behind, more, rfl, hform, hforms⟩
  · rintro ⟨x, behind, more, rfl, hform, hforms⟩
    exact ⟨wrap marks x, behind, more, rfl, (form_marks_iff marks hblank h).2 ⟨x, rfl, hform⟩, hforms⟩

end Value

end SExpr
