import SExpr.Proofs.Printer.Tokens

/-!
# No two values are printed alike

Printing with escapes and marks can be undone, also where reading does not undo it: empty atoms and
atoms that end in a carriage return are told apart by their lines.

## What is here

* `flatMap_code_inj` — contents that are written character by character.
* `markChars_inj` — marks in front of a token.
* `written_inj`, `writtenAll_inj` — values and the elements of a list, in front of any text.
* `print_inj` — printed values; `print_eq_print_iff` also with quoted forms spelled out.
-/

set_option autoImplicit false

namespace SExpr
namespace Value

open Grammar

/-! ## Contents -/

/-- Contents that are written character by character can be told apart, and from what follows
them, if the codes of characters can. -/
theorem flatMap_code_inj {code : Char → List Char} {stop : Char}
    (hcode : ∀ {c d : Char} {s t : List Char}, code c ++ s = code d ++ t → c = d ∧ s = t)
    (hstop : ∀ {c : Char} {s t : List Char}, code c ++ s ≠ stop :: t) {as bs s t : List Char}
    (h : as.flatMap code ++ stop :: s = bs.flatMap code ++ stop :: t) : as = bs ∧ s = t := by
  induction as generalizing bs with
  | nil =>
    cases bs with
    | nil => exact ⟨rfl, (List.cons.inj h).2⟩
    | cons b bs =>
      rw [List.flatMap_cons, List.append_assoc] at h
      exact absurd h.symm hstop
  | cons a as ih =>
    rw [List.flatMap_cons, List.append_assoc] at h
    cases bs with
    | nil => exact absurd h hstop
    | cons b bs =>
      rw [List.flatMap_cons, List.append_assoc] at h
      obtain ⟨rfl, hrest⟩ := hcode h
      obtain ⟨rfl, rfl⟩ := ih hrest
      exact ⟨rfl, rfl⟩

theorem atomChar_inj {c d : Char} {s t : List Char}
    (h : Escape.atomChar c ++ s = Escape.atomChar d ++ t) : c = d ∧ s = t := by
  cases hc : endsAtom c with
  | true =>
    rw [Escape.atomChar_of_endsAtom hc] at h
    cases hd : endsAtom d with
    | true =>
      rw [Escape.atomChar_of_endsAtom hd] at h
      simpa using h
    | false =>
      rw [Escape.atomChar_of_not_endsAtom hd] at h
      obtain rfl := (List.cons.inj h).1
      cases hd
  | false =>
    rw [Escape.atomChar_of_not_endsAtom hc] at h
    cases hd : endsAtom d with
    | true =>
      rw [Escape.atomChar_of_endsAtom hd] at h
      obtain rfl := (List.cons.inj h).1
      cases hc
    | false =>
      rw [Escape.atomChar_of_not_endsAtom hd] at h
      simpa using h

theorem atomChar_ne {c d : Char} {s t : List Char} (hd : endsAtom d = true) (hne : d ≠ '\\') :
    Escape.atomChar c ++ s ≠ d :: t := by
  obtain ⟨e, more, he, hplain⟩ := Escape.exists_atomChar_cons c
  rw [he]
  intro h
  exact ne_of_beginsAtom hplain hd hne (List.cons.inj h).1

theorem stringChar_inj {c d : Char} {s t : List Char}
    (h : Escape.stringChar c ++ s = Escape.stringChar d ++ t) : c = d ∧ s = t := by
  have hescape : Escape.letter? '\\' ≠ none := by decide
  rw [Escape.stringChar, Escape.stringChar] at h
  split at h
  · rename_i letter hc
    split at h
    · rename_i letter' hd
      obtain ⟨rfl, rfl⟩ : letter = letter' ∧ s = t := by simpa using h
      exact ⟨(Escape.denoted_of_letter? hc).symm.trans (Escape.denoted_of_letter? hd), rfl⟩
    · rename_i hd
      exact absurd (List.cons.inj h).1.symm (Escape.ne_of_letter?_eq_none hd hescape)
  · rename_i hc
    split at h
    · exact absurd (List.cons.inj h).1 (Escape.ne_of_letter?_eq_none hc hescape)
    · simpa using h

theorem stringChar_ne {c : Char} {s t : List Char} : Escape.stringChar c ++ s ≠ '"' :: t := by
  rw [Escape.stringChar]
  split
  · simp
  · rename_i hc
    intro h
    exact Escape.ne_of_letter?_eq_none hc (by decide) (List.cons.inj h).1

/-! ## What stands in front of a token -/

/-- Can this character follow marks without being taken for a part of them? -/
def Follows (marks : List QuoteKind) (c : Char) : Prop :=
  (c ≠ '\'' ∧ c ≠ '\x60' ∧ c ≠ ',') ∧ (marks.head? = some .unquote → c ≠ '@')

/-- The characters of marks that are given from the outermost to the innermost. -/
def outerChars (marks : List QuoteKind) : List Char :=
  marks.flatMap fun kind => kind.mark.toList

theorem outerChars_cons (kind : QuoteKind) (marks : List QuoteKind) :
    outerChars (kind :: marks) = kind.mark.toList ++ outerChars marks :=
  List.flatMap_cons

theorem head?_outerChars_ne {marks : List QuoteKind} {c : Char} {s : List Char}
    (h : marks = [] → c ≠ '@') : (outerChars marks ++ c :: s).head? ≠ some '@' := by
  cases marks with
  | nil => exact fun heq => h rfl (Option.some.inj heq)
  | cons kind marks =>
    obtain ⟨d, more, hd, hmark⟩ := exists_mark_cons kind
    rw [outerChars_cons, hd]
    intro heq
    obtain rfl : d = '@' := Option.some.inj heq
    simp at hmark

/-- A token is no mark, so where one stands there is none. -/
theorem outerChars_cons_ne {kind : QuoteKind} {marks : List QuoteKind} {c : Char} {s t : List Char}
    (hc : c ≠ '\'' ∧ c ≠ '\x60' ∧ c ≠ ',') : outerChars (kind :: marks) ++ t ≠ c :: s := by
  obtain ⟨d, more, hd, hmark⟩ := exists_mark_cons kind
  rw [outerChars_cons, hd]
  intro h
  obtain rfl := (List.cons.inj h).1
  rcases hmark with h | h | h
  · exact hc.1 h
  · exact hc.2.1 h
  · exact hc.2.2 h

theorem outerChars_inj {ks ks' : List QuoteKind} {c d : Char} {s t : List Char}
    (hc : Follows ks.reverse c) (hd : Follows ks'.reverse d)
    (h : outerChars ks ++ c :: s = outerChars ks' ++ d :: t) : ks = ks' ∧ c :: s = d :: t := by
  induction ks generalizing ks' with
  | nil =>
    cases ks' with
    | nil => exact ⟨rfl, h⟩
    | cons kind' ks' => exact absurd h.symm (outerChars_cons_ne hc.1)
  | cons kind ks ih =>
    cases ks' with
    | nil => exact absurd h (outerChars_cons_ne hd.1)
    | cons kind' ks' =>
      simp only [Follows, List.head?_reverse, List.getLast?_cons] at hc hd ih
      have hnext : kind = .unquote → (outerChars ks ++ c :: s).head? ≠ some '@' := fun hkind =>
        head?_outerChars_ne fun hks => hc.2 (by simp [hks, hkind])
      have hnext' : kind' = .unquote → (outerChars ks' ++ d :: t).head? ≠ some '@' := fun hkind =>
        head?_outerChars_ne fun hks => hd.2 (by simp [hks, hkind])
      rw [outerChars_cons, outerChars_cons, List.append_assoc, List.append_assoc] at h
      -- the mark that a text begins with is the only one it can be read as
      have hmark := (mark_iff hnext).2 ⟨rfl, rfl⟩
      rw [h] at hmark
      obtain ⟨rfl, hrest⟩ := (mark_iff hnext').1 hmark
      obtain ⟨rfl, htail⟩ := ih ⟨hc.1, fun hlast => hc.2 (by simp [hlast])⟩
        ⟨hd.1, fun hlast => hd.2 (by simp [hlast])⟩ hrest
      exact ⟨rfl, htail⟩

/-- **Marks can be told apart**, and from the token behind them. -/
theorem markChars_inj {marks marks' : List QuoteKind} {c d : Char} {s t : List Char}
    (hc : Follows marks c) (hd : Follows marks' d)
    (h : markChars marks ++ c :: s = markChars marks' ++ d :: t) :
    marks = marks' ∧ c :: s = d :: t := by
  obtain ⟨hmarks, htail⟩ := outerChars_inj (by rwa [List.reverse_reverse])
    (by rwa [List.reverse_reverse]) h
  exact ⟨List.reverse_inj.1 hmarks, htail⟩

/-- Indentation can be told apart from what stands behind it. -/
theorem replicate_append_inj {m n : Nat} {c d : Char} {s t : List Char} (hc : c ≠ ' ')
    (hd : d ≠ ' ') (h : List.replicate m ' ' ++ c :: s = List.replicate n ' ' ++ d :: t) :
    c :: s = d :: t := by
  induction m generalizing n with
  | zero =>
    cases n with
    | zero => exact h
    | succ n => exact absurd (List.cons.inj h).1 hc
  | succ m ih =>
    cases n with
    | zero => exact absurd (List.cons.inj h).1.symm hd
    | succ n => exact ih (List.cons.inj h).2

/-! ## Values by their marks -/

/-- What is written behind the marks of a value that is no quoted form, with the text that
follows it. -/
def coreChars (width level : Nat) (marks : List QuoteKind) (tail : List Char) : Value → List Char
  | .atom text => atomChars marks text ++ '\n' :: tail
  | .string text => '"' :: (text.toList.flatMap Escape.stringChar ++ '"' :: '\n' :: tail)
  | .list items => '(' :: '\n' :: (writtenAll ⟨width, true, .shorthand⟩ (level + 1) items ++
      (indentation width level ++ ')' :: '\n' :: tail))
  | .quoted _ _ => []

/-- Every value is some value that is no quoted form, behind marks. -/
theorem exists_core (v : Value) (marks : List QuoteKind) :
    ∃ marks' x, (∀ kind operand, x ≠ .quoted kind operand) ∧ wrap marks v = wrap marks' x ∧
      ∀ width level, written ⟨width, true, .shorthand⟩ level marks v =
        written ⟨width, true, .shorthand⟩ level marks' x := by
  cases v with
  | atom | string | list => exact ⟨marks, _, by simp, rfl, fun _ _ => rfl⟩
  | quoted kind operand => exact exists_core operand (kind :: marks)

/-- The characters of a value by its marks, and how what is behind them begins. -/
theorem written_eq_core {x : Value} (hx : ∀ kind operand, x ≠ .quoted kind operand)
    (width level : Nat) (marks : List QuoteKind) (tail : List Char) :
    written ⟨width, true, .shorthand⟩ level marks x ++ tail =
        indentation width level ++ (markChars marks ++ coreChars width level marks tail x) ∧
      ∃ c more, coreChars width level marks tail x = c :: more ∧ Follows marks c ∧
        c ≠ ' ' ∧ c ≠ ')' := by
  cases x with
  | atom text =>
    refine ⟨by rw [written_atom, toList_writeAtom, coreChars]; simp, ?_⟩
    by_cases hne : text = ""
    · subst hne
      refine ⟨'\n', tail, ?_, ⟨by decide, fun _ => by decide⟩, by decide, by decide⟩
      rw [coreChars, atomChars_empty]
      rfl
    · obtain ⟨c, more, hcs, hplain, hat⟩ := exists_atomChars_cons marks hne
      have hc : ∀ d, endsAtom d = true → d ≠ '\\' → c ≠ d := fun _ => ne_of_beginsAtom hplain
      refine ⟨c, more ++ '\n' :: tail, by rw [coreChars, hcs]; rfl, ⟨?_, hat⟩, ?_, ?_⟩
      · exact ⟨hc _ (by decide) (by decide), hc _ (by decide) (by decide),
          hc _ (by decide) (by decide)⟩
      · exact hc _ (by decide) (by decide)
      · exact hc _ (by decide) (by decide)
  | string text =>
    refine ⟨?_, _, _, rfl, ?_⟩
    · rw [written_string, toList_writeString, coreChars, stringChars]
      simp
    · exact ⟨⟨by decide, fun _ => by decide⟩, by decide, by decide⟩
  | list items =>
    refine ⟨by rw [written_list, coreChars]; simp, _, _, rfl, ?_⟩
    exact ⟨⟨by decide, fun _ => by decide⟩, by decide, by decide⟩
  | quoted kind operand => exact absurd rfl (hx kind operand)

/-- The first character of a value behind its indentation. -/
theorem exists_written_cons (width level : Nat) (marks : List QuoteKind) (v : Value)
    (tail : List Char) :
    ∃ c more, written ⟨width, true, .shorthand⟩ level marks v ++ tail =
      indentation width level ++ c :: more ∧ c ≠ ' ' ∧ c ≠ ')' := by
  obtain ⟨marks', x, hx, -, hwritten⟩ := exists_core v marks
  obtain ⟨htext, c, cs, hcs, -, hspace, hclose⟩ := written_eq_core hx width level marks' tail
  obtain ⟨d, more, hd, hfirst⟩ := exists_markChars_cons marks' c cs
  refine ⟨d, more, by rw [hwritten, htext, hcs, hd], ?_⟩
  rcases hfirst with rfl | rfl | rfl | rfl
  · exact ⟨hspace, hclose⟩
  all_goals exact ⟨by decide, by decide⟩

/-- What is written like a value that is no quoted form has the same marks, and the same behind
them. -/
theorem exists_core_of_written_eq {x w : Value} (hx : ∀ kind operand, x ≠ .quoted kind operand)
    {width level : Nat} {marks marks' : List QuoteKind} {s t : List Char}
    (h : written ⟨width, true, .shorthand⟩ level marks x ++ s =
      written ⟨width, true, .shorthand⟩ level marks' w ++ t) :
    ∃ y, (∀ kind operand, y ≠ .quoted kind operand) ∧ wrap marks' w = wrap marks y ∧
      coreChars width level marks s x = coreChars width level marks t y := by
  obtain ⟨marks'', y, hy, hwrap, hwritten⟩ := exists_core w marks'
  obtain ⟨hxtext, c, cs, hcs, hc, hcspace, -⟩ := written_eq_core hx width level marks s
  obtain ⟨hytext, d, ds, hds, hd, hdspace, -⟩ := written_eq_core hy width level marks'' t
  obtain ⟨c', cs', hcs', hcfirst⟩ := exists_markChars_cons marks c cs
  obtain ⟨d', ds', hds', hdfirst⟩ := exists_markChars_cons marks'' d ds
  have hspace : ∀ {a b : Char}, a ≠ ' ' → (b = a ∨ b = '\'' ∨ b = '\x60' ∨ b = ',') → b ≠ ' ' := by
    rintro a b ha (rfl | rfl | rfl | rfl)
    · exact ha
    all_goals decide
  rw [hwritten, hxtext, hytext, hcs, hds, hcs', hds'] at h
  have hfront := replicate_append_inj (hspace hcspace hcfirst) (hspace hdspace hdfirst) h
  rw [← hcs', ← hds'] at hfront
  obtain ⟨rfl, hcore⟩ := markChars_inj hc hd hfront
  exact ⟨y, hy, hwrap, by rw [hcs, hds, hcore]⟩

/-! ## Values -/

/-- The backslash that keeps a comma and an at sign apart is not written for any other reason. -/
theorem escaped_at_ne (cs : List Char) {s t : List Char} :
    '\\' :: '@' :: s ≠ cs.flatMap Escape.atomChar ++ '\n' :: t := by
  cases cs with
  | nil => simp
  | cons c cs =>
    rw [List.flatMap_cons, List.append_assoc]
    cases hc : endsAtom c with
    | true =>
      rw [Escape.atomChar_of_endsAtom hc]
      intro h
      obtain rfl : '@' = c := (List.cons.inj (List.cons.inj h).2).1
      cases hc
    | false =>
      rw [Escape.atomChar_of_not_endsAtom hc]
      intro h
      obtain rfl : '\\' = c := (List.cons.inj h).1
      cases hc

theorem atomChars_of_joinsComma {marks : List QuoteKind} {text : String}
    (h : joinsComma marks text = true) : ∃ cs, text.toList = '@' :: cs ∧
      atomChars marks text = '\\' :: '@' :: cs.flatMap Escape.atomChar := by
  obtain ⟨cs, hcs⟩ := List.head?_eq_some_iff.1 (joinsComma_iff.1 h).2
  exact ⟨cs, hcs, by rw [atomChars, if_pos h, hcs]; rfl⟩

theorem atomChars_of_not_joinsComma {marks : List QuoteKind} {text : String}
    (h : joinsComma marks text = false) :
    atomChars marks text = text.toList.flatMap Escape.atomChar := by
  rw [atomChars, h]
  rfl

/-- The code of an atom does not hold the line feed that ends its line. -/
theorem flatMap_atomChar_inj {as bs s t : List Char}
    (h : as.flatMap Escape.atomChar ++ '\n' :: s = bs.flatMap Escape.atomChar ++ '\n' :: t) :
    as = bs ∧ s = t :=
  flatMap_code_inj atomChar_inj (atomChar_ne (by decide) (by decide)) h

/-- Atoms behind the same marks can be told apart, and from what follows their line. -/
theorem atomChars_inj {marks : List QuoteKind} {a b : String} {s t : List Char}
    (h : atomChars marks a ++ '\n' :: s = atomChars marks b ++ '\n' :: t) : a = b ∧ s = t := by
  cases ha : joinsComma marks a with
  | true =>
    obtain ⟨as, has, hatext⟩ := atomChars_of_joinsComma ha
    rw [hatext] at h
    cases hb : joinsComma marks b with
    | true =>
      obtain ⟨bs, hbs, hbtext⟩ := atomChars_of_joinsComma hb
      rw [hbtext] at h
      obtain ⟨rfl, rfl⟩ := flatMap_atomChar_inj (List.cons.inj (List.cons.inj h).2).2
      exact ⟨String.toList_inj.1 (has.trans hbs.symm), rfl⟩
    | false =>
      rw [atomChars_of_not_joinsComma hb] at h
      exact absurd h (escaped_at_ne b.toList)
  | false =>
    rw [atomChars_of_not_joinsComma ha] at h
    cases hb : joinsComma marks b with
    | true =>
      obtain ⟨bs, -, hbtext⟩ := atomChars_of_joinsComma hb
      rw [hbtext] at h
      exact absurd h.symm (escaped_at_ne a.toList)
    | false =>
      rw [atomChars_of_not_joinsComma hb] at h
      obtain ⟨htext, rfl⟩ := flatMap_atomChar_inj h
      exact ⟨String.toList_inj.1 htext, rfl⟩

/-- An atom does not begin with a character that ends atoms. -/
theorem atomChars_ne {marks : List QuoteKind} {a : String} {d : Char} {s t : List Char}
    (hd : endsAtom d = true) (hescape : d ≠ '\\') (hfeed : d ≠ '\n') :
    atomChars marks a ++ '\n' :: s ≠ d :: t := by
  by_cases hne : a = ""
  · subst hne
    rw [atomChars_empty]
    exact fun h => hfeed (List.cons.inj h).1.symm
  · obtain ⟨c, more, hc, hplain, -⟩ := exists_atomChars_cons marks hne
    rw [hc]
    intro h
    exact ne_of_beginsAtom hplain hd hescape (List.cons.inj h).1

mutual

/-- **Values can be told apart by their lines**, and from what follows them. -/
theorem written_inj (width : Nat) : ∀ (v w : Value) (level : Nat)
    (marks marks' : List QuoteKind) {s t : List Char},
    written ⟨width, true, .shorthand⟩ level marks v ++ s =
        written ⟨width, true, .shorthand⟩ level marks' w ++ t →
      wrap marks v = wrap marks' w ∧ s = t
  | .quoted kind operand, w, level, marks, marks', s, t, h =>
    written_inj width operand w level (kind :: marks) marks' h
  | .atom a, w, level, marks, marks', s, t, h => by
    obtain ⟨y, hy, hwrap, hcore⟩ := exists_core_of_written_eq (by simp) h
    rw [hwrap]
    cases y with
    | atom b =>
      obtain ⟨rfl, rfl⟩ := atomChars_inj hcore
      exact ⟨rfl, rfl⟩
    | string | list =>
      exact absurd hcore (atomChars_ne (by decide) (by decide) (by decide))
    | quoted kind operand => exact absurd rfl (hy kind operand)
  | .string a, w, level, marks, marks', s, t, h => by
    obtain ⟨y, hy, hwrap, hcore⟩ := exists_core_of_written_eq (by simp) h
    rw [hwrap]
    cases y with
    | atom b => exact absurd hcore.symm (atomChars_ne (by decide) (by decide) (by decide))
    | string b =>
      obtain ⟨htext, hrest⟩ := flatMap_code_inj stringChar_inj stringChar_ne (List.cons.inj hcore).2
      obtain rfl := String.toList_inj.1 htext
      exact ⟨rfl, (List.cons.inj hrest).2⟩
    | list items => cases (List.cons.inj hcore).1
    | quoted kind operand => exact absurd rfl (hy kind operand)
  | .list items, w, level, marks, marks', s, t, h => by
    obtain ⟨y, hy, hwrap, hcore⟩ := exists_core_of_written_eq (by simp) h
    rw [hwrap]
    cases y with
    | atom b => exact absurd hcore.symm (atomChars_ne (by decide) (by decide) (by decide))
    | string b => cases (List.cons.inj hcore).1
    | list items' =>
      obtain ⟨rfl, hrest⟩ :=
        writtenAll_inj width items items' level (List.cons.inj (List.cons.inj hcore).2).2
      exact ⟨rfl, (List.cons.inj hrest).2⟩
    | quoted kind operand => exact absurd rfl (hy kind operand)

/-- The elements of a list can be told apart, and from the line that closes it. -/
theorem writtenAll_inj (width : Nat) : ∀ (vs ws : List Value) (level : Nat) {s t : List Char},
    writtenAll ⟨width, true, .shorthand⟩ (level + 1) vs ++ (indentation width level ++ ')' :: s) =
      writtenAll ⟨width, true, .shorthand⟩ (level + 1) ws ++ (indentation width level ++ ')' :: t) →
    vs = ws ∧ s = t
  | [], [], level, s, t, h =>
    ⟨rfl, (List.cons.inj (List.append_cancel_left h)).2⟩
  | [], w :: ws, level, s, t, h => by
    rw [writtenAll_cons, List.append_assoc] at h
    obtain ⟨c, more, hc, hspace, hclose⟩ := exists_written_cons width (level + 1) [] w _
    have hfirst := replicate_append_inj (by decide) hspace (h.trans hc)
    exact absurd (List.cons.inj hfirst).1.symm hclose
  | v :: vs, [], level, s, t, h => by
    rw [writtenAll_cons, List.append_assoc] at h
    obtain ⟨c, more, hc, hspace, hclose⟩ := exists_written_cons width (level + 1) [] v _
    have hfirst := replicate_append_inj hspace (by decide) (hc.symm.trans h)
    exact absurd (List.cons.inj hfirst).1 hclose
  | v :: vs, w :: ws, level, s, t, h => by
    rw [writtenAll_cons, writtenAll_cons, List.append_assoc, List.append_assoc] at h
    obtain ⟨hvw, hrest⟩ := written_inj width v w (level + 1) [] [] h
    obtain rfl : v = w := hvw
    obtain ⟨rfl, rfl⟩ := writtenAll_inj width vs ws level hrest
    exact ⟨rfl, rfl⟩

end

/-- **No two values are printed alike** with escapes and marks. -/
theorem print_inj {width : Nat} {v w : Value}
    (h : v.print ⟨width, true, .shorthand⟩ = w.print ⟨width, true, .shorthand⟩) : v = w := by
  have hwritten : written ⟨width, true, .shorthand⟩ 0 [] v ++ [] =
      written ⟨width, true, .shorthand⟩ 0 [] w ++ [] := by
    rw [← toList_print, ← toList_print, h]
  exact (written_inj width v w 0 [] [] hwritten).1

/-- **What is printed alike.**  With marks, no two values; with quoted forms spelled out, exactly
the values that spell out to the same one.  Empty atoms and atoms that end in a carriage return are
no exception, although they do not read back. -/
theorem print_eq_print_iff (width : Nat) (v w : Value) :
    (v.print ⟨width, true, .shorthand⟩ = w.print ⟨width, true, .shorthand⟩ ↔ v = w) ∧
      (v.print ⟨width, true, .list⟩ = w.print ⟨width, true, .list⟩ ↔ v.desugar = w.desugar) := by
  have hshorthand : ∀ x y : Value,
      x.print ⟨width, true, .shorthand⟩ = y.print ⟨width, true, .shorthand⟩ ↔ x = y :=
    fun x y => ⟨print_inj, fun h => by rw [h]⟩
  refine ⟨hshorthand v w, ?_⟩
  -- spelled out, a value is printed as the one that holds the lists
  rw [print_list, print_list]
  exact hshorthand v.desugar w.desugar

end Value

end SExpr
