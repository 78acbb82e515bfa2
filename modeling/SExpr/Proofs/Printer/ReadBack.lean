import SExpr.Proofs.Printer.Tokens
import SExpr.Proofs.Reader.Recognition

/-!
# Reading back what was printed

A value that is printed with escapes is read back, unless one of its atoms is empty or ends in a
carriage return.  An empty atom is never read.  An atom that ends in a carriage return takes the
line feed behind it, and no later part of the text makes up for that: the words of a tree stand in
the order in which they are read, so the first one that is wrong stays wrong.

## What is here

* `forms_written_iff` — the lines of a value with no such atom are read as that value, whatever
  else follows.
* `Diverge`, `diverge_of_forms` — with such an atom, what is read has other words.
* `input_print_iff`, `diverge_of_input_print` — both for whole texts.
* `Value.spelled` — a value as a style prints it, which is what is read back (`parseWith_print`).
* `parseWith_print_shorthand_iff`, `parseWith_print_list_iff` — which values are read back.
-/

set_option autoImplicit false

namespace SExpr
namespace Value

open Grammar

variable {width : Nat}

/-! ## Values that are read back -/

theorem endsFormsAt_close (rest : List Char) : EndsFormsAt (')' :: rest) := by
  rintro c ⟨⟩
  rfl

theorem forms_lf_iff {text rest : List Char} {items : List Value} (hrest : EndsFormsAt rest) :
    Forms ('\n' :: text) items rest ↔ Forms text items rest :=
  forms_blank_iff (by decide) hrest

/-- The line that closes a list, and the end of the line in front of its elements. -/
theorem forms_close_line_iff (level : Nat) {tail rest : List Char} {items : List Value} :
    Forms (indentation width level ++ ([')', '\n'] ++ tail)) items (')' :: rest) ↔
      items = [] ∧ rest = '\n' :: tail := by
  rw [forms_indentation_iff width level (endsFormsAt_close rest)]
  exact forms_close_iff

/-- A list between its parentheses, whatever stands between them. -/
theorem forms_parens_iff (level : Nat) (marks : List QuoteKind) {inner rest : List Char}
    {ws : List Value} (hrest : EndsFormsAt rest) :
    Forms (indentation width level ++ (markChars marks ++ '(' :: '\n' :: inner)) ws rest ↔
      ∃ elements behind more, ws = wrap marks (.list elements) :: more ∧
        Forms inner elements (')' :: behind) ∧ Forms behind more rest := by
  rw [forms_line_iff width level marks (by decide) (by decide) (fun _ => by decide) hrest]
  constructor
  · rintro ⟨x, behind, more, rfl, hform, hforms⟩
    obtain ⟨elements, rfl, helements⟩ := form_list_iff.1 hform
    exact ⟨elements, behind, more, rfl,
      (forms_lf_iff (endsFormsAt_close behind)).1 helements, hforms⟩
  · rintro ⟨elements, behind, more, rfl, helements, hforms⟩
    exact ⟨.list elements, behind, more, rfl,
      form_list_iff.2 ⟨elements, rfl, (forms_lf_iff (endsFormsAt_close behind)).2 helements⟩,
      hforms⟩

/-- A string, if what stands between its quotation marks is read as its contents. -/
theorem forms_literal_iff (level : Nat) (marks : List QuoteKind) {text : String}
    {body tail rest : List Char} {ws : List Value}
    (hbody : ∀ {chars rest}, StringBody (body ++ '"' :: '\n' :: tail) chars rest ↔
      chars = text.toList ∧ rest = '\n' :: tail) (hrest : EndsFormsAt rest) :
    Forms (indentation width level ++ (markChars marks ++ '"' :: (body ++ '"' :: '\n' :: tail)))
        ws rest ↔
      ∃ more, ws = wrap marks (.string text) :: more ∧ Forms tail more rest := by
  rw [forms_line_iff width level marks (by decide) (by decide) (fun _ => by decide) hrest]
  constructor
  · rintro ⟨x, behind, more, rfl, hform, hforms⟩
    obtain ⟨chars, rfl, hchars⟩ := form_string_iff.1 hform
    obtain ⟨rfl, rfl⟩ := hbody.1 hchars
    rw [String.ofList_toList]
    exact ⟨more, rfl, (forms_lf_iff hrest).1 hforms⟩
  · rintro ⟨more, rfl, hforms⟩
    refine ⟨.string text, '\n' :: tail, more, rfl, ?_, (forms_lf_iff hrest).2 hforms⟩
    exact form_string_iff.2 ⟨text.toList, by rw [String.ofList_toList], hbody.2 ⟨rfl, rfl⟩⟩

/-- An atom, as far as the text goes on with it. -/
theorem forms_word_iff (level : Nat) (marks : List QuoteKind) {c : Char} {body rest : List Char}
    {ws : List Value} (hplain : endsAtom c = false ∨ c = '\\')
    (hmark : marks.head? = some .unquote → c ≠ '@') (hrest : EndsFormsAt rest) :
    Forms (indentation width level ++ (markChars marks ++ c :: body)) ws rest ↔
      ∃ chars behind more, ws = wrap marks (.atom (String.ofList chars)) :: more ∧
        AtomBody (c :: body) chars behind ∧ chars ≠ [] ∧ Forms behind more rest := by
  have hblank : isBlank c = false := isBlank_eq_false_of_beginsAtom hplain
  have hclose : c ≠ ')' := ne_of_beginsAtom hplain (by decide) (by decide)
  rw [forms_line_iff width level marks hblank hclose hmark hrest]
  constructor
  · rintro ⟨x, behind, more, rfl, hform, hforms⟩
    obtain ⟨chars, rfl, hbody, hchars⟩ := (form_atom_iff hplain).1 hform
    exact ⟨chars, behind, more, rfl, hbody, hchars, hforms⟩
  · rintro ⟨chars, behind, more, rfl, hbody, hchars, hforms⟩
    exact ⟨_, behind, more, rfl, (form_atom_iff hplain).2 ⟨chars, rfl, hbody, hchars⟩, hforms⟩

/-- A whole list, given what its elements are. -/
theorem forms_list_iff (level : Nat) (marks : List QuoteKind) (items : List Value)
    {tail rest : List Char} {ws : List Value} (hrest : EndsFormsAt rest) :
    Forms (written ⟨width, true, .shorthand⟩ level marks (.list items) ++ tail) ws rest ↔
      ∃ elements behind more, ws = wrap marks (.list elements) :: more ∧
        Forms (writtenAll ⟨width, true, .shorthand⟩ (level + 1) items ++
          (indentation width level ++ ([')', '\n'] ++ tail))) elements (')' :: behind) ∧
        Forms behind more rest := by
  rw [written_list]
  simp only [List.append_assoc, List.cons_append]
  exact forms_parens_iff level marks hrest

/-- The line of a string. -/
theorem forms_string_iff (level : Nat) (marks : List QuoteKind) (text : String)
    {tail rest : List Char} {ws : List Value} (hrest : EndsFormsAt rest) :
    Forms (written ⟨width, true, .shorthand⟩ level marks (.string text) ++ tail) ws rest ↔
      ∃ more, ws = wrap marks (.string text) :: more ∧ Forms tail more rest := by
  have htext : written ⟨width, true, .shorthand⟩ level marks (.string text) ++ tail =
      indentation width level ++ (markChars marks ++ '"' ::
        (text.toList.flatMap Escape.stringChar ++ '"' :: '\n' :: tail)) := by
    rw [written_string, toList_writeString, stringChars]
    simp
  rw [htext]
  exact forms_literal_iff level marks stringBody_written_iff hrest

/-- The line of an atom that is not empty. -/
theorem forms_atom_iff (level : Nat) (marks : List QuoteKind) {text : String} (hne : text ≠ "")
    {tail rest : List Char} {ws : List Value} (hrest : EndsFormsAt rest) :
    Forms (written ⟨width, true, .shorthand⟩ level marks (.atom text) ++ tail) ws rest ↔
      ∃ chars behind more, ws = wrap marks (.atom (String.ofList chars)) :: more ∧
        AtomBody (atomChars marks text ++ '\n' :: tail) chars behind ∧ chars ≠ [] ∧
        Forms behind more rest := by
  obtain ⟨c, cs, hc, hplain, hmark⟩ := exists_atomChars_cons marks hne
  have htext : written ⟨width, true, .shorthand⟩ level marks (.atom text) ++ tail =
      indentation width level ++ (markChars marks ++ c :: (cs ++ '\n' :: tail)) := by
    rw [written_atom, toList_writeAtom, hc]
    simp
  rw [htext, hc, List.cons_append]
  exact forms_word_iff level marks hplain hmark hrest

mutual

/-- **The lines of a value are read as that value**, and nothing behind them takes part. -/
theorem forms_written_iff : ∀ (v : Value), (∀ a ∈ v.atoms, a ≠ "" ∧ ¬EndsInReturn a) →
    ∀ (level : Nat) (marks : List QuoteKind) {tail rest : List Char} {ws : List Value},
      EndsFormsAt rest →
      (Forms (written ⟨width, true, .shorthand⟩ level marks v ++ tail) ws rest ↔
        ∃ more, ws = wrap marks v :: more ∧ Forms tail more rest)
  | .atom text, hatoms, level, marks, tail, rest, ws, hrest => by
    obtain ⟨hne, hreturn⟩ := hatoms text List.mem_cons_self
    rw [forms_atom_iff level marks hne hrest]
    constructor
    · rintro ⟨chars, behind, more, rfl, hbody, -, hforms⟩
      obtain ⟨rfl, rfl⟩ := (atomBody_line_iff hreturn).1 hbody
      rw [String.ofList_toList]
      exact ⟨more, rfl, (forms_lf_iff hrest).1 hforms⟩
    · rintro ⟨more, rfl, hforms⟩
      refine ⟨text.toList, '\n' :: tail, more, by rw [String.ofList_toList], ?_, by simpa using hne,
        (forms_lf_iff hrest).2 hforms⟩
      exact (atomBody_line_iff hreturn).2 ⟨rfl, rfl⟩
  | .string text, _, level, marks, _, _, _, hrest => forms_string_iff level marks text hrest
  | .list items, hatoms, level, marks, tail, rest, ws, hrest => by
    rw [forms_list_iff level marks items hrest]
    have helements : ∀ {elements : List Value} {behind : List Char},
        Forms (writtenAll ⟨width, true, .shorthand⟩ (level + 1) items ++
          (indentation width level ++ ([')', '\n'] ++ tail))) elements (')' :: behind) ↔
          elements = items ∧ behind = '\n' :: tail := by
      intro elements behind
      rw [forms_writtenAll_iff items hatoms (level + 1) (endsFormsAt_close behind)]
      constructor
      · rintro ⟨others, rfl, hclose⟩
        obtain ⟨rfl, rfl⟩ := (forms_close_line_iff level).1 hclose
        exact ⟨List.append_nil items, rfl⟩
      · rintro ⟨rfl, rfl⟩
        exact ⟨[], (List.append_nil elements).symm, (forms_close_line_iff level).2 ⟨rfl, rfl⟩⟩
    constructor
    · rintro ⟨elements, behind, more, rfl, hforms, hmore⟩
      obtain ⟨rfl, rfl⟩ := helements.1 hforms
      exact ⟨more, rfl, (forms_lf_iff hrest).1 hmore⟩
    · rintro ⟨more, rfl, hforms⟩
      exact ⟨items, '\n' :: tail, more, rfl, helements.2 ⟨rfl, rfl⟩, (forms_lf_iff hrest).2 hforms⟩
  | .quoted kind operand, hatoms, level, marks, _, _, _, hrest =>
    forms_written_iff operand hatoms level (kind :: marks) hrest

/-- The lines of several values are read as these values. -/
theorem forms_writtenAll_iff : ∀ (vs : List Value),
    (∀ a ∈ atomsAll vs, a ≠ "" ∧ ¬EndsInReturn a) →
    ∀ (level : Nat) {tail rest : List Char} {ws : List Value}, EndsFormsAt rest →
      (Forms (writtenAll ⟨width, true, .shorthand⟩ level vs ++ tail) ws rest ↔
        ∃ more, ws = vs ++ more ∧ Forms tail more rest)
  | [], _, level, tail, rest, ws, _ => by simp [writtenAll_nil]
  | v :: vs, hatoms, level, tail, rest, ws, hrest => by
    rw [atomsAll] at hatoms
    rw [writtenAll_cons, List.append_assoc, forms_written_iff v
      (fun a ha => hatoms a (List.mem_append_left _ ha)) level [] hrest]
    have hvs : ∀ {more : List Value},
        Forms (writtenAll ⟨width, true, .shorthand⟩ level vs ++ tail) more rest ↔ _ :=
      forms_writtenAll_iff vs (fun a ha => hatoms a (List.mem_append_right _ ha)) level hrest
    constructor
    · rintro ⟨more, rfl, hforms⟩
      obtain ⟨others, rfl, htail⟩ := hvs.1 hforms
      exact ⟨others, rfl, htail⟩
    · rintro ⟨more, rfl, hforms⟩
      exact ⟨vs ++ more, rfl, hvs.2 ⟨more, rfl, hforms⟩⟩

end

/-! ## Words in the order of reading -/

/-- The words of a value as it is read, with the names of the kinds of its quoted forms. -/
def words (v : Value) : List String :=
  v.desugar.atoms

/-- The same for several values. -/
def wordsAll (vs : List Value) : List String :=
  atomsAll (desugarAll vs)

theorem words_quoted (kind : QuoteKind) (v : Value) :
    words (.quoted kind v) = kind.name :: words v := by
  simp [words, desugar, atoms, atomsAll]

theorem wordsAll_cons (v : Value) (vs : List Value) :
    wordsAll (v :: vs) = words v ++ wordsAll vs := rfl

theorem words_wrap (marks : List QuoteKind) (v : Value) :
    words (wrap marks v) = marks.reverse.map QuoteKind.name ++ words v := by
  induction marks generalizing v with
  | nil => rfl
  | cons kind marks ih => simp [ih, words_quoted]

/-- Neither of two readings goes on where the other one ends. -/
def Diverge (xs ys : List String) : Prop :=
  ¬xs <+: ys ∧ ¬ys <+: xs

theorem Diverge.append {xs ys : List String} (h : Diverge xs ys) (xs' ys' : List String) :
    Diverge (xs ++ xs') (ys ++ ys') := by
  have hcases : ∀ {zs : List String}, xs <+: zs → ys <+: zs → False := fun hxs hys =>
    (List.prefix_or_prefix_of_prefix hxs hys).elim h.1 h.2
  exact ⟨fun hp => hcases ((List.prefix_append xs xs').trans hp) (List.prefix_append ys ys'),
    fun hp => hcases (List.prefix_append xs xs') ((List.prefix_append ys ys').trans hp)⟩

theorem Diverge.append_left {xs ys : List String} (h : Diverge xs ys) (zs : List String) :
    Diverge (zs ++ xs) (zs ++ ys) :=
  ⟨fun hp => h.1 ((List.prefix_append_right_inj zs).1 hp),
    fun hp => h.2 ((List.prefix_append_right_inj zs).1 hp)⟩

theorem Diverge.irrefl (xs : List String) : ¬Diverge xs xs :=
  fun h => h.1 (List.prefix_refl xs)

theorem Diverge.of_ne {x y : String} (h : x ≠ y) : Diverge [x] [y] := by
  constructor
  · rintro ⟨zs, hzs⟩
    exact h (List.cons.inj hzs).1
  · rintro ⟨zs, hzs⟩
    exact h (List.cons.inj hzs).1.symm

/-! ## Values that are not read back -/

/-- A divergence of the values behind the same marks is one of the quoted forms. -/
theorem diverge_wrap {marks : List QuoteKind} {v x : Value} {more : List Value}
    (h : Diverge (words v) (words x)) :
    Diverge (words (wrap marks v)) (wordsAll (wrap marks x :: more)) := by
  rw [wordsAll_cons, words_wrap, words_wrap, List.append_assoc]
  have happend := h.append [] (wordsAll more)
  rw [List.append_nil] at happend
  exact happend.append_left _

mutual

/-- **What is read from the lines of a value has other words** if one of its atoms ends in a
carriage return. -/
theorem diverge_of_forms : ∀ (v : Value), (∀ a ∈ v.atoms, a ≠ "") →
    (∃ a ∈ v.atoms, EndsInReturn a) →
    ∀ (level : Nat) (marks : List QuoteKind) {tail rest : List Char} {ws : List Value},
      EndsFormsAt rest → Forms (written ⟨width, true, .shorthand⟩ level marks v ++ tail) ws rest →
      Diverge (words (wrap marks v)) (wordsAll ws)
  | .atom text, hne, ⟨a, ha, hreturn⟩, level, marks, tail, rest, ws, hrest, h => by
    obtain rfl := List.mem_singleton.1 ha
    obtain ⟨chars, behind, more, rfl, hbody, -, -⟩ :=
      (forms_atom_iff level marks (hne a ha) hrest).1 h
    obtain ⟨others, rfl⟩ := exists_of_atomBody_line hreturn hbody
    refine diverge_wrap (Diverge.of_ne fun heq => ?_)
    have hlength := congrArg (fun s => s.toList.length) heq
    simp at hlength
  | .string _, _, ⟨a, ha, _⟩, _, _, _, _, _, _, _ => absurd ha List.not_mem_nil
  | .list items, hne, hreturn, level, marks, tail, rest, ws, hrest, h => by
    obtain ⟨elements, behind, more, rfl, hforms, -⟩ := (forms_list_iff level marks items hrest).1 h
    refine diverge_wrap ?_
    exact diverge_of_formsAll items hne hreturn (level + 1) (endsFormsAt_close behind) hforms
  | .quoted kind operand, hne, hreturn, level, marks, tail, rest, ws, hrest, h =>
    diverge_of_forms operand hne hreturn level (kind :: marks) hrest h

/-- The first such atom of several values ends in a divergence. -/
theorem diverge_of_formsAll : ∀ (vs : List Value), (∀ a ∈ atomsAll vs, a ≠ "") →
    (∃ a ∈ atomsAll vs, EndsInReturn a) →
    ∀ (level : Nat) {tail rest : List Char} {ws : List Value},
      EndsFormsAt rest → Forms (writtenAll ⟨width, true, .shorthand⟩ level vs ++ tail) ws rest →
      Diverge (wordsAll vs) (wordsAll ws)
  | [], _, ⟨a, ha, _⟩, _, _, _, _, _, _ => absurd ha List.not_mem_nil
  | v :: vs, hne, ⟨a, ha, hreturn⟩, level, tail, rest, ws, hrest, h => by
    rw [atomsAll] at hne ha
    rw [writtenAll_cons, List.append_assoc] at h
    by_cases hv : ∃ b ∈ v.atoms, EndsInReturn b
    · have hdiverge := diverge_of_forms v (fun b hb => hne b (List.mem_append_left _ hb)) hv level []
        hrest h
      have happend := hdiverge.append (wordsAll vs) []
      rwa [List.append_nil] at happend
    · -- the first value is read back, so the atom is one of the others
      have hgood : ∀ b ∈ v.atoms, b ≠ "" ∧ ¬EndsInReturn b := fun b hb =>
        ⟨hne b (List.mem_append_left _ hb), fun hb' => hv ⟨b, hb, hb'⟩⟩
      obtain ⟨more, rfl, hforms⟩ := (forms_written_iff v hgood level [] hrest).1 h
      have hvs : ∃ b ∈ atomsAll vs, EndsInReturn b := by
        rcases List.mem_append.1 ha with ha | ha
        · exact absurd ⟨a, ha, hreturn⟩ hv
        · exact ⟨a, ha, hreturn⟩
      rw [wordsAll_cons, wordsAll_cons]
      exact (diverge_of_formsAll vs (fun b hb => hne b (List.mem_append_right _ hb)) hvs level hrest
        hforms).append_left _

end

/-! ## Whole texts -/

theorem endsFormsAt_nil : EndsFormsAt [] := by
  rintro c ⟨⟩

theorem input_print_eq (v w : Value) :
    Input (v.print ⟨width, true, .shorthand⟩).toList w =
      Forms (written ⟨width, true, .shorthand⟩ 0 [] v ++ []) [w] [] := by
  rw [Input, toList_print, List.append_nil]

/-- **A printed value is read as itself and as nothing else**, if all its atoms can be read
back. -/
theorem input_print_iff {v w : Value} (h : ∀ a ∈ v.atoms, a ≠ "" ∧ ¬EndsInReturn a) :
    Input (v.print ⟨width, true, .shorthand⟩).toList w ↔ w = v := by
  rw [input_print_eq, forms_written_iff v h 0 [] endsFormsAt_nil]
  constructor
  · rintro ⟨more, heq, -⟩
    exact (List.cons.inj heq).1
  · rintro rfl
    exact ⟨[], rfl, .nil (.none [])⟩

/-- Otherwise it is read as a value with other words, if it is read at all. -/
theorem diverge_of_input_print {v w : Value} (hne : ∀ a ∈ v.atoms, a ≠ "")
    (hreturn : ∃ a ∈ v.atoms, EndsInReturn a)
    (h : Input (v.print ⟨width, true, .shorthand⟩).toList w) : Diverge (words v) (words w) := by
  rw [input_print_eq] at h
  have hdiverge := diverge_of_forms v hne hreturn 0 [] endsFormsAt_nil h
  rwa [wrap_nil, wordsAll_cons, wordsAll, desugarAll, atomsAll, List.append_nil] at hdiverge

theorem atom_ne_empty_of_input {text : List Char} {v : Value} (h : Input text v) :
    ∀ a ∈ v.atoms, a ≠ "" := by
  obtain ⟨spaced, behind, -, hform, -⟩ := Reader.exists_form_of_input h
  exact hform.atom_ne_empty

/-- **A printed value is read as itself exactly if all its atoms can be read back.** -/
theorem input_print_self_iff (v : Value) :
    Input (v.print ⟨width, true, .shorthand⟩).toList v ↔
      ∀ a ∈ v.atoms, a ≠ "" ∧ ¬EndsInReturn a := by
  constructor
  · intro h a ha
    have hne := atom_ne_empty_of_input h
    refine ⟨hne a ha, fun hreturn => ?_⟩
    exact Diverge.irrefl _ (diverge_of_input_print hne ⟨a, ha, hreturn⟩ h)
  · intro h
    exact (input_print_iff h).2 rfl

/-! ## Both ways of printing quoted forms -/

/-- A value as it is printed in a style: its quoted forms are spelled out or not. -/
def spelled : QuoteStyle → Value → Value
  | .list, v => v.desugar
  | .shorthand, v => v

theorem print_spelled (width : Nat) (escaping : Bool) (style : QuoteStyle) (v : Value) :
    v.print ⟨width, escaping, style⟩ = (v.spelled style).print ⟨width, escaping, .shorthand⟩ := by
  cases style with
  | list => exact print_list width escaping v
  | shorthand => rfl

theorem depth_spelled (style : QuoteStyle) (v : Value) : (v.spelled style).depth = v.depth := by
  cases style with
  | list => exact depth_desugar v
  | shorthand => rfl

section

variable {p : String → Prop}

mutual

/-- Spelling out adds the names of kinds to the atoms, and nothing else. -/
theorem forall_atoms_desugar (hname : ∀ kind : QuoteKind, p kind.name) : ∀ v : Value,
    (∀ a ∈ v.desugar.atoms, p a) ↔ ∀ a ∈ v.atoms, p a
  | .atom _ | .string _ => Iff.rfl
  | .list items => forall_atomsAll_desugarAll hname items
  | .quoted kind operand => by
    have hwords := words_quoted kind operand
    rw [words, words] at hwords
    rw [hwords, List.forall_mem_cons, forall_atoms_desugar hname operand]
    exact and_iff_right (hname kind)

theorem forall_atomsAll_desugarAll (hname : ∀ kind : QuoteKind, p kind.name) :
    ∀ vs : List Value, (∀ a ∈ atomsAll (desugarAll vs), p a) ↔ ∀ a ∈ atomsAll vs, p a
  | [] => Iff.rfl
  | v :: vs => by
    rw [desugarAll, atomsAll, atomsAll, List.forall_mem_append, List.forall_mem_append,
      forall_atoms_desugar hname v, forall_atomsAll_desugarAll hname vs]

end

theorem forall_atoms_spelled (hname : ∀ kind : QuoteKind, p kind.name) (style : QuoteStyle)
    (v : Value) : (∀ a ∈ (v.spelled style).atoms, p a) ↔ ∀ a ∈ v.atoms, p a := by
  cases style with
  | list => exact forall_atoms_desugar hname v
  | shorthand => rfl

end

theorem not_endsInReturn_name (kind : QuoteKind) : ¬EndsInReturn kind.name := by
  cases kind <;> decide

theorem name_ne_empty (kind : QuoteKind) : kind.name ≠ "" := by
  cases kind <;> decide

/-- The values that are read back from what is printed in either style. -/
theorem input_print_spelled_iff (style : QuoteStyle) (v : Value) :
    Input (v.print ⟨width, true, style⟩).toList (v.spelled style) ↔
      ∀ a ∈ v.atoms, a ≠ "" ∧ ¬EndsInReturn a := by
  rw [print_spelled, input_print_self_iff]
  exact forall_atoms_spelled (fun kind => ⟨name_ne_empty kind, not_endsInReturn_name kind⟩) style v

/-- A printed value is read back within the limit. -/
theorem parseWith_print {limits : Limits} {style : QuoteStyle} {v : Value}
    (h : ∀ a ∈ v.atoms, a ≠ "" ∧ ¬EndsInReturn a) (hdepth : v.depth ≤ limits.maxDepth) :
    parseWith limits (v.print ⟨width, true, style⟩) = .ok (v.spelled style) :=
  parseWith_of_input ((input_print_spelled_iff style v).2 h) (by rwa [depth_spelled])

/-! ## Which values are read back -/

/-- **Which values are read back from what is printed with marks.**  Exactly those with no empty
atom and no atom that ends in a carriage return, as long as the nesting depth is allowed; if only
the depth is not, that is what the error says. -/
theorem parseWith_print_shorthand_iff (limits : Limits) (width : Nat) (v : Value) :
    (parseWith limits (v.print ⟨width, true, .shorthand⟩) = .ok v ↔
      (∀ a ∈ v.atoms, a ≠ "" ∧ ¬EndsInReturn a) ∧ v.depth ≤ limits.maxDepth) ∧
    ((∀ a ∈ v.atoms, a ≠ "" ∧ ¬EndsInReturn a) → limits.maxDepth < v.depth →
      ∃ pos, parseWith limits (v.print ⟨width, true, .shorthand⟩) =
        .error ⟨.nestingTooDeep, pos⟩) := by
  refine ⟨⟨fun h => ?_, fun h => parseWith_print h.1 h.2⟩, fun h hdepth => ?_⟩
  · exact ⟨(input_print_self_iff v).1 (input_of_parseWith h), depth_le_of_parseWith h⟩
  · exact parseWith_overrun ((input_print_self_iff v).2 h) hdepth

/-- A comma in front of an atom that begins with an at sign, at the limit and beyond it. -/
theorem parseWith_print_unquoted_at :
    parseWith ⟨1⟩ ((quoted .unquote (atom "@ x")).print ⟨2, true, .shorthand⟩) =
        .ok (.quoted .unquote (.atom "@ x")) ∧
      ∃ pos, parseWith ⟨0⟩ ((quoted .unquote (atom "@ x")).print ⟨2, true, .shorthand⟩) =
        .error ⟨.nestingTooDeep, pos⟩ :=
  have hatoms : ∀ a ∈ (quoted .unquote (atom "@ x")).atoms, a ≠ "" ∧ ¬EndsInReturn a := by decide
  ⟨(parseWith_print_shorthand_iff ⟨1⟩ 2 _).1.2 ⟨hatoms, by decide⟩,
    (parseWith_print_shorthand_iff ⟨0⟩ 2 _).2 hatoms (by decide)⟩

/-- **Which values are read back from what is printed without marks**, with their quoted forms
spelled out.  The same ones: spelling out nests nothing deeper.  A value and what is spelled out of
it are printed alike, with escapes and without. -/
theorem parseWith_print_list_iff (limits : Limits) (width : Nat) (v : Value) :
    (parseWith limits (v.print ⟨width, true, .list⟩) = .ok v.desugar ↔
      (∀ a ∈ v.atoms, a ≠ "" ∧ ¬EndsInReturn a) ∧ v.depth ≤ limits.maxDepth) ∧
    ∀ escaping, v.desugar.print ⟨width, escaping, .list⟩ = v.print ⟨width, escaping, .list⟩ := by
  refine ⟨⟨fun h => ?_, fun h => parseWith_print h.1 h.2⟩, fun escaping => ?_⟩
  · have hdepth := depth_le_of_parseWith h
    rw [depth_desugar] at hdepth
    exact ⟨(input_print_spelled_iff .list v).1 (input_of_parseWith h), hdepth⟩
  · rw [print_list, print_list, desugar_desugar]

end Value

end SExpr
