import SExpr.Proofs.Printer.ReadBack
import SExpr.Proofs.Reader.Sequence

/-!
# Printed values, one behind the other

A printed value ends with a line feed, and the next one begins with a character that is no blank.
So a reader that is asked for one form after another gives the values back one by one, and stands
each time where the next text begins.  Whoever wants the whole text to be one form is told where the
second one is.

## What is here

* `Value.form_written` — the lines of a value are that value and the end of its last line.
* `printAll` — values that are printed one behind the other, each with a width of its own.
* `StandsAt.next_print` — one call in front of a printed value.
* `StandsAt.calls_printAll` — the calls in front of several.
* `given_printAll` — all calls over such a text, and the whole text as one form.
-/

set_option autoImplicit false

namespace SExpr

open Grammar

namespace Value

/-! ## One printed value -/

variable {width : Nat}

theorem indentation_zero (width : Nat) : indentation width 0 = [] := rfl

/-- An atom behind its marks, in front of the end of its line. -/
theorem form_atom_line {text : String} (hne : text ≠ "") (hreturn : ¬EndsInReturn text)
    (marks : List QuoteKind) (tail : List Char) :
    Form (markChars marks ++ (atomChars marks text ++ '\n' :: tail)) (wrap marks (.atom text))
      ('\n' :: tail) := by
  have hbody : AtomBody (atomChars marks text ++ '\n' :: tail) text.toList ('\n' :: tail) :=
    (atomBody_line_iff hreturn).2 ⟨rfl, rfl⟩
  obtain ⟨c, more, hc, hplain, hmark⟩ := exists_atomChars_cons marks hne
  rw [hc, List.cons_append] at hbody ⊢
  have hblank : isBlank c = false := isBlank_eq_false_of_beginsAtom hplain
  refine (form_marks_iff marks hblank hmark).2 ⟨.atom text, rfl, ?_⟩
  exact (form_atom_iff hplain).2
    ⟨text.toList, by rw [String.ofList_toList], hbody, by simpa using hne⟩

/-- **The lines of a value are that value**, up to the end of the last one. -/
theorem form_written : ∀ (v : Value), (∀ a ∈ v.atoms, a ≠ "" ∧ ¬EndsInReturn a) →
    ∀ (marks : List QuoteKind) (tail : List Char),
      Form (written ⟨width, true, .shorthand⟩ 0 marks v ++ tail) (wrap marks v) ('\n' :: tail)
  | .atom text, hatoms, marks, tail => by
    obtain ⟨hne, hreturn⟩ := hatoms text List.mem_cons_self
    have hform := form_atom_line hne hreturn marks tail
    rw [written_atom, toList_writeAtom, indentation_zero]
    simpa using hform
  | .string text, _, marks, tail => by
    have hbody : StringBody (text.toList.flatMap Escape.stringChar ++ '"' :: '\n' :: tail)
        text.toList ('\n' :: tail) := stringBody_written_iff.2 ⟨rfl, rfl⟩
    have hform := (form_marks_iff marks (by decide) (fun _ => by decide)).2
      ⟨.string text, rfl, form_string_iff.2 ⟨text.toList, by rw [String.ofList_toList], hbody⟩⟩
    rw [written_string, toList_writeString, indentation_zero, stringChars]
    simpa using hform
  | .list items, hatoms, marks, tail => by
    have hitems : Forms ('\n' :: (writtenAll ⟨width, true, .shorthand⟩ 1 items ++
        (indentation width 0 ++ ([')', '\n'] ++ tail)))) items (')' :: '\n' :: tail) := by
      rw [forms_lf_iff (endsFormsAt_close _),
        forms_writtenAll_iff items hatoms 1 (endsFormsAt_close _)]
      exact ⟨[], (List.append_nil items).symm, (forms_close_line_iff 0).2 ⟨rfl, rfl⟩⟩
    have hform := (form_marks_iff marks (by decide) (fun _ => by decide)).2
      ⟨.list items, rfl, form_list_iff.2 ⟨items, rfl, hitems⟩⟩
    rw [written_list, indentation_zero]
    simpa [indentation_zero] using hform
  | .quoted kind operand, hatoms, marks, tail => form_written operand hatoms (kind :: marks) tail

end Value

/-! ## Several printed values -/

open Value

/-- Values that are printed one behind the other, each with a width of its own. -/
def printAll (printed : List (Nat × Value)) : String :=
  String.join (printed.map fun (width, v) => v.print ⟨width, true, .shorthand⟩)

theorem printAll_nil : printAll [] = "" := rfl

theorem printAll_cons (width : Nat) (v : Value) (printed : List (Nat × Value)) :
    printAll ((width, v) :: printed) = v.print ⟨width, true, .shorthand⟩ ++ printAll printed := by
  rw [printAll, List.map_cons, String.join_cons, printAll]

/-- A printed value, and what may follow it, begins with no blank. -/
theorem endsBlanksAt_print {width : Nat} {v : Value} (h : ∀ a ∈ v.atoms, a ≠ "" ∧ ¬EndsInReturn a)
    (more : String) : EndsBlanksAt (v.print ⟨width, true, .shorthand⟩ ++ more).toList := by
  rw [String.toList_append, toList_print]
  exact (form_written v h [] more.toList).endsBlanksAt

theorem endsBlanksAt_printAll {printed : List (Nat × Value)}
    (h : ∀ p ∈ printed, ∀ a ∈ p.2.atoms, a ≠ "" ∧ ¬EndsInReturn a) :
    EndsBlanksAt (printAll printed).toList := by
  match printed with
  | [] => rintro c ⟨⟩
  | (width, v) :: printed =>
    rw [printAll_cons]
    exact endsBlanksAt_print (h (width, v) List.mem_cons_self) _

namespace Reader

/-! ## Calls -/

variable {limit width : Nat} {text front more : String} {v : Value} {r : Reader}

/-- **A run over a printed value ends behind it**, where no blank follows. -/
theorem exists_halts_print (h : ∀ a ∈ v.atoms, a ≠ "" ∧ ¬EndsInReturn a) (hdepth : v.depth ≤ limit)
    (hmore : EndsBlanksAt more.toList) :
    ∃ last, Halts limit (v.print ⟨width, true, .shorthand⟩ ++ more)
      (v.print ⟨width, true, .shorthand⟩) more last (.value v) := by
  have htext : (v.print ⟨width, true, .shorthand⟩ ++ more).toList =
      written ⟨width, true, .shorthand⟩ 0 [] v ++ more.toList := by
    rw [String.toList_append, toList_print]
  have hform := @form_written width v h [] more.toList
  rw [← htext] at hform
  obtain ⟨taken, last, hhalts⟩ := exists_halts_of_form (.none _) hform
    (.cons (by decide) (.none more.toList)) hmore hdepth
  rw [String.ofList_toList] at hhalts
  obtain rfl : taken = v.print ⟨width, true, .shorthand⟩ := by
    have happend := congrArg String.toList hhalts.divides.append_eq
    rw [String.toList_append, String.toList_append] at happend
    exact String.toList_inj.1 (List.append_cancel_right happend)
  exact ⟨last, hhalts⟩

/-- **A call in front of a printed value gives it**, and the reader stands behind its text. -/
theorem StandsAt.next_print (hr : r.StandsAt text front (v.print ⟨width, true, .shorthand⟩ ++ more))
    (h : ∀ a ∈ v.atoms, a ≠ "" ∧ ¬EndsInReturn a) (hdepth : v.depth ≤ r.allowance)
    (hmore : EndsBlanksAt more.toList) :
    r.given 0 = .ok (some v) ∧ r.next.2.allowance = r.allowance ∧
      r.next.2.StandsAt text (front ++ v.print ⟨width, true, .shorthand⟩) more := by
  obtain ⟨last, hhalts⟩ := exists_halts_print h hdepth hmore
  have hnext := hr.next_eq hhalts
  refine ⟨?_, by rw [hnext]; rfl, hr.next hhalts⟩
  rw [given, afterCalls, hnext]
  rfl

/-- **The calls in front of several printed values** give one after the other. -/
theorem StandsAt.calls_printAll {printed : List (Nat × Value)}
    (hr : r.StandsAt text front (printAll printed))
    (h : ∀ p ∈ printed, (∀ a ∈ p.2.atoms, a ≠ "" ∧ ¬EndsInReturn a) ∧ p.2.depth ≤ r.allowance) :
    (∀ n, n ≤ printed.length → (r.afterCalls n).allowance = r.allowance ∧
        (r.afterCalls n).StandsAt text (front ++ printAll (printed.take n))
          (printAll (printed.drop n))) ∧
      ∀ n p, printed[n]? = some p → r.given n = .ok (some p.2) := by
  induction printed generalizing r front with
  | nil =>
    refine ⟨fun n hn => ?_, fun n p hp => by simp at hp⟩
    obtain rfl : n = 0 := Nat.le_zero.1 hn
    rw [List.take_nil, List.drop_nil, printAll_nil, String.append_empty]
    exact ⟨rfl, hr⟩
  | cons p printed ih =>
    obtain ⟨width, v⟩ := p
    obtain ⟨hatoms, hdepth⟩ := h (width, v) List.mem_cons_self
    rw [printAll_cons] at hr
    obtain ⟨hvalue, hallowance, hstands⟩ := hr.next_print hatoms hdepth
      (endsBlanksAt_printAll fun q hq => (h q (List.mem_cons_of_mem _ hq)).1)
    obtain ⟨hplaces, hvalues⟩ := ih hstands fun q hq => by
      rw [hallowance]
      exact h q (List.mem_cons_of_mem _ hq)
    refine ⟨fun n hn => ?_, fun n q hq => ?_⟩
    · cases n with
      | zero =>
        rw [List.take_zero, List.drop_zero, printAll_nil, String.append_empty, printAll_cons]
        exact ⟨rfl, hr⟩
      | succ n =>
        rw [afterCalls_succ, List.take_succ_cons, List.drop_succ_cons, printAll_cons,
          ← String.append_assoc, ← hallowance]
        exact hplaces n (Nat.le_of_succ_le_succ hn)
    · cases n with
      | zero =>
        obtain rfl := Option.some.inj hq
        exact hvalue
      | succ n =>
        rw [given_succ]
        exact hvalues n q hq

/-- The first of several printed values is not all of their text. -/
theorem exists_superfluous {limits : Limits} {first second : Nat × Value}
    {others : List (Nat × Value)}
    (h : ∀ p ∈ first :: second :: others,
      (∀ a ∈ p.2.atoms, a ≠ "" ∧ ¬EndsInReturn a) ∧ p.2.depth ≤ limits.maxDepth) :
    ∃ c, (printAll [second]).toList.head? = some c ∧
      parseWith limits (printAll (first :: second :: others)) =
        .error ⟨.superfluous c, .behind (printAll [first])⟩ := by
  obtain ⟨width, v⟩ := first
  obtain ⟨width', w⟩ := second
  obtain ⟨hatoms, hdepth⟩ := h (width, v) List.mem_cons_self
  have hw := (h (width', w) (by simp)).1
  have hform := @form_written width' w hw [] []
  rw [List.append_nil, ← toList_print] at hform
  obtain ⟨c, cs, hc, -⟩ := hform.exists_cons
  have hsecond : ∀ others, (printAll ((width', w) :: others)).toList.head? = some c := by
    intro others
    rw [printAll_cons, String.toList_append, hc]
    rfl
  have hfirst : printAll [(width, v)] = v.print ⟨width, true, .shorthand⟩ := by
    rw [printAll_cons, printAll_nil, String.append_empty]
  obtain ⟨last, hhalts⟩ : ∃ last,
      Halts limits.maxDepth (printAll ((width, v) :: (width', w) :: others))
        (printAll [(width, v)]) (printAll ((width', w) :: others)) last (.value v) := by
    rw [printAll_cons width v, hfirst]
    exact exists_halts_print hatoms hdepth
      (endsBlanksAt_printAll fun q hq => (h q (List.mem_cons_of_mem _ hq)).1)
  refine ⟨c, hsecond [], parseWith_eq_error_iff.2 ⟨_, _, last, _, hhalts, ?_, rfl⟩⟩
  rw [hsecond]
  rfl

/-- **Printed values are read one by one**, if each of them can be read back.  In front of each call
the reader stands exactly where the text of the next value begins, with the whole allowance; behind
the last one it stands at the end, and finds nothing more.  Two or more of them are not one form:
the second one is superfluous. -/
theorem given_printAll (limits : Limits) (printed : List (Nat × Value))
    (h : ∀ p ∈ printed,
      (∀ a ∈ p.2.atoms, a ≠ "" ∧ ¬EndsInReturn a) ∧ p.2.depth ≤ limits.maxDepth) :
    (∀ n, n ≤ printed.length →
      (ofString limits (printAll printed)).afterCalls n =
        ⟨⟨TextUnit.ofString (printAll (printed.drop n)), .behind (printAll (printed.take n))⟩,
          limits.maxDepth⟩) ∧
    (∀ n width v, printed[n]? = some (width, v) →
      (ofString limits (printAll printed)).given n = .ok (some v)) ∧
    (ofString limits (printAll printed)).given printed.length = .ok none ∧
    ∀ first second others, printed = first :: second :: others →
      ∃ c, (printAll [second]).toList.head? = some c ∧
        parseWith limits (printAll printed) =
          .error ⟨.superfluous c, .behind (printAll [first])⟩ := by
  obtain ⟨hplaces, hvalues⟩ := (standsAt_ofString limits (printAll printed)).calls_printAll h
  have hreaders : ∀ n, n ≤ printed.length →
      (ofString limits (printAll printed)).afterCalls n =
        ⟨⟨TextUnit.ofString (printAll (printed.drop n)), .behind (printAll (printed.take n))⟩,
          limits.maxDepth⟩ := by
    intro n hn
    obtain ⟨hallowance, hstands⟩ := hplaces n hn
    have hpos := hstands.divides.eq_behind
    rw [String.empty_append] at hpos
    exact Reader.ext (Cursor.ext hstands.rest_eq hpos) hallowance
  refine ⟨hreaders, fun n width v hn => hvalues n (width, v) hn, ?_, ?_⟩
  · have hlast := hreaders printed.length (Nat.le_refl _)
    rw [List.drop_length] at hlast
    rw [given, hlast, next_of_ends (Or.inl rfl)]
  · rintro first second others rfl
    exact exists_superfluous h

/-- Two values behind each other: a list, and an atom that has to be kept apart from its mark. -/
theorem given_printAll_unquoted_at :
    (ofString ⟨1⟩ "(\n   a\\ b\n)\n,\\@\n").given 1 = .ok (some (.quoted .unquote (.atom "@"))) ∧
      parseWith ⟨1⟩ "(\n   a\\ b\n)\n,\\@\n" = .error ⟨.superfluous ',', ⟨12, 3, 0⟩⟩ := by
  have hall := given_printAll ⟨1⟩ [(3, .list [.atom "a b"]), (0, .quoted .unquote (.atom "@"))]
    (by decide)
  obtain ⟨c, hc, herror⟩ := hall.2.2.2 _ _ _ rfl
  obtain rfl : ',' = c := Option.some.inj hc
  exact ⟨hall.2.1 1 _ _ rfl, herror⟩

end Reader

end SExpr
