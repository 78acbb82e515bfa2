import SExpr.Proofs.Printer.Verbatim

/-!
# What escapes add

Printed with escapes, a value has one more character for each character that is escaped, and one
more for each at sign that is kept from joining a comma.  Everything else is the same in the same
order.  So the two texts of a value are compared by their lengths: what an escape adds in one place
is not made up for in another, and the texts are equal exactly if nothing is escaped.

## What is here

* `Escape.Adds` — a text and what is written for it, by how many characters that is longer.
* `Value.escapeCount` — what the escapes of a value add, counted on its leaves.
* `adds_written` — the characters of a value with escapes and without.
* `print_escaping_eq_iff` — which values are printed alike, in both styles.
-/

set_option autoImplicit false

namespace SExpr

namespace Escape

/-! ## Texts that grow -/

/-- `Adds n plain written`: what is written is longer by `n` characters, and is the text as it
stands if that is none. -/
structure Adds (n : Nat) (plain written : List Char) : Prop where
  /-- The characters that are added. -/
  length_eq : written.length = plain.length + n
  /-- Nothing is changed without one being added. -/
  eq_of_zero : n = 0 → written = plain

variable {n m : Nat} {plain written plain' written' : List Char}

theorem Adds.refl (text : List Char) : Adds 0 text text :=
  ⟨rfl, fun _ => rfl⟩

theorem Adds.append (h : Adds n plain written) (h' : Adds m plain' written') :
    Adds (n + m) (plain ++ plain') (written ++ written') := by
  refine ⟨?_, fun hzero => ?_⟩
  · rw [List.length_append, List.length_append, h.length_eq, h'.length_eq]
    omega
  · rw [h.eq_of_zero (by omega), h'.eq_of_zero (by omega)]

theorem Adds.append_left (front : List Char) (h : Adds n plain written) :
    Adds n (front ++ plain) (front ++ written) := by
  have hfront := (Adds.refl front).append h
  rwa [Nat.zero_add] at hfront

theorem Adds.append_right (h : Adds n plain written) (back : List Char) :
    Adds n (plain ++ back) (written ++ back) :=
  h.append (.refl back)

/-- **Two such texts are equal exactly if nothing is added.** -/
theorem Adds.eq_iff (h : Adds n plain written) : written = plain ↔ n = 0 := by
  refine ⟨?_, h.eq_of_zero⟩
  rintro rfl
  have hlength := h.length_eq
  omega

/-- Where one character is added for some, and none for the others, these are counted. -/
theorem adds_flatMap {code : Char → List Char} {escaped : Char → Bool}
    (h : ∀ c, Adds (if escaped c then 1 else 0) [c] (code c)) (cs : List Char) :
    Adds (cs.countP escaped) cs (cs.flatMap code) := by
  induction cs with
  | nil => exact .refl []
  | cons c cs ih =>
    have hcons := (h c).append ih
    rwa [List.countP_cons, Nat.add_comm, List.flatMap_cons, ← List.singleton_append]

theorem adds_atomChar (c : Char) : Adds (if endsAtom c then 1 else 0) [c] (atomChar c) := by
  rw [atomChar]
  split
  · exact ⟨rfl, by simp⟩
  · exact .refl [c]

/-- The characters that must not stand raw in a string. -/
def hasLetter (c : Char) : Bool :=
  (letter? c).isSome

theorem adds_stringChar (c : Char) : Adds (if hasLetter c then 1 else 0) [c] (stringChar c) := by
  rw [stringChar, hasLetter]
  cases letter? c with
  | some letter => exact ⟨rfl, by simp⟩
  | none => exact .refl [c]

end Escape

namespace Value

open Escape

variable {width : Nat}

/-! ## Counting escapes -/

/-- How many characters of this kind several texts hold. -/
def countChars (p : Char → Bool) (texts : List String) : Nat :=
  (texts.flatMap String.toList).countP p

section

variable (p : Char → Bool)

@[simp] theorem countChars_nil : countChars p [] = 0 := rfl

@[simp] theorem countChars_singleton (text : String) :
    countChars p [text] = text.toList.countP p := by
  simp [countChars]

@[simp] theorem countChars_append (texts others : List String) :
    countChars p (texts ++ others) = countChars p texts + countChars p others := by
  simp [countChars]

theorem countChars_eq_zero_iff {texts : List String} :
    countChars p texts = 0 ↔ ∀ text ∈ texts, ∀ c ∈ text.toList, p c = false := by
  rw [countChars, List.countP_eq_zero]
  constructor
  · intro h text htext c hc
    exact Bool.eq_false_iff.2 (h c (List.mem_flatMap.2 ⟨text, htext, hc⟩))
  · intro h c hc
    obtain ⟨text, htext, hmem⟩ := List.mem_flatMap.1 hc
    exact Bool.eq_false_iff.1 (h text htext c hmem)

end

/-- How many of these texts a comma in front would join. -/
def countAts (texts : List String) : Nat :=
  texts.countP fun text => text.toList.head? == some '@'

@[simp] theorem countAts_nil : countAts [] = 0 := rfl

@[simp] theorem countAts_append (texts others : List String) :
    countAts (texts ++ others) = countAts texts + countAts others :=
  List.countP_append

theorem countAts_eq_zero_iff {texts : List String} :
    countAts texts = 0 ↔ ∀ text ∈ texts, ¬BeginsWithAt text := by
  rw [countAts, List.countP_eq_zero]
  simp only [beq_iff_eq, BeginsWithAt]

/-- How many characters the escapes of a value add, if its quoted forms are printed with marks. -/
def escapeCount (v : Value) : Nat :=
  countChars endsAtom v.atoms + countChars hasLetter v.strings + countAts v.unquotedAtoms

/-- The same for several values. -/
def escapeCountAll (vs : List Value) : Nat :=
  countChars endsAtom (atomsAll vs) + countChars hasLetter (stringsAll vs) +
    countAts (unquotedAtomsAll vs)

theorem escapeCountAll_cons (v : Value) (vs : List Value) :
    escapeCountAll (v :: vs) = v.escapeCount + escapeCountAll vs := by
  simp only [escapeCountAll, escapeCount, atomsAll, stringsAll, unquotedAtomsAll, countChars_append,
    countAts_append]
  omega

/-- Marks change no leaf. -/
theorem leaves_wrap (marks : List QuoteKind) (v : Value) :
    (wrap marks v).atoms = v.atoms ∧ (wrap marks v).strings = v.strings := by
  induction marks generalizing v with
  | nil => exact ⟨rfl, rfl⟩
  | cons kind marks ih => exact ih (.quoted kind v)

/-- Marks in front of anything but an atom need no escape. -/
theorem escapeCount_wrap (marks : List QuoteKind) {v : Value} (h : ∀ text, v ≠ .atom text) :
    (wrap marks v).escapeCount = v.escapeCount := by
  rw [escapeCount, (leaves_wrap marks v).1, (leaves_wrap marks v).2, unquotedAtoms_wrap marks h]
  rfl

/-- In front of an atom, marks need one if the atom would join their comma. -/
theorem escapeCount_wrap_atom (marks : List QuoteKind) (text : String) :
    (wrap marks (.atom text)).escapeCount =
      (if joinsComma marks text then 1 else 0) + text.toList.countP endsAtom := by
  have hcomma : countAts (wrap marks (.atom text)).unquotedAtoms =
      if joinsComma marks text then 1 else 0 := by
    simp only [joinsComma_iff]
    cases marks with
    | nil => simp [unquotedAtoms]
    | cons kind marks =>
      rw [wrap_cons, unquotedAtoms_wrap_quoted]
      cases kind <;> simp [unquotedAtoms, countAts, List.countP_cons]
  rw [escapeCount, (leaves_wrap marks _).1, (leaves_wrap marks _).2, hcomma]
  simp only [atoms, strings, countChars_singleton, countChars_nil]
  omega

/-! ## The characters of a value -/

/-- The escapes of an atom behind its marks. -/
theorem adds_atomChars (marks : List QuoteKind) (text : String) :
    Adds ((if joinsComma marks text then 1 else 0) + text.toList.countP endsAtom) text.toList
      (atomChars marks text) := by
  have hfront : Adds (if joinsComma marks text then 1 else 0) []
      (if joinsComma marks text then ['\\'] else []) := by
    split
    · exact ⟨rfl, by simp⟩
    · exact .refl []
  exact hfront.append (adds_flatMap adds_atomChar text.toList)

mutual

/-- **What is written for a value with escapes is longer by their number.** -/
theorem adds_written : ∀ (v : Value) (level : Nat) (marks : List QuoteKind),
    Adds (wrap marks v).escapeCount (written ⟨width, false, .shorthand⟩ level marks v)
      (written ⟨width, true, .shorthand⟩ level marks v)
  | .atom text, level, marks => by
    rw [written_atom, written_atom, writeAtom_verbatim, toList_writeAtom, escapeCount_wrap_atom]
    exact (((adds_atomChars marks text).append_right ['\n']).append_left _).append_left _
  | .string text, level, marks => by
    have hcount : (wrap marks (.string text)).escapeCount = text.toList.countP hasLetter := by
      rw [escapeCount_wrap marks (by simp)]
      simp [escapeCount, atoms, strings, unquotedAtoms]
    have hquotes := (adds_flatMap adds_stringChar text.toList).append_right ['"', '\n']
    rw [written_string, written_string, toList_writeString_verbatim, toList_writeString, hcount]
    refine Adds.append_left _ (Adds.append_left _ ?_)
    simpa [stringChars] using hquotes.append_left ['"']
  | .list items, level, marks => by
    have hcount : (wrap marks (.list items)).escapeCount = escapeCountAll items :=
      escapeCount_wrap marks (by simp)
    have hitems := (adds_writtenAll items (level + 1)).append_right
      (indentation width level ++ [')', '\n'])
    rw [written_list, written_list, hcount]
    exact ((hitems.append_left ['(', '\n']).append_left _).append_left _
  | .quoted kind operand, level, marks => adds_written operand level (kind :: marks)

/-- The same for several values. -/
theorem adds_writtenAll : ∀ (vs : List Value) (level : Nat),
    Adds (escapeCountAll vs) (writtenAll ⟨width, false, .shorthand⟩ level vs)
      (writtenAll ⟨width, true, .shorthand⟩ level vs)
  | [], _ => .refl []
  | v :: vs, level => by
    rw [writtenAll_cons, writtenAll_cons, escapeCountAll_cons]
    exact (adds_written v level []).append (adds_writtenAll vs level)

end

/-- **What escapes add to the text of a value.** -/
theorem adds_print (width : Nat) (style : QuoteStyle) (v : Value) :
    Adds (v.spelled style).escapeCount (v.print ⟨width, false, style⟩).toList
      (v.print ⟨width, true, style⟩).toList := by
  rw [print_spelled width false, print_spelled width true, toList_print, toList_print]
  exact adds_written (v.spelled style) 0 []

/-! ## Which values are printed alike -/

/-- Is nothing of a value escaped when it is printed in this style? -/
structure PrintsPlain (style : QuoteStyle) (v : Value) : Prop where
  /-- No atom holds a delimiter. -/
  atoms : ∀ a ∈ v.atoms, ∀ c ∈ a.toList, endsAtom c = false
  /-- No string holds a character that must not stand raw. -/
  strings : ∀ s ∈ v.strings, ∀ c ∈ s.toList, letter? c = none
  /-- Where a comma is written, no at sign follows. -/
  unquoted : style = .shorthand → ∀ a ∈ v.unquotedAtoms, ¬BeginsWithAt a

theorem forall_strings_spelled {p : String → Prop} (style : QuoteStyle) (v : Value) :
    (∀ s ∈ (v.spelled style).strings, p s) ↔ ∀ s ∈ v.strings, p s := by
  cases style with
  | list => rw [spelled, strings_desugar]
  | shorthand => rfl

theorem forall_unquotedAtoms_spelled {p : String → Prop} (style : QuoteStyle) (v : Value) :
    (∀ a ∈ (v.spelled style).unquotedAtoms, p a) ↔
      (style = .shorthand → ∀ a ∈ v.unquotedAtoms, p a) := by
  cases style with
  | list => simp [spelled, unquotedAtoms_desugar]
  | shorthand => simp [spelled]

/-- The escapes are none exactly if nothing is escaped. -/
theorem escapeCount_spelled_eq_zero_iff (style : QuoteStyle) (v : Value) :
    (v.spelled style).escapeCount = 0 ↔ v.PrintsPlain style := by
  have hletter : ∀ c, hasLetter c = false ↔ letter? c = none := fun c =>
    Option.isSome_eq_false_iff.trans Option.isNone_iff_eq_none
  have hname : ∀ kind : QuoteKind, ∀ c ∈ kind.name.toList, endsAtom c = false :=
    fun kind => (isBareWord_name kind).2
  rw [escapeCount, Nat.add_eq_zero_iff, Nat.add_eq_zero_iff, countChars_eq_zero_iff,
    countChars_eq_zero_iff, countAts_eq_zero_iff, forall_atoms_spelled hname style v,
    forall_strings_spelled, forall_unquotedAtoms_spelled]
  simp only [hletter]
  constructor
  · rintro ⟨⟨hatoms, hstrings⟩, hunquoted⟩
    exact ⟨hatoms, hstrings, hunquoted⟩
  · intro h
    exact ⟨⟨h.atoms, h.strings⟩, h.unquoted⟩

/-- **Printing with escapes and without is the same exactly if nothing is escaped:** no atom holds a
delimiter, no string holds a character that has an escape letter and, where quoted forms are printed
with their marks, no atom behind an unquote mark begins with an at sign. -/
theorem print_escaping_eq_iff (width : Nat) (style : QuoteStyle) (v : Value) :
    v.print ⟨width, true, style⟩ = v.print ⟨width, false, style⟩ ↔ v.PrintsPlain style := by
  rw [← String.toList_inj, (adds_print width style v).eq_iff, escapeCount_spelled_eq_zero_iff]

end Value

end SExpr
