import SExpr.Proofs.Printer.Tokens
import SExpr.Proofs.Reader.Sequence

/-!
# Tokens end by themselves

What is written for a string or an atom tells where it ends, whatever stands in front of it or
behind it.  So a reader that stands in front of such a token gives it back and stops behind the
blanks that follow it.  An atom has to be followed by a delimiter; and a carriage return at its end
must not be followed by a line feed, which would belong to the atom.

## What is here

* `leadingBlanks`, `behindBlanks` — the two parts of a text at its first character that is no blank.
* `Reader.Takes` — a call that takes a token and the blanks behind it, and no more.
* `Reader.takes_of_form` — a call in front of any form that the allowance lets be opened.
* `Reader.next_token` — calls in front of the tokens of strings and atoms.
-/

set_option autoImplicit false

namespace SExpr

open Grammar

instance : (rest : List Char) → Decidable (EndsAtomAt rest)
  | [] => isTrue (by simp [EndsAtomAt])
  | c :: _ => decidable_of_iff (endsAtom c = true ∧ c ≠ '\\') (by simp [EndsAtomAt])

/-! ## Blanks in front of a text -/

/-- The blanks that a text begins with. -/
def leadingBlanks (text : String) : String :=
  String.ofList (text.toList.takeWhile isBlank)

/-- What stands behind them. -/
def behindBlanks (text : String) : String :=
  String.ofList (text.toList.dropWhile isBlank)

theorem leadingBlanks_append_behindBlanks (text : String) :
    leadingBlanks text ++ behindBlanks text = text := by
  rw [leadingBlanks, behindBlanks, ← String.ofList_append, List.takeWhile_append_dropWhile,
    String.ofList_toList]

theorem endsBlanksAt_behindBlanks (text : String) : EndsBlanksAt (behindBlanks text).toList := by
  rw [behindBlanks, String.toList_ofList]
  intro c hc
  have hhead := List.head?_dropWhile_not isBlank text.toList
  rw [hc] at hhead
  simpa using hhead

theorem blanks_behindBlanks (text : String) : Blanks text.toList (behindBlanks text).toList := by
  rw [behindBlanks, String.toList_ofList]
  induction text.toList with
  | nil => exact .none []
  | cons c cs ih =>
    rw [List.dropWhile_cons]
    split
    · rename_i hblank
      exact .cons hblank ih
    · exact .none _

namespace Reader

/-! ## Calls in front of a token -/

/-- `r.Takes v token rest`: the next call of a reader in front of `token` and `rest` gives `v`, and
moves behind the token and the blanks that the rest begins with. -/
structure Takes (r : Reader) (v : Value) (token rest : String) : Prop where
  /-- The call gives the value. -/
  value : r.next.1 = .ok (some v)
  /-- What is behind the blanks is still ahead. -/
  rest_eq : r.next.2.cursor.rest = TextUnit.ofString (behindBlanks rest)
  /-- The position is moved over the token and the blanks. -/
  pos_eq : r.next.2.cursor.pos =
    r.cursor.pos.advanceAll (TextUnit.ofString (token ++ leadingBlanks rest))
  /-- The offset is moved by their bytes. -/
  offset_eq : r.next.2.cursor.pos.offset =
    r.cursor.pos.offset + token.utf8ByteSize + (leadingBlanks rest).utf8ByteSize
  /-- Wherever in a text the reader stands, it stands behind the token and the blanks. -/
  stands : ∀ text front, r.StandsAt text front (token ++ rest) →
    r.next.2.StandsAt text (front ++ (token ++ leadingBlanks rest)) (behindBlanks rest)
  /-- Nothing is taken from the allowance. -/
  allowance_eq : r.next.2.allowance = r.allowance

variable {r : Reader} {token rest : String} {v : Value}

/-- **A form in front of a reader is taken**, with the blanks behind it. -/
theorem takes_of_form (hform : Form (token ++ rest).toList v rest.toList)
    (hdepth : v.depth ≤ r.allowance) (hrest : r.cursor.rest = TextUnit.ofString (token ++ rest)) :
    r.Takes v token rest := by
  obtain ⟨mid, last, hhalts⟩ := exists_halts_of_form (.none _) hform (blanks_behindBlanks rest)
    (endsBlanksAt_behindBlanks rest) hdepth
  rw [String.ofList_toList] at hhalts
  obtain rfl : mid = token ++ leadingBlanks rest := by
    have happend : mid ++ behindBlanks rest = token ++ leadingBlanks rest ++ behindBlanks rest := by
      rw [hhalts.divides.append_eq, String.append_assoc, leadingBlanks_append_behindBlanks]
    exact (String.append_left_inj _).1 happend
  have hnext := next_of_halts hrest hhalts
  refine ⟨by rw [hnext]; rfl, by rw [hnext]; rfl, by rw [hnext]; rfl, ?_,
    fun text front hr => hr.next hhalts, by rw [hnext]; rfl⟩
  rw [hnext, Outcome.cursor_give, Position.offset_advanceAll, TextUnit.toString_ofString,
    String.utf8ByteSize_append, Nat.add_assoc]

/-! ## The tokens of strings and atoms -/

/-- A string as it is written. -/
def literal (s : String) : String :=
  "\"" ++ Escape.string s ++ "\""

/-- A literal is a string, and nothing behind it takes part. -/
theorem form_literal (s rest : String) :
    Form (literal s ++ rest).toList (.string s) rest.toList := by
  have hbody : StringBody (s.toList.flatMap Escape.stringChar ++ '"' :: rest.toList) s.toList
      rest.toList := Value.stringBody_written_iff.2 ⟨rfl, rfl⟩
  have hform := form_string_iff.2 ⟨s.toList, by rw [String.ofList_toList], hbody⟩
  simpa [literal] using hform

/-- What is written for an atom begins where an atom can begin. -/
theorem exists_escape_cons {s : String} (hne : s ≠ "") :
    ∃ c more, (Escape.atom s).toList = c :: more ∧ (endsAtom c = false ∨ c = '\\') := by
  obtain ⟨d, cs, hcs⟩ := List.exists_cons_of_ne_nil (l := s.toList) (by simpa using hne)
  obtain ⟨c, more, hc, hbegins⟩ := Escape.exists_atomChar_cons d
  refine ⟨c, more ++ cs.flatMap Escape.atomChar, ?_, hbegins⟩
  rw [Escape.toList_atom, hcs, List.flatMap_cons, hc, List.cons_append]

/-- **What an atom is read as** is all that belongs to it. -/
theorem form_escape {s rest : String} {chars behind : List Char} (hne : s ≠ "")
    (hbody : AtomBody (Escape.atom s ++ rest).toList chars behind) (hchars : chars ≠ []) :
    Form (Escape.atom s ++ rest).toList (.atom (String.ofList chars)) behind := by
  obtain ⟨c, more, hc, hbegins⟩ := exists_escape_cons hne
  rw [String.toList_append, hc, List.cons_append] at hbody ⊢
  exact (form_atom_iff hbegins).2 ⟨chars, rfl, hbody, hchars⟩

/-- In front of a delimiter an atom ends, unless a line break pair stands across its end. -/
theorem form_atom {s rest : String} (hne : s ≠ "") (hends : EndsAtomAt rest.toList)
    (hseam : ¬(EndsInReturn s ∧ rest.toList.head? = some '\n')) :
    Form (Escape.atom s ++ rest).toList (.atom s) rest.toList := by
  have hbody : AtomBody (Escape.atom s ++ rest).toList s.toList rest.toList := by
    rw [String.toList_append, Escape.toList_atom, Value.atomBody_written_iff hseam]
    exact ⟨[], (List.append_nil _).symm, .done hends⟩
  have hform := form_escape hne hbody (by simpa using hne)
  rwa [String.ofList_toList] at hform

/-- A line feed behind a carriage return belongs to the atom, and so does what follows it. -/
theorem exists_form_of_seam {s rest : String} (hreturn : EndsInReturn s)
    (hfeed : rest.toList.head? = some '\n') :
    ∃ more behind, Form (Escape.atom s ++ rest).toList (.atom (s ++ "\n" ++ more)) behind := by
  obtain ⟨tail, htail⟩ := List.head?_eq_some_iff.1 hfeed
  obtain ⟨chars, behind, hbody⟩ := exists_atomBody (Escape.atom s ++ rest).toList
  have hline : AtomBody (Value.atomChars [] s ++ '\n' :: tail) chars behind := by
    rwa [Value.atomBody_atomChars_iff, ← Escape.toList_atom, ← htail, ← String.toList_append]
  obtain ⟨more, rfl⟩ := Value.exists_of_atomBody_line hreturn hline
  have hne : s ≠ "" := by
    rintro rfl
    cases hreturn
  refine ⟨String.ofList more, behind, ?_⟩
  have htext : s ++ "\n" ++ String.ofList more = String.ofList (s.toList ++ '\n' :: more) := by
    rw [← String.toList_inj]
    simp
  rw [htext]
  exact form_escape hne hbody (by simp)

/-- **The tokens of strings and atoms end by themselves.**  A call in front of a written string gives
the string and takes exactly what was written for it, with the blanks behind it.  So does a call in
front of a written atom, if the text ends there or goes on with a delimiter other than a backslash.
The one exception is an atom that ends in a carriage return, in front of a line feed: then the line
feed is read as part of the atom. -/
theorem next_token (r : Reader) (s rest : String) :
    (r.cursor.rest = TextUnit.ofString (literal s ++ rest) →
      r.Takes (.string s) (literal s) rest) ∧
    (s ≠ "" → EndsAtomAt rest.toList → r.cursor.rest = TextUnit.ofString (Escape.atom s ++ rest) →
      (¬(EndsInReturn s ∧ rest.toList.head? = some '\n') →
        r.Takes (.atom s) (Escape.atom s) rest) ∧
      (EndsInReturn s → rest.toList.head? = some '\n' →
        ∃ more, r.next.1 = .ok (some (.atom (s ++ "\n" ++ more))))) := by
  refine ⟨fun hrest => ?_, fun hne hends hrest => ⟨fun hseam => ?_, fun hreturn hfeed => ?_⟩⟩
  · exact takes_of_form (form_literal s rest) (Nat.zero_le _) hrest
  · exact takes_of_form (form_atom hne hends hseam) (Nat.zero_le _) hrest
  · obtain ⟨more, behind, hform⟩ := exists_form_of_seam hreturn hfeed
    obtain ⟨spaced, hblanks, hspaced⟩ := exists_blanks behind
    obtain ⟨mid, last, hhalts⟩ : ∃ mid last, Halts r.allowance (Escape.atom s ++ rest) mid _ last _ :=
      exists_halts_of_form (.none _) hform hblanks hspaced (Nat.zero_le _)
    exact ⟨more, by rw [next_of_halts hrest hhalts]; rfl⟩

/-- A string and an atom with a carriage return at the end, in front of blanks, and that atom in front
of a line feed. -/
theorem next_token_return :
    (Reader.mk ⟨TextUnit.ofString "\"\\\"\\r\" \n)", ⟨7, 1, 2⟩⟩ 0).Takes (.string "\"\r")
      "\"\\\"\\r\"" " \n)" ∧
    (Reader.mk ⟨TextUnit.ofString "\\(\\\r \n)", ⟨7, 1, 2⟩⟩ 0).Takes (.atom "(\r") "\\(\\\r"
      " \n)" ∧
    ∃ more, (Reader.mk ⟨TextUnit.ofString "\\(\\\r\n)", ⟨7, 1, 2⟩⟩ 0).next.1 =
      .ok (some (.atom ("(\r" ++ "\n" ++ more))) := by
  have hliteral : literal "\"\r" = "\"\\\"\\r\"" := by decide
  have hatom : Escape.atom "(\r" = "\\(\\\r" := by decide
  rw [← hliteral, ← hatom]
  refine ⟨(next_token _ "\"\r" " \n)").1 (by decide), ?_, ?_⟩
  · exact ((next_token _ "(\r" " \n)").2 (by decide) (by decide) (by decide)).1 (by decide)
  · exact ((next_token _ "(\r" "\n)").2 (by decide) (by decide) (by decide)).2 (by decide) (by decide)

end Reader

end SExpr
