import SExpr.Printer
import SExpr.Value.Shape

/-!
# The characters of a printed value

A printed value as one list of characters, token by token.  Everything that is proved of printing
is proved of this list, with escapes and without, for quoted forms with their marks: spelled out as
lists they are printed like the values in which they are lists already.

## What is here

* `Value.print_list` — printing quoted forms as lists is printing the value that spells them out.
* `markChars`, `atomChars`, `stringChars` — the tokens with their escapes.  `joinsComma_iff` says
  which atoms need one more because of their marks.
* `written`, `writtenAll` — the characters of a value and of the elements of a list in any format,
  with `toList_print`.
* `Value.wrap` — a value behind marks that are written in front of it.
-/

set_option autoImplicit false

namespace SExpr
namespace Value

/-! ## Quoted forms as lists -/

/-- Nothing in the name of a kind needs an escape. -/
theorem escape_name (kind : QuoteKind) : Escape.atom kind.name = kind.name := by
  cases kind <;> decide

theorem writeAtom_name (format : Format) (kind : QuoteKind) :
    writeAtom format [] kind.name = kind.name := by
  rw [writeAtom, escape_name]
  split
  · exact String.empty_append
  · rfl

mutual

theorem lines_list (width : Nat) (escaping : Bool) (level : Nat) : ∀ v : Value,
    lines ⟨width, escaping, .list⟩ level [] v =
      lines ⟨width, escaping, .shorthand⟩ level [] v.desugar
  | .atom _ | .string _ => rfl
  | .list items => by
    rw [desugar, lines, lines, linesAll_list width escaping (level + 1) items]
  | .quoted kind operand => by
    simp only [desugar, lines, linesAll, List.append_nil, writeAtom_name,
      lines_list width escaping (level + 1) operand]
    rfl

theorem linesAll_list (width : Nat) (escaping : Bool) (level : Nat) : ∀ vs : List Value,
    linesAll ⟨width, escaping, .list⟩ level vs =
      linesAll ⟨width, escaping, .shorthand⟩ level (desugarAll vs)
  | [] => rfl
  | v :: vs => by
    rw [desugarAll, linesAll, linesAll, lines_list width escaping level v,
      linesAll_list width escaping level vs]

end

/-- **Printing quoted forms as lists is printing the value that spells them out.** -/
theorem print_list (width : Nat) (escaping : Bool) (v : Value) :
    v.print ⟨width, escaping, .list⟩ = v.desugar.print ⟨width, escaping, .shorthand⟩ := by
  rw [print, print, lines_list]

/-! ## Tokens -/

/-- The characters of marks, from the outermost to the innermost. -/
def markChars (marks : List QuoteKind) : List Char :=
  marks.reverse.flatMap fun kind => kind.mark.toList

/-- The characters of an atom behind its marks, with its escapes. -/
def atomChars (marks : List QuoteKind) (text : String) : List Char :=
  (if joinsComma marks text then ['\\'] else []) ++ text.toList.flatMap Escape.atomChar

/-- The characters of a string with its delimiters and its escapes. -/
def stringChars (text : String) : List Char :=
  '"' :: (text.toList.flatMap Escape.stringChar ++ ['"'])

/-- The characters in front of a token. -/
def indentation (width level : Nat) : List Char :=
  List.replicate (width * level) ' '

theorem markChars_nil : markChars [] = [] := rfl

theorem markChars_cons (kind : QuoteKind) (marks : List QuoteKind) :
    markChars (kind :: marks) = markChars marks ++ kind.mark.toList := by
  simp [markChars]

theorem mem_markChars {c : Char} {marks : List QuoteKind} (h : c ∈ markChars marks) :
    c = '\'' ∨ c = '\x60' ∨ c = ',' ∨ c = '@' := by
  obtain ⟨kind, -, hc⟩ := List.mem_flatMap.1 h
  cases kind <;> simp_all [QuoteKind.mark]

/-- Marks are made of four characters only. -/
theorem count_markChars_eq_zero {c : Char} (h : c ≠ '\'' ∧ c ≠ '\x60' ∧ c ≠ ',' ∧ c ≠ '@')
    (marks : List QuoteKind) : (markChars marks).count c = 0 := by
  rw [List.count_eq_zero]
  intro hmem
  rcases mem_markChars hmem with hc | hc | hc | hc
  · exact h.1 hc
  · exact h.2.1 hc
  · exact h.2.2.1 hc
  · exact h.2.2.2 hc

/-- Indentations are made of spaces only. -/
theorem count_indentation_eq_zero {c : Char} (h : c ≠ ' ') (width level : Nat) :
    (indentation width level).count c = 0 := by
  rw [List.count_eq_zero]
  exact fun hmem => h (List.mem_replicate.1 hmem).2

theorem toList_writeMarks (marks : List QuoteKind) :
    (writeMarks marks).toList = markChars marks := by
  rw [writeMarks, String.toList_join, markChars, List.flatMap_map]

/-- The written marks end with a comma exactly if the innermost one is the unquote mark. -/
theorem getLast?_markChars_iff (marks : List QuoteKind) :
    (markChars marks).getLast? = some ',' ↔ marks.head? = some .unquote := by
  cases marks with
  | nil => simp [markChars_nil]
  | cons kind marks =>
    rw [markChars_cons, List.getLast?_append]
    cases kind <;> simp [QuoteKind.mark]

/-- **An atom joins a comma** exactly if it begins with an at sign and the innermost of its marks is
the unquote mark. -/
theorem joinsComma_iff {marks : List QuoteKind} {text : String} :
    joinsComma marks text = true ↔
      marks.head? = some .unquote ∧ text.toList.head? = some '@' := by
  rw [joinsComma, Bool.and_eq_true, beq_iff_eq, beq_iff_eq, toList_writeMarks,
    getLast?_markChars_iff]

@[simp] theorem atomChars_empty (marks : List QuoteKind) : atomChars marks "" = [] := by
  simp [atomChars, joinsComma]

variable {width level : Nat} {escaping : Bool} {style : QuoteStyle}

theorem toList_writeAtom (marks : List QuoteKind) (text : String) :
    (writeAtom ⟨width, true, style⟩ marks text).toList = atomChars marks text := by
  rw [writeAtom, if_pos rfl, String.toList_append, Escape.toList_atom, atomChars]
  split <;> rfl

theorem toList_writeString (text : String) :
    (writeString ⟨width, true, style⟩ text).toList = stringChars text := by
  rw [writeString, if_pos rfl, String.toList_append, String.toList_append, Escape.toList_string]
  rfl

/-- Without escapes, an atom is written as it stands. -/
theorem writeAtom_verbatim (marks : List QuoteKind) (text : String) :
    writeAtom ⟨width, false, style⟩ marks text = text := rfl

/-- Without escapes, a string is written as it stands between its delimiters. -/
theorem toList_writeString_verbatim (text : String) :
    (writeString ⟨width, false, style⟩ text).toList = '"' :: (text.toList ++ ['"']) := by
  simp [writeString]

/-! ## Whole values -/

/-- The characters of lines. -/
def lineChars (width : Nat) (ls : List Line) : List Char :=
  ls.flatMap fun line => (line.render width).toList

/-- The characters of a value at a level of nesting, behind marks that are still to be written. -/
def written (format : Format) (level : Nat) (marks : List QuoteKind) (v : Value) : List Char :=
  lineChars format.indentWidth (lines format level marks v)

/-- The characters of the elements of a list. -/
def writtenAll (format : Format) (level : Nat) (vs : List Value) : List Char :=
  lineChars format.indentWidth (linesAll format level vs)

/-- **A value is printed as the characters that are written for it.** -/
theorem toList_print (format : Format) (v : Value) :
    (v.print format).toList = written format 0 [] v := by
  rw [print, String.toList_join, written, lineChars, List.flatMap_map]

theorem lineChars_append (width : Nat) (ls ms : List Line) :
    lineChars width (ls ++ ms) = lineChars width ls ++ lineChars width ms :=
  List.flatMap_append

theorem lineChars_cons (width level : Nat) (text : String) (ls : List Line) :
    lineChars width (⟨level, text⟩ :: ls) =
      indentation width level ++ (text.toList ++ '\n' :: lineChars width ls) := by
  simp [lineChars, Line.render, Line.indentation, indentation]

theorem written_atom (marks : List QuoteKind) (text : String) :
    written ⟨width, escaping, style⟩ level marks (.atom text) =
      indentation width level ++
        (markChars marks ++
          ((writeAtom ⟨width, escaping, style⟩ marks text).toList ++ ['\n'])) := by
  rw [written, lines, lineChars_cons, String.toList_append, toList_writeMarks, List.append_assoc]
  rfl

theorem written_string (marks : List QuoteKind) (text : String) :
    written ⟨width, escaping, style⟩ level marks (.string text) =
      indentation width level ++
        (markChars marks ++ ((writeString ⟨width, escaping, style⟩ text).toList ++ ['\n'])) := by
  rw [written, lines, lineChars_cons, String.toList_append, toList_writeMarks, List.append_assoc]
  rfl

theorem written_list (marks : List QuoteKind) (items : List Value) :
    written ⟨width, escaping, style⟩ level marks (.list items) =
      indentation width level ++ (markChars marks ++ '(' :: '\n' ::
        (writtenAll ⟨width, escaping, style⟩ (level + 1) items ++
          (indentation width level ++ [')', '\n']))) := by
  rw [written, lines, lineChars_cons, lineChars_append, lineChars_cons, String.toList_append,
    toList_writeMarks, List.append_assoc]
  rfl

theorem writtenAll_nil (format : Format) (level : Nat) : writtenAll format level [] = [] := rfl

theorem writtenAll_cons (format : Format) (level : Nat) (v : Value) (vs : List Value) :
    writtenAll format level (v :: vs) =
      written format level [] v ++ writtenAll format level vs := by
  rw [writtenAll, linesAll, lineChars_append]
  rfl

/-! ## Values behind marks -/

/-- A value as the operand of marks, the innermost first. -/
def wrap (marks : List QuoteKind) (v : Value) : Value :=
  marks.foldl (fun operand kind => .quoted kind operand) v

@[simp] theorem wrap_nil (v : Value) : wrap [] v = v := rfl

@[simp] theorem wrap_cons (kind : QuoteKind) (marks : List QuoteKind) (v : Value) :
    wrap (kind :: marks) v = wrap marks (.quoted kind v) := rfl

end Value

end SExpr
