import SExpr.Proofs.Printer.Tokens

/-!
# The layout of printed text

A printed value has one token on a line, and a token is indented by as many levels as there are
lists around it.  A line feed in an atom is written as it stands, behind a backslash, and cuts the
line of the atom in two; a line feed in a string is not.  So the layout can be read off the text of
every value whose atoms hold no line feed.

## What is here

* `Value.tokenCount`, `Value.enclosures` — how many tokens a value has, and how many lists are
  around each of them, counted on the value.
* `map_level_lines`, `lineFeeds_lines`, `head?_lines_ne` — the lines of the printer against these.
* `splitOn_lineChars` — lines are found again by their line feeds.
* `print_layout` — the text of a value.
-/

set_option autoImplicit false

namespace SExpr

/-! ## Counting line feeds -/

/-- How many line feeds several texts hold. -/
def lineFeeds : List String → Nat
  | [] => 0
  | text :: texts => text.toList.count '\n' + lineFeeds texts

@[simp] theorem lineFeeds_nil : lineFeeds [] = 0 := rfl

@[simp] theorem lineFeeds_cons (text : String) (texts : List String) :
    lineFeeds (text :: texts) = text.toList.count '\n' + lineFeeds texts := rfl

@[simp] theorem lineFeeds_append (texts others : List String) :
    lineFeeds (texts ++ others) = lineFeeds texts + lineFeeds others := by
  induction texts with
  | nil => simp
  | cons text texts ih => simp [ih, Nat.add_assoc]

theorem lineFeeds_eq_zero_iff {texts : List String} :
    lineFeeds texts = 0 ↔ ∀ text ∈ texts, '\n' ∉ text.toList := by
  induction texts with
  | nil => simp
  | cons text texts ih => simp [ih, List.count_eq_zero]

namespace Value

/-! ## Tokens, counted on the value -/

mutual

/-- How many tokens a value is printed as.  A list has its two parentheses, and so has a quoted form
that is spelled out, which also has its name. -/
def tokenCount (style : QuoteStyle) : Value → Nat
  | .atom _ | .string _ => 1
  | .list items => tokenCountAll style items + 2
  | .quoted _ operand =>
    match style with
    | .shorthand => tokenCount style operand
    | .list => tokenCount style operand + 3

/-- The same for several values. -/
def tokenCountAll (style : QuoteStyle) : List Value → Nat
  | [] => 0
  | v :: vs => tokenCount style v + tokenCountAll style vs

end

mutual

/-- How many lists are around each token of a value, in the order of the tokens.  The parentheses of
a list are not inside of it. -/
def enclosures (style : QuoteStyle) : Value → List Nat
  | .atom _ | .string _ => [0]
  | .list items => 0 :: ((enclosuresAll style items).map (· + 1) ++ [0])
  | .quoted _ operand =>
    match style with
    | .shorthand => enclosures style operand
    | .list => 0 :: 1 :: ((enclosures style operand).map (· + 1) ++ [0])

/-- The same for several values. -/
def enclosuresAll (style : QuoteStyle) : List Value → List Nat
  | [] => []
  | v :: vs => enclosures style v ++ enclosuresAll style vs

end

mutual

theorem length_enclosures (style : QuoteStyle) : ∀ v : Value,
    (v.enclosures style).length = v.tokenCount style
  | .atom _ | .string _ => rfl
  | .list items => by simp [enclosures, tokenCount, length_enclosuresAll style items]
  | .quoted _ operand => by
    cases style with
    | shorthand => exact length_enclosures .shorthand operand
    | list => simp [enclosures, tokenCount, length_enclosures .list operand]

theorem length_enclosuresAll (style : QuoteStyle) : ∀ vs : List Value,
    (enclosuresAll style vs).length = tokenCountAll style vs
  | [] => rfl
  | v :: vs => by
    simp [enclosuresAll, tokenCountAll, length_enclosures style v, length_enclosuresAll style vs]

end

theorem tokenCount_pos (style : QuoteStyle) : ∀ v : Value, 0 < v.tokenCount style
  | .atom _ | .string _ => Nat.one_pos
  | .list _ => Nat.succ_pos _
  | .quoted _ operand => by
    cases style with
    | shorthand => exact tokenCount_pos .shorthand operand
    | list => exact Nat.succ_pos _

/-! ## The lines of the printer -/

mutual

/-- **A line stands at the level of the lists around its token.** -/
theorem map_level_lines (width : Nat) (escaping : Bool) (style : QuoteStyle) :
    ∀ (v : Value) (level : Nat) (marks : List QuoteKind),
    (lines ⟨width, escaping, style⟩ level marks v).map Line.level =
      (v.enclosures style).map (level + ·)
  | .atom _, _, _ | .string _, _, _ => rfl
  | .list items, level, marks => by
    simp [lines, enclosures, map_level_linesAll width escaping style items (level + 1),
      Function.comp_def, Nat.add_assoc, Nat.add_comm 1]
  | .quoted kind operand, level, marks => by
    cases style with
    | shorthand => exact map_level_lines width escaping .shorthand operand level (kind :: marks)
    | list =>
      simp [lines, enclosures, map_level_lines width escaping .list operand (level + 1) [],
        Function.comp_def, Nat.add_assoc, Nat.add_comm 1]

theorem map_level_linesAll (width : Nat) (escaping : Bool) (style : QuoteStyle) :
    ∀ (vs : List Value) (level : Nat),
    (linesAll ⟨width, escaping, style⟩ level vs).map Line.level =
      (enclosuresAll style vs).map (level + ·)
  | [], _ => rfl
  | v :: vs, level => by
    simp [linesAll, enclosuresAll, map_level_lines width escaping style v level [],
      map_level_linesAll width escaping style vs level]

end

mutual

/-- The lines do not depend on how wide a level is. -/
theorem lines_width (width : Nat) (escaping : Bool) (style : QuoteStyle) :
    ∀ (v : Value) (level : Nat) (marks : List QuoteKind),
    lines ⟨width, escaping, style⟩ level marks v = lines ⟨0, escaping, style⟩ level marks v
  | .atom _, _, _ | .string _, _, _ => rfl
  | .list items, level, marks => by
    rw [lines, lines, linesAll_width width escaping style items (level + 1)]
  | .quoted kind operand, level, marks => by
    cases style with
    | shorthand => exact lines_width width escaping .shorthand operand level (kind :: marks)
    | list => simp only [lines, lines_width width escaping .list operand (level + 1) []]

theorem linesAll_width (width : Nat) (escaping : Bool) (style : QuoteStyle) :
    ∀ (vs : List Value) (level : Nat),
    linesAll ⟨width, escaping, style⟩ level vs = linesAll ⟨0, escaping, style⟩ level vs
  | [], _ => rfl
  | v :: vs, level => by
    rw [linesAll, linesAll, lines_width width escaping style v level [],
      linesAll_width width escaping style vs level]

end

/-! ## The characters of tokens -/

/-- No escape is made of a line feed. -/
theorem letter?_ne_lf (c : Char) : Escape.letter? c ≠ some '\n' := by
  unfold Escape.letter?
  repeat' split
  all_goals simp

theorem count_stringChars_lf (text : String) : (stringChars text).count '\n' = 0 := by
  rw [List.count_eq_zero, stringChars]
  intro h
  have hmem : '\n' ∈ text.toList.flatMap Escape.stringChar := by simpa using h
  obtain ⟨c, -, hc⟩ := List.mem_flatMap.1 hmem
  rw [Escape.stringChar] at hc
  split at hc
  · rename_i letter hletter
    obtain rfl : '\n' = letter := by simpa using hc
    exact letter?_ne_lf c hletter
  · rename_i hnone
    obtain rfl : '\n' = c := by simpa using hc
    cases hnone

/-- The escapes of an atom keep its line feeds. -/
theorem count_atomChars_lf (marks : List QuoteKind) (text : String) :
    (atomChars marks text).count '\n' = text.toList.count '\n' := by
  have hescape : ∀ cs : List Char, (cs.flatMap Escape.atomChar).count '\n' = cs.count '\n' := by
    intro cs
    induction cs with
    | nil => rfl
    | cons c cs ih =>
      have hchar : (Escape.atomChar c).count '\n' = [c].count '\n' := by
        rw [Escape.atomChar]
        split <;> rfl
      rw [List.flatMap_cons, List.count_append, hchar, ih, ← List.count_append,
        List.singleton_append]
  rw [atomChars, List.count_append, hescape]
  split <;> simp

/-- What begins with no blank begins with none behind marks. -/
theorem head?_markChars_append_ne {cs : List Char} (h : cs.head? ≠ some ' ')
    (marks : List QuoteKind) : (markChars marks ++ cs).head? ≠ some ' ' := by
  rw [List.head?_append]
  cases hmarks : (markChars marks).head? with
  | none => exact h
  | some c =>
    rintro ⟨⟩
    simpa using mem_markChars (List.mem_of_mem_head? hmarks)

theorem head?_atomChars_ne (marks : List QuoteKind) (text : String) :
    (atomChars marks text).head? ≠ some ' ' := by
  by_cases hempty : text = ""
  · subst hempty
    simp
  · obtain ⟨c, more, hcs, hplain, -⟩ := exists_atomChars_cons marks hempty
    rw [hcs]
    rintro ⟨⟩
    exact ne_of_beginsAtom hplain (d := ' ') (by decide) (by decide) rfl

section

variable (width : Nat) (style : QuoteStyle)

theorem toList_lineAtom (marks : List QuoteKind) (text : String) :
    (writeMarks marks ++ writeAtom ⟨width, true, style⟩ marks text).toList =
      markChars marks ++ atomChars marks text := by
  rw [String.toList_append, toList_writeMarks, toList_writeAtom]

theorem toList_lineString (marks : List QuoteKind) (text : String) :
    (writeMarks marks ++ writeString ⟨width, true, style⟩ text).toList =
      markChars marks ++ stringChars text := by
  rw [String.toList_append, toList_writeMarks, toList_writeString]

theorem toList_lineOpen (marks : List QuoteKind) :
    (writeMarks marks ++ "(").toList = markChars marks ++ ['('] := by
  rw [String.toList_append, toList_writeMarks]
  rfl

end

theorem count_name_lf (kind : QuoteKind) : kind.name.toList.count '\n' = 0 := by
  cases kind <;> decide

mutual

/-- **The line feeds inside of lines are those of the atoms.** -/
theorem lineFeeds_lines (width : Nat) (style : QuoteStyle) :
    ∀ (v : Value) (level : Nat) (marks : List QuoteKind),
    lineFeeds ((lines ⟨width, true, style⟩ level marks v).map Line.text) = lineFeeds v.atoms
  | .atom text, level, marks => by
    simp [lines, atoms, toList_lineAtom, count_markChars_eq_zero, count_atomChars_lf,
      -String.toList_append]
  | .string text, level, marks => by
    simp [lines, atoms, toList_lineString, count_markChars_eq_zero, count_stringChars_lf,
      -String.toList_append]
  | .list items, level, marks => by
    simp [lines, atoms, toList_lineOpen, count_markChars_eq_zero,
      lineFeeds_linesAll width style items (level + 1), -String.toList_append]
  | .quoted kind operand, level, marks => by
    cases style with
    | shorthand => exact lineFeeds_lines width .shorthand operand level (kind :: marks)
    | list =>
      simp [lines, atoms, toList_lineOpen, count_markChars_eq_zero, count_name_lf,
        lineFeeds_lines width .list operand (level + 1) [], -String.toList_append]

theorem lineFeeds_linesAll (width : Nat) (style : QuoteStyle) :
    ∀ (vs : List Value) (level : Nat),
    lineFeeds ((linesAll ⟨width, true, style⟩ level vs).map Line.text) = lineFeeds (atomsAll vs)
  | [], _ => rfl
  | v :: vs, level => by
    simp [linesAll, atomsAll, lineFeeds_lines width style v level [],
      lineFeeds_linesAll width style vs level]

end

theorem head?_name_ne (kind : QuoteKind) : kind.name.toList.head? ≠ some ' ' := by
  cases kind <;> decide

mutual

/-- **No token begins with a space.** -/
theorem head?_lines_ne (width : Nat) (style : QuoteStyle) :
    ∀ (v : Value) (level : Nat) (marks : List QuoteKind),
    ∀ line ∈ lines ⟨width, true, style⟩ level marks v, line.text.toList.head? ≠ some ' '
  | .atom text, level, marks => by
    rw [lines, List.forall_mem_singleton, toList_lineAtom]
    exact head?_markChars_append_ne (head?_atomChars_ne marks text) marks
  | .string text, level, marks => by
    rw [lines, List.forall_mem_singleton, toList_lineString]
    exact head?_markChars_append_ne (by simp [stringChars]) marks
  | .list items, level, marks => by
    have hclose : (")" : String).toList.head? ≠ some ' ' := by decide
    rw [lines, List.forall_mem_cons, List.forall_mem_append, List.forall_mem_singleton,
      toList_lineOpen]
    exact ⟨head?_markChars_append_ne (by decide) marks,
      head?_linesAll_ne width style items (level + 1), hclose⟩
  | .quoted kind operand, level, marks => by
    cases style with
    | shorthand => exact head?_lines_ne width .shorthand operand level (kind :: marks)
    | list =>
      have hclose : (")" : String).toList.head? ≠ some ' ' := by decide
      rw [lines, List.forall_mem_cons, List.forall_mem_cons, List.forall_mem_append,
        List.forall_mem_singleton, toList_lineOpen]
      exact ⟨head?_markChars_append_ne (by decide) marks, head?_name_ne kind,
        head?_lines_ne width .list operand (level + 1) [], hclose⟩

theorem head?_linesAll_ne (width : Nat) (style : QuoteStyle) :
    ∀ (vs : List Value) (level : Nat),
    ∀ line ∈ linesAll ⟨width, true, style⟩ level vs, line.text.toList.head? ≠ some ' '
  | [], _ => by simp [linesAll]
  | v :: vs, level => by
    rw [linesAll, List.forall_mem_append]
    exact ⟨head?_lines_ne width style v level [], head?_linesAll_ne width style vs level⟩

end

/-! ## Lines in a text -/

section

variable {width : Nat} {ls : List Line}

/-- The characters of a line in front of its line feed. -/
def indented (width level : Nat) (token : List Char) : List Char :=
  indentation width level ++ token

theorem lineChars_cons_eq (width : Nat) (line : Line) (ls : List Line) :
    lineChars width (line :: ls) =
      indented width line.level line.text.toList ++ '\n' :: lineChars width ls := by
  rw [indented, List.append_assoc]
  exact lineChars_cons width line.level line.text ls

/-- Each line ends with a line feed, and holds those of its text. -/
theorem count_lineChars_lf (width : Nat) (ls : List Line) :
    (lineChars width ls).count '\n' = ls.length + lineFeeds (ls.map Line.text) := by
  induction ls with
  | nil => rfl
  | cons line ls ih =>
    rw [lineChars_cons_eq, indented, List.count_append, List.count_append,
      count_indentation_eq_zero (by decide), List.count_cons_self, ih, List.length_cons,
      List.map_cons, lineFeeds_cons]
    omega

theorem getLast?_lineChars (h : ls ≠ []) : (lineChars width ls).getLast? = some '\n' := by
  rw [← List.dropLast_concat_getLast h, lineChars_append, lineChars_cons_eq]
  simp [lineChars]

/-- **Lines are found again by their line feeds.**  Nothing stands behind the last one. -/
theorem splitOn_lineChars (h : ∀ line ∈ ls, '\n' ∉ line.text.toList) :
    (lineChars width ls).splitOn '\n' =
      (ls.map fun line => indented width line.level line.text.toList) ++ [[]] := by
  induction ls with
  | nil => exact List.splitOn_nil '\n'
  | cons line ls ih =>
    rw [List.forall_mem_cons] at h
    have hline : '\n' ∉ indented width line.level line.text.toList := by
      rw [← List.count_eq_zero, indented, List.count_append,
        count_indentation_eq_zero (by decide), List.count_eq_zero.2 h.1]
    have hsingle : (indented width line.level line.text.toList).splitOnP (· == '\n') = _ :=
      List.splitOnP_eq_singleton fun c hc => by
        rw [beq_eq_false_iff_ne]
        rintro rfl
        exact hline hc
    have hfeed : ('\n' == '\n') = true := rfl
    rw [lineChars_cons_eq, List.splitOn_eq_splitOnP,
      List.splitOnP_append_cons (p := (· == '\n')) _ _ hfeed, hsingle, ← List.splitOn_eq_splitOnP,
      ih h.2]
    rfl

/-! ## The text of a value -/

/-- The tokens of a value as they are printed, each for a line of its own. -/
def tokens (style : QuoteStyle) (v : Value) : List (List Char) :=
  (lines ⟨0, true, style⟩ 0 [] v).map fun line => line.text.toList

/-- How many spaces a line begins with. -/
def leadingSpaces (line : List Char) : Nat :=
  (line.takeWhile (· == ' ')).length

theorem leadingSpaces_indented {token : List Char} (h : token.head? ≠ some ' ') (level : Nat) :
    leadingSpaces (indented width level token) = width * level := by
  have hspaces : ∀ c ∈ indentation width level, (c == ' ') = true := by
    intro c hc
    rw [(List.mem_replicate.1 hc).2]
    rfl
  have htoken : token.takeWhile (· == ' ') = [] := by
    cases token with
    | nil => rfl
    | cons c cs =>
      have hc : ¬(c == ' ') = true := fun hspace => h (congrArg some (beq_iff_eq.1 hspace))
      exact List.takeWhile_cons_of_neg hc
  rw [leadingSpaces, indented, List.takeWhile_append_of_pos hspaces, htoken, List.append_nil,
    indentation, List.length_replicate]

end

section

variable (width : Nat) (style : QuoteStyle) (v : Value)

theorem map_level_print : (lines ⟨width, true, style⟩ 0 [] v).map Line.level = v.enclosures style := by
  rw [map_level_lines]
  simp

theorem length_lines : (lines ⟨width, true, style⟩ 0 [] v).length = v.tokenCount style := by
  rw [← length_enclosures, ← map_level_print width, List.length_map]

/-- The lines of a value by its tokens and the lists around them. -/
theorem map_indented_lines :
    ((lines ⟨width, true, style⟩ 0 [] v).map fun line =>
        indented width line.level line.text.toList) =
      List.zipWith (indented width) (v.enclosures style) (v.tokens style) := by
  rw [tokens, ← map_level_print 0, lines_width, List.zipWith_map, List.zipWith_self]

/-- Where no atom holds a line feed, no line does. -/
theorem not_mem_lines (h : ∀ a ∈ v.atoms, '\n' ∉ a.toList) :
    ∀ line ∈ lines ⟨width, true, style⟩ 0 [] v, '\n' ∉ line.text.toList := by
  have htexts := lineFeeds_lines width style v 0 []
  rw [lineFeeds_eq_zero_iff.2 h, lineFeeds_eq_zero_iff, List.forall_mem_map] at htexts
  exact htexts

/-- **A printed value is cut into its lines by its line feeds**, if no atom holds one. -/
theorem splitOn_print (h : ∀ a ∈ v.atoms, '\n' ∉ a.toList) :
    (v.print ⟨width, true, style⟩).toList.splitOn '\n' =
      List.zipWith (indented width) (v.enclosures style) (v.tokens style) ++ [[]] := by
  rw [toList_print, written, splitOn_lineChars (not_mem_lines width style v h), map_indented_lines]

/-- Without a width, lines are tokens. -/
theorem zipWith_indented_zero :
    List.zipWith (indented 0) (v.enclosures style) (v.tokens style) = v.tokens style := by
  rw [← map_indented_lines, tokens]
  refine List.map_congr_left fun line _ => ?_
  rw [indented, indentation, Nat.zero_mul]
  rfl

/-- The spaces in front of the tokens are those of the levels. -/
theorem map_leadingSpaces_zipWith :
    (List.zipWith (indented width) (v.enclosures style) (v.tokens style)).map leadingSpaces =
      (v.enclosures style).map (width * ·) := by
  rw [← map_indented_lines, ← map_level_print width, List.map_map, List.map_map]
  exact List.map_congr_left fun line hline =>
    leadingSpaces_indented (head?_lines_ne width style v 0 [] line hline) line.level

end

/-- **The layout of a printed value.**  Its text ends with a line feed and holds one for each token,
besides those inside of atoms.  If atoms hold none, the line feeds cut it into one line for each
token.  A line begins with the spaces of a level for each list around its token, and with no other;
without these it is the line that is printed where a level has no width. -/
theorem print_layout (width : Nat) (style : QuoteStyle) (v : Value) :
    (v.print ⟨width, true, style⟩).toList.getLast? = some '\n' ∧
    (v.print ⟨width, true, style⟩).toList.count '\n' = v.tokenCount style + lineFeeds v.atoms ∧
    (v.enclosures style).length = v.tokenCount style ∧
    (v.tokens style).length = v.tokenCount style ∧
    ((∀ a ∈ v.atoms, '\n' ∉ a.toList) →
      (v.print ⟨width, true, style⟩).toList.splitOn '\n' =
          List.zipWith (indented width) (v.enclosures style) (v.tokens style) ++ [[]] ∧
        (v.print ⟨0, true, style⟩).toList.splitOn '\n' = v.tokens style ++ [[]] ∧
        (List.zipWith (indented width) (v.enclosures style) (v.tokens style)).map leadingSpaces =
          (v.enclosures style).map (width * ·)) := by
  have hne : lines ⟨width, true, style⟩ 0 [] v ≠ [] := by
    intro hnil
    have hcount := length_lines width style v
    rw [hnil] at hcount
    exact Nat.ne_of_lt (tokenCount_pos style v) hcount
  refine ⟨?_, ?_, length_enclosures style v, ?_, fun hatoms => ⟨?_, ?_, ?_⟩⟩
  · rw [toList_print, written]
    exact getLast?_lineChars hne
  · rw [toList_print, written, count_lineChars_lf, length_lines, lineFeeds_lines]
  · rw [tokens, List.length_map, length_lines]
  · exact splitOn_print width style v hatoms
  · rw [splitOn_print 0 style v hatoms, zipWith_indented_zero]
  · exact map_leadingSpaces_zipWith width style v

/-- A string with a line feed and a space, quoted inside of a list. -/
theorem print_layout_spelled_out :
    ((list [atom " a", quoted .quote (string "\n b")]).print ⟨2, true, .list⟩).toList.splitOn '\n' =
      ["(", "  \\ a", "  (", "    quote", "    \"\\n b\"", "  )", ")", ""].map String.toList ∧
    ((list [atom " a", quoted .quote (string "\n b")]).enclosures .list).map (2 * ·) =
      [0, 2, 2, 4, 4, 2, 0] := by
  have hatoms : ∀ a ∈ (list [atom " a", quoted .quote (string "\n b")]).atoms, '\n' ∉ a.toList := by
    decide
  obtain ⟨hlines, -, hspaces⟩ :=
    (print_layout 2 .list (list [atom " a", quoted .quote (string "\n b")])).2.2.2.2 hatoms
  rw [hlines, ← hspaces]
  exact ⟨by decide, by decide⟩

end Value

end SExpr
