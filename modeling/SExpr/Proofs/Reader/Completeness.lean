import SExpr.Proofs.Grammar.Inversion
import SExpr.Proofs.Reader.Reach
import SExpr.Value.Shape

/-!
# Every derivation is read

A text that the grammar derives a value from takes the machine behind that text, with the value
delivered to the forms around it, as long as the value is not nested deeper than the limit still
allows.

## What is here

* `reaches_of_atomBody`, `after?_of_stringBody` — the tokens.
* `reaches_of_form`, `reaches_of_forms` — forms and the elements of a list.
-/

set_option autoImplicit false

namespace SExpr
namespace Reader

open Grammar

variable {limit : Nat}

/-! ## Atoms -/

theorem step_atom_of_plain {u : TextUnit} (h : endsAtom u.lead = false) (text : String)
    (stack : List Frame) :
    step limit (.atom text stack) u = .go (.atom (text ++ u.text) stack) := by
  have hne : u.lead ≠ '\\' := ne_of_endsAtom h (by decide)
  simp [step, hne, h]

/-- A backslash and the unit behind it are part of an atom, whatever that unit is. -/
theorem after?_atom_escape (u : TextUnit) (text : String) (stack : List Frame) :
    (State.atom text stack).after? limit [.char '\\', u] = some (.atom (text ++ u.text) stack) :=
  rfl

/-- **The rest of an atom is read to its end.**  If there is an atom at all, it is delivered. -/
theorem reaches_of_atomBody {text chars rest : List Char} (h : AtomBody text chars rest)
    (stack : List Frame) (before : String) (hne : before ++ String.ofList chars ≠ "") :
    Reaches limit (.atom before stack) (TextUnit.ofChars text)
      (.between (deliver (.atom (before ++ String.ofList chars)) stack))
      (TextUnit.ofChars rest) := by
  induction h generalizing before with
  | @done rest ends =>
    rw [String.ofList_nil, String.append_empty]
    refine Reaches.of_step_eq (fun _ => rfl) fun u hu => ?_
    have hlead : rest.head? = some u.lead := by
      rw [← TextUnit.map_lead_head?_ofChars, hu]
      rfl
    obtain ⟨hends, hescape⟩ := ends _ hlead
    exact step_atom_of_endsAtom hends hescape before
  | @plain c text chars rest plain _ ih =>
    have hc : c ≠ '\r' := ne_of_endsAtom plain (by decide)
    rw [TextUnit.ofChars_cons_of_ne hc]
    have happend := append_ofList_cons before (.char c) chars
    refine (Reaches.of_step (step_atom_of_plain (u := .char c) plain before stack) _).trans ?_
    rw [TextUnit.chars, List.singleton_append] at happend
    rw [← happend] at hne ⊢
    exact ih _ hne
  | @escapedPair text chars rest _ ih =>
    rw [TextUnit.ofChars_cons_of_ne (by decide), TextUnit.ofChars_crlf]
    have happend := append_ofList_cons before .crlf chars
    refine (Reaches.of_after (after?_atom_escape .crlf before stack) _).trans ?_
    rw [TextUnit.chars, List.cons_append, List.singleton_append] at happend
    rw [← happend] at hne ⊢
    exact ih _ hne
  | @escaped c text chars rest alone _ ih =>
    rw [TextUnit.ofChars_cons_of_ne (by decide), TextUnit.ofChars_cons_of_not_pairs alone]
    have happend := append_ofList_cons before (.char c) chars
    refine (Reaches.of_after (after?_atom_escape (.char c) before stack) _).trans ?_
    rw [TextUnit.chars, List.singleton_append] at happend
    rw [← happend] at hne ⊢
    exact ih _ hne
  | cutOff =>
    rw [String.ofList_nil, String.append_empty] at hne ⊢
    refine ⟨[.char '\\'], rfl, fun pos => ?_⟩
    have hfinish : finish (.atomEscape before stack) = (deliver (.atom before) stack).finish := by
      rw [finish, if_neg (by simpa using hne)]
    have hstep : step limit (.atom before stack) (.char '\\') = .go (.atomEscape before stack) :=
      rfl
    show run limit _ _ [.char '\\'] = _
    rw [run_cons_of_go hstep, run_nil, hfinish]
    rfl

/-- An atom is read from its first character on. -/
theorem reaches_of_atom {text chars rest : List Char} (h : AtomBody text chars rest)
    (hne : chars ≠ []) (stack : List Frame) :
    Reaches limit (.between (.within stack)) (TextUnit.ofChars text)
      (.between (deliver (.atom (String.ofList chars)) stack)) (TextUnit.ofChars rest) := by
  have hbody : Reaches limit (.atom "" stack) _ _ _ :=
    reaches_of_atomBody h stack "" (by simpa using hne)
  rw [String.empty_append] at hbody
  -- in front of its first unit, the machine does what it does inside of an atom
  suffices hstep : ∀ u ∈ (TextUnit.ofChars text).head?,
      step limit (.between (.within stack)) u = step limit (.atom "" stack) u by
    refine (Reaches.of_step_eq (fun htext => ?_) hstep).trans hbody
    have htext : text = [] := by simpa [htext] using (TextUnit.toChars_ofChars text).symm
    subst htext
    cases h
    exact absurd rfl hne
  intro u hu
  have hlead : text.head? = some u.lead := by
    rw [← TextUnit.map_lead_head?_ofChars, hu]
    rfl
  cases h with
  | done => exact absurd rfl hne
  | @plain c text chars rest plain _ =>
    obtain rfl : c = u.lead := Option.some.inj hlead
    rw [step_atom_of_plain plain, String.empty_append]
    exact begins_of_endsAtom plain
  | escapedPair | escaped | cutOff =>
    obtain rfl := TextUnit.eq_char_of_lead (Option.some.inj hlead).symm (by decide)
    rfl

/-! ## Strings -/

theorem step_string_of_plain {c : Char} (notQuote : c ≠ '"') (notEscape : c ≠ '\\')
    (text : String) (stack : List Frame) :
    step limit (.string text stack) (.char c) =
      .go (.string (text ++ (TextUnit.char c).text) stack) := by
  simp only [step, TextUnit.lead, notQuote, notEscape, if_false]

theorem step_stringEscape (u : TextUnit) (text : String) (stack : List Frame) :
    step limit (.stringEscape text stack) u =
      .go (.string (text ++ Escape.resolve u.text) stack) := rfl

/-- In a string, a carriage return can be taken alone or with the line feed behind it. -/
theorem exists_after?_of_string {state : State} {c d : Char} {before : String}
    {stack : List Frame} {progress : Progress} {text rest : List Char} {taken : List TextUnit}
    (hone : step limit state (.char c) = .go (.string (before ++ (TextUnit.char d).text) stack))
    (hpair : c = '\r' →
      d = '\r' ∧ step limit state .crlf = .go (.string (before ++ TextUnit.crlf.text) stack))
    (htext : TextUnit.ofChars text = taken ++ TextUnit.ofChars rest)
    (hafter : (State.string (before ++ (TextUnit.char d).text) stack).after? limit taken =
      some (.between progress)) :
    ∃ taken', TextUnit.ofChars (c :: text) = taken' ++ TextUnit.ofChars rest ∧
      state.after? limit taken' = some (.between progress) := by
  rw [TextUnit.ofChars_cons]
  rcases TextUnit.cons_cases c (TextUnit.ofChars text) with h | ⟨rfl, tail, htail, h⟩
  · refine ⟨.char c :: taken, by rw [h, htext]; rfl, ?_⟩
    rw [State.after?_cons_of_go hone, hafter]
  · obtain ⟨rfl, hcrlf⟩ := hpair rfl
    rw [htail] at htext
    cases taken with
    | nil => cases hafter
    | cons u taken =>
      obtain ⟨rfl, htext'⟩ := List.cons.inj htext
      refine ⟨.crlf :: taken, by rw [h, htext']; rfl, ?_⟩
      rw [State.after?_cons_of_go (step_string_of_plain (by decide) (by decide) _ stack),
        String.append_assoc] at hafter
      rw [State.after?_cons_of_go hcrlf, ← hafter]
      rfl

/-- **The rest of a string is read up to and with its closing delimiter.** -/
theorem after?_of_stringBody {text chars rest : List Char} (h : StringBody text chars rest)
    (stack : List Frame) (before : String) :
    ∃ taken, TextUnit.ofChars text = taken ++ TextUnit.ofChars rest ∧
      (State.string before stack).after? limit taken =
        some (.between (deliver (.string (before ++ String.ofList chars)) stack)) := by
  induction h generalizing before with
  | done rest =>
    refine ⟨[.char '"'], TextUnit.ofChars_cons_of_ne (by decide) rest, ?_⟩
    rw [String.ofList_nil, String.append_empty]
    rfl
  | @plain c text chars rest notQuote notEscape _ ih =>
    obtain ⟨taken, htext, hafter⟩ := ih (before ++ (TextUnit.char c).text)
    rw [append_ofList_cons] at hafter
    exact exists_after?_of_string (step_string_of_plain notQuote notEscape before stack)
      (fun hc => ⟨hc, rfl⟩) htext hafter
  | @escapedPair text chars rest _ ih =>
    obtain ⟨taken, htext, hafter⟩ := ih (before ++ TextUnit.crlf.text)
    rw [append_ofList_cons] at hafter
    refine ⟨.char '\\' :: .crlf :: taken, ?_, ?_⟩
    · rw [TextUnit.ofChars_cons_of_ne (by decide), TextUnit.ofChars_crlf, htext]
      rfl
    · rw [← resolve_crlf] at hafter
      exact hafter
  | @escaped c text chars rest _ ih =>
    obtain ⟨taken, htext, hafter⟩ := ih (before ++ (TextUnit.char (Escape.denoted c)).text)
    rw [append_ofList_cons] at hafter
    have hone : step limit (.stringEscape before stack) (.char c) =
        .go (.string (before ++ (TextUnit.char (Escape.denoted c)).text) stack) := by
      rw [step_stringEscape, resolve_char]
    have hcrlf : step limit (.stringEscape before stack) .crlf =
        .go (.string (before ++ TextUnit.crlf.text) stack) := by
      rw [step_stringEscape, resolve_crlf]
    obtain ⟨taken', htext', hafter'⟩ := exists_after?_of_string hone
      (fun hc => ⟨by rw [hc]; rfl, hcrlf⟩) htext hafter
    refine ⟨.char '\\' :: taken', ?_, hafter'⟩
    rw [TextUnit.ofChars_cons_of_ne (by decide), htext']
    rfl

/-- A string is read with both of its delimiters. -/
theorem reaches_of_string {text chars rest : List Char} (h : StringBody text chars rest)
    (stack : List Frame) :
    Reaches limit (.between (.within stack)) (TextUnit.ofChars ('"' :: text))
      (.between (deliver (.string (String.ofList chars)) stack)) (TextUnit.ofChars rest) := by
  obtain ⟨taken, htext, hafter⟩ := after?_of_stringBody h stack ""
  rw [String.empty_append] at hafter
  rw [TextUnit.ofChars_cons_of_ne (by decide), htext]
  exact (Reaches.of_begins begins_string _).trans (Reaches.of_after hafter _)

/-! ## Marks -/

/-- A mark opens a form. -/
theorem reaches_of_mark {text behind : List Char} {kind : QuoteKind} (h : Mark text kind behind)
    {stack : List Frame} (hlt : stack.length < limit) :
    Reaches limit (.between (.within stack)) (TextUnit.ofChars text)
      (.between (.within (.quoted kind :: stack))) (TextUnit.ofChars behind) := by
  cases h with
  | quote =>
    rw [TextUnit.ofChars_cons_of_ne (by decide)]
    exact Reaches.of_begins (begins_quote.trans (enter_of_lt hlt)) _
  | quasiquote =>
    rw [TextUnit.ofChars_cons_of_ne (by decide)]
    exact Reaches.of_begins (begins_quasiquote.trans (enter_of_lt hlt)) _
  | unquote alone =>
    rw [TextUnit.ofChars_cons_of_ne (by decide)]
    refine (Reaches.of_begins (begins_comma.trans (enter_of_lt hlt)) _).trans ?_
    -- what follows is no at sign, so it begins a form
    refine Reaches.of_step_eq (fun _ => rfl) fun u hu => ?_
    have hne : u.lead ≠ '@' := by
      intro hlead
      rw [← TextUnit.map_lead_head?_ofChars, hu, Option.map_some, hlead] at alone
      exact alone rfl
    exact if_neg hne
  | unquoteSplicing =>
    rw [TextUnit.ofChars_cons_of_ne (by decide), TextUnit.ofChars_cons_of_ne (by decide)]
    exact (Reaches.of_begins (begins_comma.trans (enter_of_lt hlt)) _).trans
      (Reaches.of_step rfl _)

/-! ## Forms -/

/-- A list is closed, and delivered with its elements in order. -/
theorem reaches_of_close (items : List Value) (outer : List Frame) (rest : List Char) :
    Reaches limit (.between (.within (.list items :: outer))) (TextUnit.ofChars (')' :: rest))
      (.between (deliver (.list items.reverse) outer)) (TextUnit.ofChars rest) := by
  rw [TextUnit.ofChars_cons_of_ne (by decide)]
  exact Reaches.of_begins (begins_close items outer) _

mutual

/-- **Every form within the limit is read**, and delivered to the forms around it. -/
theorem reaches_of_form : ∀ {text rest : List Char} {v : Value}, Form text v rest →
    ∀ stack : List Frame, v.depth + stack.length ≤ limit →
      Reaches limit (.between (.within stack)) (TextUnit.ofChars text)
        (.between (deliver v stack)) (TextUnit.ofChars rest)
  | _, _, _, .atom body hne, stack, _ => reaches_of_atom body hne stack
  | _, _, _, .string body, stack, _ => reaches_of_string body stack
  | _, _, _, @Form.list _ rest items forms, stack, hdepth => by
    rw [Value.depth] at hdepth
    rw [TextUnit.ofChars_cons_of_ne (by decide)]
    refine (Reaches.of_begins (begins_open.trans (enter_of_lt (by omega))) _).trans ?_
    refine (reaches_of_forms forms (by simp) [] stack (by omega)).trans ?_
    rw [List.append_nil]
    have hclose : Reaches limit _ _ _ _ := reaches_of_close items.reverse stack rest
    rwa [List.reverse_reverse] at hclose
  | _, _, _, .quoted mark blanks form, stack, hdepth => by
    rw [Value.depth] at hdepth
    refine (reaches_of_mark mark (by omega)).trans ?_
    refine (reaches_of_blanks blanks (form.head?_ne (by decide)) _).trans ?_
    exact reaches_of_form form (.quoted _ :: stack) (by simp only [List.length_cons]; omega)

/-- The elements of a list are read one by one. -/
theorem reaches_of_forms : ∀ {text rest : List Char} {items : List Value},
    Forms text items rest → rest.head? ≠ some '\n' →
      ∀ (before : List Value) (outer : List Frame),
        Value.depthAll items + (outer.length + 1) ≤ limit →
        Reaches limit (.between (.within (.list before :: outer))) (TextUnit.ofChars text)
          (.between (.within (.list (items.reverse ++ before) :: outer))) (TextUnit.ofChars rest)
  | _, _, _, .nil blanks, hrest, before, outer, _ =>
    reaches_of_blanks blanks hrest (.within (.list before :: outer))
  | _, _, _, @Forms.cons _ _ _ _ v items blanks form forms, hrest, before, outer, hdepth => by
    rw [Value.depthAll] at hdepth
    rw [List.reverse_cons, List.append_assoc, List.singleton_append]
    refine (reaches_of_blanks blanks (form.head?_ne (by decide)) _).trans ?_
    refine (reaches_of_form form (.list before :: outer)
      (by simp only [List.length_cons]; omega)).trans ?_
    exact reaches_of_forms forms hrest (v :: before) outer (by omega)

end

end Reader

end SExpr
