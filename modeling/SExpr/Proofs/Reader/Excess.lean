import SExpr.Proofs.Grammar.OpenForms
import SExpr.Proofs.Reader.Completeness

/-!
# Forms that are nested too deep

The limit is a number of forms that may be open at once.  A text exceeds it where that many forms
are open and another one begins.  The machine reaches the first such place, and its run ends there.

## What is here

* `OpensForm` — the texts that begin with a list or a quoted form.
* `ExceedsAt` — the place at which a text exceeds the limit, and that the machine reaches it.
* `exists_exceedsAt_of_form` — a form that is nested too deep exceeds the limit before its end.
* `reaches_or_exceeds_of_leads` — the machine opens the forms that the text opens, unless the text
  exceeds the limit earlier.
-/

set_option autoImplicit false

namespace SExpr

namespace Grammar

open Reader (Frame opens)

/-- Does the text begin with a list or a quoted form? -/
def OpensForm (text : List Char) : Prop :=
  ∃ c ∈ text.head?, opens c = true

theorem OpensForm.head?_ne {text : List Char} (h : OpensForm text) : text.head? ≠ some '\n' := by
  obtain ⟨c, hc, hopens⟩ := h
  rintro hfeed
  obtain rfl : '\n' = c := Option.some.inj (hfeed.symm.trans hc)
  cases hopens

theorem opensForm_open (text : List Char) : OpensForm ('(' :: text) :=
  ⟨'(', rfl, rfl⟩

theorem Mark.opensForm {text rest : List Char} {kind : QuoteKind} (h : Mark text kind rest) :
    OpensForm text := by
  cases h <;> exact ⟨_, rfl, rfl⟩

/-- Blanks in front make no difference. -/
theorem Leads.of_blanks {stack stack' : List Frame} {text mid rest : List Char}
    (hblanks : Blanks text mid) (h : Leads stack mid stack' rest) :
    Leads stack text stack' rest := by
  cases h with
  | stay blanks => exact .stay (hblanks.trans blanks)
  | list blanks leads => exact .list (hblanks.trans blanks) leads
  | element blanks form leads => exact .element (hblanks.trans blanks) form leads
  | mark blanks mark leads => exact .mark (hblanks.trans blanks) mark leads

end Grammar

namespace Reader

open Grammar

variable {limit : Nat} {stack stack' : List Frame} {text start : List Char}

/-- `ExceedsAt limit stack text stack' start`: inside of the forms of `stack`, the text comes to
`start`, where the forms of `stack'` are open and one more begins than the limit allows. -/
structure ExceedsAt (limit : Nat) (stack : List Frame) (text : List Char) (stack' : List Frame)
    (start : List Char) : Prop where
  /-- The text opens the other forms on the way. -/
  leads : Leads stack text stack' start
  /-- No other form may be open. -/
  full : stack'.length = limit
  /-- One begins. -/
  opens : OpensForm start
  /-- The machine gets there. -/
  reaches : Reaches limit (.between (.within stack)) (TextUnit.ofChars text)
    (.between (.within stack')) (TextUnit.ofChars start)

theorem ExceedsAt.here (hfull : stack.length = limit) (hopens : OpensForm text) :
    ExceedsAt limit stack text stack text :=
  ⟨.stay (.none text), hfull, hopens, .refl _ _⟩

/-- Where one form too many begins, the run stops. -/
theorem ExceedsAt.stop (h : ExceedsAt limit stack text stack' start) :
    ∃ u us, TextUnit.ofChars start = u :: us ∧
      step limit (.between (.within stack')) u = .stop (.failed .nestingTooDeep limit) := by
  obtain ⟨c, hc, hopens⟩ := h.opens
  obtain ⟨u, us, hunits, rfl⟩ := TextUnit.exists_ofChars_cons hc
  exact ⟨u, us, hunits, begins_of_opens hopens h.full⟩

theorem ExceedsAt.overruns (h : ExceedsAt limit stack text stack' start) :
    Overruns limit (.between (.within stack)) (TextUnit.ofChars text) := by
  obtain ⟨u, us, hunits, hstop⟩ := h.stop
  refine h.reaches.overruns ?_
  rw [hunits]
  exact Overruns.of_step hstop us

/-- What is exceeded inside of more open forms is exceeded, if the text opens these forms. -/
theorem ExceedsAt.of_reaches {inner : List Frame} {behind : List Char}
    (h : ExceedsAt limit inner behind stack' start)
    (hleads : Leads inner behind stack' start → Leads stack text stack' start)
    (hreach : Reaches limit (.between (.within stack)) (TextUnit.ofChars text)
      (.between (.within inner)) (TextUnit.ofChars behind)) :
    ExceedsAt limit stack text stack' start :=
  ⟨hleads h.leads, h.full, h.opens, hreach.trans h.reaches⟩

theorem ExceedsAt.of_blanks {spaced : List Char} (h : ExceedsAt limit stack spaced stack' start)
    (hblanks : Blanks text spaced) (hspaced : spaced.head? ≠ some '\n') :
    ExceedsAt limit stack text stack' start :=
  h.of_reaches (.of_blanks hblanks) (reaches_of_blanks hblanks hspaced _)

/-- A list is opened, if the limit allows it. -/
theorem reaches_of_open (hlt : stack.length < limit) (text : List Char) :
    Reaches limit (.between (.within stack)) (TextUnit.ofChars ('(' :: text))
      (.between (.within (.list [] :: stack))) (TextUnit.ofChars text) := by
  rw [TextUnit.ofChars_cons_of_ne (by decide)]
  exact Reaches.of_begins (begins_open.trans (enter_of_lt hlt)) _

mutual

/-- **A form that is nested too deep exceeds the limit**, at a place in front of its end. -/
theorem exists_exceedsAt_of_form : ∀ {text rest : List Char} {v : Value}, Form text v rest →
    ∀ stack : List Frame, stack.length ≤ limit → limit < v.depth + stack.length →
      ∃ stack' start, ExceedsAt limit stack text stack' start ∧ rest.length < start.length
  | _, _, _, .atom _ _, stack, hstack, hdepth => by rw [Value.depth] at hdepth; omega
  | _, _, _, .string _, stack, hstack, hdepth => by rw [Value.depth] at hdepth; omega
  | _, _, _, .list forms, stack, hstack, hdepth => by
    rw [Value.depth] at hdepth
    rcases Nat.eq_or_lt_of_le hstack with heq | hlt
    · exact ⟨stack, _, .here heq (opensForm_open _), (Form.list forms).length_lt⟩
    · obtain ⟨stack', start, hexceeds, hlength⟩ :=
        exists_exceedsAt_of_forms forms [] stack hlt (by omega)
      exact ⟨stack', start, hexceeds.of_reaches (.list (.none _)) (reaches_of_open hlt _),
        Nat.lt_of_succ_lt hlength⟩
  | _, _, _, .quoted mark blanks form, stack, hstack, hdepth => by
    rw [Value.depth] at hdepth
    rcases Nat.eq_or_lt_of_le hstack with heq | hlt
    · exact ⟨stack, _, .here heq mark.opensForm, (Form.quoted mark blanks form).length_lt⟩
    · obtain ⟨stack', start, hexceeds, hlength⟩ := exists_exceedsAt_of_form form
        (.quoted _ :: stack) hlt (by simp only [List.length_cons]; omega)
      have hoperand := hexceeds.of_blanks blanks (form.head?_ne (by decide))
      exact ⟨stack', start, hoperand.of_reaches (.mark (.none _) mark) (reaches_of_mark mark hlt),
        hlength⟩

/-- The first element that is nested too deep exceeds the limit. -/
theorem exists_exceedsAt_of_forms : ∀ {text rest : List Char} {items : List Value},
    Forms text items rest → ∀ (before : List Value) (outer : List Frame),
      outer.length + 1 ≤ limit → limit < Value.depthAll items + (outer.length + 1) →
      ∃ stack' start, ExceedsAt limit (.list before :: outer) text stack' start ∧
        rest.length < start.length
  | _, _, _, .nil _, _, _, houter, hdepth => by rw [Value.depthAll] at hdepth; omega
  | _, _, _, @Forms.cons _ _ _ _ v items blanks form forms, before, outer, houter, hdepth => by
    rw [Value.depthAll] at hdepth
    rcases Nat.lt_or_ge limit (v.depth + (outer.length + 1)) with hv | hv
    · obtain ⟨stack', start, hexceeds, hlength⟩ :=
        exists_exceedsAt_of_form form (.list before :: outer) houter hv
      exact ⟨stack', start, hexceeds.of_blanks blanks (form.head?_ne (by decide)),
        Nat.lt_of_le_of_lt forms.length_le hlength⟩
    · obtain ⟨stack', start, hexceeds, hlength⟩ :=
        exists_exceedsAt_of_forms forms (v :: before) outer houter (by omega)
      have hreach := (reaches_of_blanks blanks (form.head?_ne (by decide)) _).trans
        (reaches_of_form form (.list before :: outer) hv)
      exact ⟨stack', start, hexceeds.of_reaches (.element blanks form) hreach, hlength⟩

end

/-- **A form that is nested too deep is not read.** -/
theorem overruns_of_form {rest : List Char} {v : Value} (h : Form text v rest)
    (stack : List Frame) (hstack : stack.length ≤ limit) (hdepth : limit < v.depth + stack.length) :
    Overruns limit (.between (.within stack)) (TextUnit.ofChars text) := by
  obtain ⟨stack', start, hexceeds, -⟩ := exists_exceedsAt_of_form h stack hstack hdepth
  exact hexceeds.overruns

/-- **The machine opens the forms that the text opens**, unless the text exceeds the limit earlier. -/
theorem reaches_or_exceeds_of_leads {tail : List Char} (h : Leads stack text stack' tail)
    (htail : tail.head? ≠ some '\n') (hstack : stack.length ≤ limit) :
    (stack'.length ≤ limit ∧ Reaches limit (.between (.within stack)) (TextUnit.ofChars text)
      (.between (.within stack')) (TextUnit.ofChars tail)) ∨
      ∃ stack'' start, ExceedsAt limit stack text stack'' start ∧ tail.length < start.length := by
  induction h with
  | stay blanks => exact Or.inl ⟨hstack, reaches_of_blanks blanks htail _⟩
  | @list stack stack' text behind rest blanks leads ih =>
    have hspaced : ('(' :: behind).head? ≠ some '\n' := by simp
    have hreach : Reaches limit _ _ _ _ := reaches_of_blanks blanks hspaced (.within stack)
    rcases Nat.eq_or_lt_of_le hstack with heq | hlt
    · refine Or.inr ⟨stack, _, (ExceedsAt.here heq (opensForm_open behind)).of_blanks blanks hspaced,
        Nat.lt_succ_of_le leads.tail_length_le⟩
    · have hopen := hreach.trans (reaches_of_open hlt behind)
      refine (ih htail hlt).imp (And.imp_right hopen.trans) ?_
      rintro ⟨stack'', start, hexceeds, hlength⟩
      exact ⟨stack'', start, hexceeds.of_reaches (.list blanks) hopen, hlength⟩
  | @element items outer stack' v text spaced behind rest blanks form leads ih =>
    have hspaced := form.head?_ne (c := '\n') (by decide)
    rcases Nat.lt_or_ge limit (v.depth + (outer.length + 1)) with hlt | hle
    · obtain ⟨stack'', start, hexceeds, hlength⟩ := exists_exceedsAt_of_form form _ hstack hlt
      exact Or.inr ⟨stack'', start, hexceeds.of_blanks blanks hspaced,
        Nat.lt_of_le_of_lt leads.tail_length_le hlength⟩
    · have hform := (reaches_of_blanks blanks hspaced (.within (.list items :: outer))).trans
        (reaches_of_form form (.list items :: outer) hle)
      refine (ih htail hstack).imp (And.imp_right hform.trans) ?_
      rintro ⟨stack'', start, hexceeds, hlength⟩
      exact ⟨stack'', start, hexceeds.of_reaches (.element blanks form) hform, hlength⟩
  | @mark stack stack' kind text spaced behind rest blanks mark leads ih =>
    have hspaced := mark.endsBlanksAt.head?_ne (c := '\n') (by decide)
    rcases Nat.eq_or_lt_of_le hstack with heq | hlt
    · exact Or.inr ⟨stack, spaced, (ExceedsAt.here heq mark.opensForm).of_blanks blanks hspaced,
        Nat.lt_of_le_of_lt leads.tail_length_le mark.length_lt⟩
    · have hmark := (reaches_of_blanks blanks hspaced (.within stack)).trans
        (reaches_of_mark mark hlt)
      refine (ih htail hlt).imp (And.imp_right hmark.trans) ?_
      rintro ⟨stack'', start, hexceeds, hlength⟩
      exact ⟨stack'', start, hexceeds.of_reaches (.mark blanks mark) hmark, hlength⟩

end Reader

end SExpr
