import SExpr.Reformat
import SExpr.Proofs.Printer.Injective
import SExpr.Proofs.Printer.ReadBack

/-!
# Reformatting what was reformatted

What is printed with escapes can be reformatted again, and the second format then stands alone: what
the first one laid out is forgotten.  The exception is a text with an atom that ends in a
carriage return.  Its printed form is read as something else, and no reformatting of it gives it back.

## What is here

* `reformatWith_eq_ok_iff` — what reformatting gives.
* `reformatWith_print` — reformatting what was printed is printing in the other format.
* `reformatWith_reformatWith` — the second of two formats stands alone.
* `reformatWith_self_iff` — exactly which results are reformatted to themselves.
-/

set_option autoImplicit false

namespace SExpr

open Value

theorem reformatWith_eq_ok_iff {settings : Settings} {text out : String} :
    reformatWith settings text = .ok out ↔
      ∃ v, parseWith settings.limits text = .ok v ∧ v.print settings.format = out := by
  rw [reformatWith]
  cases parseWith settings.limits text with
  | error e => simp [Except.map]
  | ok v => simp [Except.map]

theorem reformatWith_of_parseWith {limits : Limits} {text : String} {v : Value}
    (h : parseWith limits text = .ok v) (format : Format) :
    reformatWith ⟨format, limits⟩ text = .ok (v.print format) :=
  reformatWith_eq_ok_iff.2 ⟨v, h, rfl⟩

/-! ## What is read back -/

/-- What was read and is printed with escapes is read back as it was printed, unless one of its
atoms ends in a carriage return. -/
theorem parseWith_print_of_parseWith {limits : Limits} {text : String} {v : Value}
    (hv : parseWith limits text = .ok v) (hreturn : ∀ a ∈ v.atoms, ¬EndsInReturn a) (width : Nat)
    (style : QuoteStyle) :
    parseWith limits (v.print ⟨width, true, style⟩) = .ok (v.spelled style) := by
  have hne := atom_ne_empty_of_input (input_of_parseWith hv)
  exact parseWith_print (fun a ha => ⟨hne a ha, hreturn a ha⟩) (depth_le_of_parseWith hv)

theorem desugar_spelled (style : QuoteStyle) (v : Value) : (v.spelled style).desugar = v.desugar := by
  cases style with
  | list => exact desugar_desugar v
  | shorthand => rfl

theorem words_spelled (style : QuoteStyle) (v : Value) : words (v.spelled style) = words v := by
  rw [words, desugar_spelled, words]

/-- A value that was spelled out is printed like the value itself, where that is spelled out
too. -/
theorem print_spelled_eq {style : QuoteStyle} {format : Format}
    (h : style = .shorthand ∨ format.quoteStyle = .list) (v : Value) :
    (v.spelled style).print format = v.print format := by
  obtain ⟨width, escaping, style'⟩ := format
  rcases h with rfl | h
  · rfl
  · obtain rfl : style' = .list := h
    rw [print_list, print_list, desugar_spelled]

/-- What was printed with escapes is printed by another format as the value itself is. -/
theorem reformatWith_print {limits : Limits} {text : String} {v : Value} {style : QuoteStyle}
    {format : Format} (hv : parseWith limits text = .ok v)
    (hreturn : ∀ a ∈ v.atoms, ¬EndsInReturn a)
    (hstyle : style = .shorthand ∨ format.quoteStyle = .list) (width : Nat) :
    reformatWith ⟨format, limits⟩ (v.print ⟨width, true, style⟩) = .ok (v.print format) := by
  have hread := parseWith_print_of_parseWith hv hreturn width style
  rw [reformatWith_of_parseWith hread, print_spelled_eq hstyle]

/-! ## Two formats, one after the other -/

/-- **The second of two formats stands alone.**  The first one has to write escapes, and must not
spell out quoted forms that the second one writes with their marks. -/
theorem reformatWith_reformatWith {limits : Limits} {first second : Format} {text out : String}
    {v : Value} (hescaping : first.escaping = true)
    (hstyle : first.quoteStyle = .shorthand ∨ second.quoteStyle = .list)
    (hv : parseWith limits text = .ok v) (hreturn : ∀ a ∈ v.atoms, ¬EndsInReturn a)
    (h : reformatWith ⟨first, limits⟩ text = .ok out) :
    reformatWith ⟨second, limits⟩ out = reformatWith ⟨second, limits⟩ text ∧
      ∃ again, reformatWith ⟨second, limits⟩ out = .ok again := by
  obtain ⟨width, escaping, style⟩ := first
  obtain rfl : escaping = true := hescaping
  rw [reformatWith_of_parseWith hv] at h
  obtain rfl := Except.ok.inj h
  have hagain := reformatWith_print hv hreturn hstyle width
  exact ⟨hagain.trans (reformatWith_of_parseWith hv second).symm, _, hagain⟩

/-- Here the first format spells out a quoted form, and the second one lays it out anew. -/
theorem reformatWith_spelled_out :
    reformatWith ⟨⟨0, false, .list⟩, ⟨2⟩⟩ "(\n  f\n  (\n    quote\n    \\ x\n  )\n)\n" =
        reformatWith ⟨⟨0, false, .list⟩, ⟨2⟩⟩ "(f '\\ x)" ∧
      ∃ again, reformatWith ⟨⟨0, false, .list⟩, ⟨2⟩⟩
        "(\n  f\n  (\n    quote\n    \\ x\n  )\n)\n" = .ok again :=
  have hv : parseWith ⟨2⟩ "(f '\\ x)" = .ok (.list [.atom "f", .quoted .quote (.atom " x")]) := rfl
  @reformatWith_reformatWith _ ⟨2, true, .list⟩ _ _ _ _ rfl (.inr rfl) hv (by decide) rfl

/-! ## The same format twice -/

/-- **Exactly which results are reformatted to themselves:** those of texts without an atom that
ends in a carriage return. -/
theorem reformatWith_self_iff {settings : Settings} {text out : String} {v : Value}
    (hescaping : settings.format.escaping = true) (hv : parseWith settings.limits text = .ok v)
    (h : reformatWith settings text = .ok out) :
    reformatWith settings out = .ok out ↔ ∀ a ∈ v.atoms, ¬EndsInReturn a := by
  obtain ⟨⟨width, escaping, style⟩, limits⟩ := settings
  obtain rfl : escaping = true := hescaping
  rw [reformatWith_of_parseWith hv] at h
  obtain rfl := Except.ok.inj h
  constructor
  · intro hself a ha hreturn
    obtain ⟨w, hw, hprint⟩ := reformatWith_eq_ok_iff.1 hself
    have hinput := input_of_parseWith hw
    rw [print_spelled width true style v] at hinput hprint
    rw [print_spelled width true style w] at hprint
    have hne : ∀ b ∈ (v.spelled style).atoms, b ≠ "" :=
      (forall_atoms_spelled name_ne_empty style v).2 (atom_ne_empty_of_input (input_of_parseWith hv))
    have hbad : ∃ b ∈ (v.spelled style).atoms, EndsInReturn b := by
      have hsome : ¬∀ b ∈ (v.spelled style).atoms, ¬EndsInReturn b := fun hall =>
        (forall_atoms_spelled not_endsInReturn_name style v).1 hall a ha hreturn
      simpa using hsome
    -- the two values have the same words because they are printed alike, and others as they are read
    have hdiverge := diverge_of_input_print hne hbad hinput
    rw [← print_inj hprint, words_spelled] at hdiverge
    exact Diverge.irrefl _ hdiverge
  · intro hreturn
    have hstyle : style = .shorthand ∨ style = .list := by cases style <;> simp
    exact reformatWith_print hv hreturn hstyle width

/-- A line break pair at the end of an atom does no harm. -/
theorem reformat_line_end :
    reformat 2 "(\n  f\n  x\\\r\\\n\n)\n" = .ok "(\n  f\n  x\\\r\\\n\n)\n" :=
  have hv : parseWith .standard "(f x\\\r\n)" = .ok (.list [.atom "f", .atom "x\r\n"]) := rfl
  (@reformatWith_self_iff .standard _ _ _ rfl hv rfl).2 (by decide)

/-- A carriage return at the end of an atom takes in the line feed that ends the printed line. -/
theorem reformat_not_self :
    reformat 2 "a\\\r" = .ok "a\\\r\n" ∧
      reformat 2 "a\\\r\n" = .ok "a\\\r\\\n\n" :=
  ⟨rfl, rfl⟩

end SExpr
