/-!
# Settings

How values are printed, and how deep texts may be nested.

## What is here

* `QuoteStyle`, `Format` — how a value is laid out, with the two presets `Format.standard` and
  `Format.verbatim`.
* `Limits` — what a reader accepts, with the preset `Limits.standard`.
* `Settings` — both together, with the preset `Settings.standard`.
-/

set_option autoImplicit false

namespace SExpr

/-- How quoted forms are printed. -/
inductive QuoteStyle where
  /-- As the list of two that the form stands for. -/
  | list
  /-- As the operand with the mark of its kind in front. -/
  | shorthand
  deriving DecidableEq

/-- How a value is printed. -/
structure Format where
  /-- Spaces for each level of nesting. -/
  indentWidth : Nat
  /-- Are strings and atoms written with the escapes that make them read back? -/
  escaping : Bool
  /-- How quoted forms are printed. -/
  quoteStyle : QuoteStyle
  deriving DecidableEq

/-- Two spaces a level, with escapes, quoted forms spelled out. -/
def Format.standard : Format := ⟨2, true, .list⟩

/-- Texts exactly as they are held.  A string with a quotation mark in it does not read back. -/
def Format.verbatim : Format := { Format.standard with escaping := false }

/-- What a reader accepts. -/
structure Limits where
  /-- How deep lists and quoted forms may be nested. -/
  maxDepth : Nat
  deriving DecidableEq

/-- Five hundred levels. -/
def Limits.standard : Limits := ⟨500⟩

/-- The settings for reading a text and printing what it denotes. -/
structure Settings where
  /-- How the value is printed. -/
  format : Format
  /-- What may be read. -/
  limits : Limits
  deriving DecidableEq

/-- The standard format under the standard limits. -/
def Settings.standard : Settings := ⟨.standard, .standard⟩

end SExpr
