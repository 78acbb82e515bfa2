import SExpr.Settings

/-!
# Options

What the command line program can be asked for, and the settings that this denotes.  How it is
asked, that is which words ask for what, is not settled here.

## What is here

* `natural?`, `signed?` — the numbers that texts denote.
* `Key`, `Flag` — the options that take a number, and those that do not.
* `Options` — all that is asked for, and the settings that this denotes (`Options.settings`).
-/

set_option autoImplicit false

namespace SExpr
namespace CommandLine

/-! ## Numbers -/

/-- The number that a text of decimal digits denotes. -/
def decimal? (digits : List Char) : Option Nat :=
  if digits.isEmpty || !digits.all Char.isDigit then none
  else some (digits.foldl (fun n d => 10 * n + (d.toNat - '0'.toNat)) 0)

/-- A number up to a bound.  A plus sign may stand in front. -/
def natural? (bound : Nat) (text : List Char) : Option Nat :=
  (decimal? (if text.head? = some '+' then text.tail else text)).filter (· ≤ bound)

/-- The same where a minus sign is understood too; behind it, zero is the only number that is not
out of range. -/
def signed? (bound : Nat) (text : List Char) : Option Nat :=
  match text with
  | '-' :: digits => (decimal? digits).filter (· = 0)
  | text => natural? bound text

/-! ## The options there are -/

/-- Options that take a number. -/
inductive Key where
  /-- Spaces for each level of nesting. -/
  | indent
  /-- The nesting depth that is accepted. -/
  | maxDepth
  deriving DecidableEq

/-- Options that take none. -/
inductive Flag where
  /-- Print quoted forms with their marks. -/
  | shorthand
  /-- Print strings and atoms without escapes. -/
  | verbatim
  deriving DecidableEq

/-- How an option that takes a number is called. -/
def Key.name : Key → String
  | .indent => "--indent"
  | .maxDepth => "--max-depth"

/-- How an option that takes no number is called. -/
def Flag.name : Flag → String
  | .shorthand => "--shorthand"
  | .verbatim => "--verbatim"

/-- The numbers that an option takes: a width fits into 64 bits, a depth into 32. -/
def Key.number? : Key → String → Option Nat
  | .indent, text => natural? (UInt64.size - 1) text.toList
  | .maxDepth, text => signed? (UInt32.size - 1) text.toList

/-! ## What is asked for -/

/-- What a command line asks for. -/
structure Options where
  /-- Spaces for each level of nesting. -/
  indentWidth : Nat
  /-- The nesting depth that is accepted. -/
  maxDepth : Nat
  /-- Print quoted forms with their marks? -/
  shorthand : Bool
  /-- Print strings and atoms without escapes? -/
  verbatim : Bool
  /-- The file to read, or the standard input. -/
  path? : Option String
  deriving DecidableEq

/-- The settings that options denote. -/
def Options.settings (options : Options) : Settings :=
  let preset := if options.verbatim then Format.verbatim else Format.standard
  { format := { preset with
      indentWidth := options.indentWidth
      quoteStyle := if options.shorthand then .shorthand else preset.quoteStyle }
    limits := ⟨options.maxDepth⟩ }

end CommandLine

end SExpr
