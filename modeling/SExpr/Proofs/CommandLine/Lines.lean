import Mathlib.Data.List.Nodup
import SExpr.CommandLine.Options

/-!
# Command lines

A command line is put together from *arguments*: options with all that belongs to them, and paths.
Each argument can be written in several ways and asks for something on its own, so a command line
asks for just what its arguments ask for, one after another.

A command line that gives no option twice asks for one thing of each kind: a width, a depth, marks
or none, escapes or none, and a file or the standard input.  So it does not matter in which order it
asks for them, and none of them has a say in another.

## What is here

* `Request` — one thing that is asked for; `Request.Once` says that no option is given twice.
* `Numeral`, `IsOperand` — the texts that can be the number of an option, and those that can stand
  apart from it.
* `Argument`, with its `Argument.words` and its `Argument.requests`.
* `Line` — a command line, with its `Line.words` and its `Line.requests`.
* `Line.Valid` — no option is given twice, and there is at most one path.
* `Line.settings`, `Line.path?`, `Line.options` — what such a command line asks for, in whatever
  order (`Line.Valid.options_perm`), and what is left of it without the path
  (`Line.Valid.of_path_cons`).
-/

set_option autoImplicit false

namespace SExpr
namespace CommandLine

/-! ## Requests -/

/-- One thing that is asked for. -/
inductive Request where
  /-- A number for an option. -/
  | number (key : Key) (value : Nat)
  /-- An option that takes no number. -/
  | flag (flag : Flag)
  /-- A path of an input. -/
  | path (text : String)
  deriving DecidableEq

namespace Request

variable {requests others : List Request}

/-- The name of the option that is asked for, if one is. -/
def option? : Request → Option String
  | .number k _ => some k.name
  | .flag f => some f.name
  | .path _ => none

/-- The number that is asked for here, if it is one for this option. -/
def value? (key : Key) : Request → Option Nat
  | .number k value => if k = key then some value else none
  | _ => none

/-- The path that is asked for here. -/
def path? : Request → Option String
  | .path text => some text
  | _ => none

/-- No option is given twice. -/
def Once (requests : List Request) : Prop :=
  (requests.filterMap option?).Nodup

instance (requests : List Request) : Decidable (Once requests) :=
  inferInstanceAs (Decidable (List.Nodup _))

theorem length_values (requests : List Request) (key : Key) :
    (requests.filterMap (value? key)).length = (requests.filterMap option?).count key.name := by
  induction requests with
  | nil => rfl
  | cons request requests ih =>
    cases request with
    | number k value => cases key <;> cases k <;> simp [value?, option?, ih, Key.name]
    | flag f =>
      cases key <;> cases f <;> simp [List.filterMap_cons, value?, option?, ih, Key.name, Flag.name]
    | path text => simp [List.filterMap_cons, value?, option?, ih]

/-- Then there is at most one number for an option. -/
theorem Once.length_values_le (h : Once requests) (key : Key) :
    (requests.filterMap (value? key)).length ≤ 1 := by
  rw [length_values]
  exact List.nodup_iff_count_le_one.1 h _

theorem Once.perm (h : Once requests) (hperm : requests.Perm others) : Once others :=
  (hperm.filterMap option?).nodup_iff.1 h

end Request

/-- Two arrangements of at most one element are the same. -/
theorem eq_of_perm_of_length_le {α : Type} {l l' : List α} (h : l.Perm l') (hle : l.length ≤ 1) :
    l = l' := by
  match l with
  | [] => exact h.nil_eq
  | [a] => exact (List.singleton_perm.1 h).symm ▸ rfl
  | a :: b :: l => cases Nat.le_of_succ_le_succ hle

/-! ## Words -/

/-- A word that is no option: a hyphen stands in front of it only if nothing follows. -/
def IsOperand (word : String) : Prop :=
  word.toList.head? = some '-' → word = "-"

instance (word : String) : Decidable (IsOperand word) :=
  inferInstanceAs (Decidable (_ → _))

/-- A word of option letters: a hyphen, the letter for marks some times, and what follows. -/
def lettersWord (shared : Nat) (rest : List Char) : String :=
  String.ofList ('-' :: (List.replicate shared 's' ++ rest))

/-! ## Arguments -/

/-- A text with the number that an option takes it for. -/
structure Numeral (key : Key) where
  /-- The text. -/
  text : String
  /-- The number. -/
  value : Nat
  /-- The option takes this text for that number. -/
  reads : key.number? text = some value

/-- An option with all that belongs to it, or a path. -/
inductive Argument where
  /-- An option without a number, written in full. -/
  | flag (flag : Flag)
  /-- An option with its number behind an equals sign. -/
  | keyed (key : Key) (number : Numeral key)
  /-- An option with its number as a word of its own. -/
  | key (key : Key) (number : Numeral key) (operand : IsOperand number.text)
  /-- The letter for marks, and again so many times. -/
  | letters (more : Nat)
  /-- The letter of the width, perhaps with letters for marks in front.  The number follows directly
  or behind an equals sign. -/
  | lettersKeyed (shared : Nat) (equals : Bool) (number : Numeral .indent)
  /-- The same with the number as a word of its own. -/
  | lettersKey (shared : Nat) (number : Numeral .indent) (operand : IsOperand number.text)
  /-- A path. -/
  | path (text : String) (operand : IsOperand text)

namespace Argument

/-- The words of an argument. -/
def words : Argument → List String
  | flag f => [f.name]
  | keyed k number => [k.name ++ "=" ++ number.text]
  | key k number _ => [k.name, number.text]
  | letters more => [lettersWord (more + 1) []]
  | lettersKeyed shared equals number =>
    [lettersWord shared ('i' :: ((if equals then ['='] else []) ++ number.text.toList))]
  | lettersKey shared number _ => [lettersWord shared ['i'], number.text]
  | path text _ => [text]

/-- What an argument asks for. -/
def requests : Argument → List Request
  | flag f => [.flag f]
  | keyed k number | key k number _ => [.number k number.value]
  | letters more => List.replicate (more + 1) (.flag .shorthand)
  | lettersKeyed shared _ number | lettersKey shared number _ =>
    List.replicate shared (.flag .shorthand) ++ [.number .indent number.value]
  | path text _ => [.path text]

end Argument

/-! ## Command lines -/

/-- A command line by its arguments. -/
structure Line where
  /-- Options and paths. -/
  arguments : List Argument
  /-- The paths behind two hyphens, if these stand there. -/
  behind : Option (List String)

namespace Line

/-- The words behind the arguments. -/
def ending (line : Line) : List String :=
  match line.behind with
  | none => []
  | some paths => "--" :: paths

/-- The words of a command line. -/
def words (line : Line) : List String :=
  line.arguments.flatMap Argument.words ++ line.ending

/-- What a command line asks for. -/
def requests (line : Line) : List Request :=
  line.arguments.flatMap Argument.requests ++ (line.behind.getD []).map .path

end Line

/-! ## What is asked for -/

namespace Line

/-- A command line with at most one input that gives no option twice. -/
structure Valid (line : Line) : Prop where
  /-- No option is given twice. -/
  once : Request.Once line.requests
  /-- There is at most one path. -/
  length_paths : (line.requests.filterMap Request.path?).length ≤ 1
  /-- No path is empty. -/
  path_ne_empty : "" ∉ line.requests.filterMap Request.path?

/-- The number given for an option. -/
def number? (line : Line) (key : Key) : Option Nat :=
  (line.requests.filterMap (Request.value? key)).head?

/-- The path of the input. -/
def path? (line : Line) : Option String :=
  (line.requests.filterMap Request.path?).head?

/-- The settings that a command line asks for.  Each option decides about one of them. -/
def settings (line : Line) : Settings where
  format :=
    { indentWidth := (line.number? .indent).getD 2
      escaping := decide (.flag .verbatim ∉ line.requests)
      quoteStyle := if .flag .shorthand ∈ line.requests then .shorthand else .list }
  limits := ⟨(line.number? .maxDepth).getD 500⟩

/-- All that a command line asks for. -/
def options (line : Line) : Options where
  indentWidth := (line.number? .indent).getD 2
  maxDepth := (line.number? .maxDepth).getD 500
  shorthand := decide (.flag .shorthand ∈ line.requests)
  verbatim := decide (.flag .verbatim ∈ line.requests)
  path? := line.path?

variable {line other : Line}

theorem settings_options (line : Line) : line.options.settings = line.settings := by
  rw [Options.settings, settings, options]
  by_cases hmarks : .flag .shorthand ∈ line.requests <;>
    by_cases hverbatim : .flag .verbatim ∈ line.requests <;>
    simp [hmarks, hverbatim, Format.verbatim, Format.standard]

theorem Valid.number?_congr (h : line.Valid) {key : Key}
    (hperm : (line.requests.filterMap (Request.value? key)).Perm
      (other.requests.filterMap (Request.value? key))) : other.number? key = line.number? key := by
  rw [number?, number?, eq_of_perm_of_length_le hperm (h.once.length_values_le key)]

/-- Command lines with the same numbers and flags differ at most in their paths. -/
theorem Valid.options_congr (h : line.Valid)
    (hnumbers : ∀ key, (line.requests.filterMap (Request.value? key)).Perm
      (other.requests.filterMap (Request.value? key)))
    (hflags : ∀ f, .flag f ∈ line.requests ↔ .flag f ∈ other.requests) :
    other.options = { line.options with path? := other.path? } := by
  have hnumber : ∀ key, other.number? key = line.number? key := fun key =>
    h.number?_congr (hnumbers key)
  simp only [options, hnumber, hflags]

/-- **The order of requests does not matter.** -/
theorem Valid.options_perm (h : line.Valid) (hperm : line.requests.Perm other.requests) :
    other.Valid ∧ other.options = line.options := by
  have hpaths := hperm.filterMap Request.path?
  refine ⟨⟨h.once.perm hperm, ?_, ?_⟩, ?_⟩
  · rw [← hpaths.length_eq]
    exact h.length_paths
  · rw [← hpaths.mem_iff]
    exact h.path_ne_empty
  · have hpath : other.path? = line.path? := by
      rw [path?, path?, eq_of_perm_of_length_le hpaths h.length_paths]
    rw [h.options_congr (fun key => hperm.filterMap (Request.value? key)) fun f => hperm.mem_iff,
      hpath]
    rfl

/-- Without its path, a command line asks for the standard input, under the same settings. -/
theorem Valid.of_path_cons {path : String} (h : line.Valid)
    (hperm : line.requests.Perm (.path path :: other.requests)) :
    other.Valid ∧ line.path? = some path ∧ other.path? = none ∧
      other.settings = line.settings := by
  have hcons : line.requests.filterMap Request.path? =
      path :: other.requests.filterMap Request.path? :=
    eq_of_perm_of_length_le (hperm.filterMap Request.path?) h.length_paths
  have hnil : other.requests.filterMap Request.path? = [] := by
    have hle := h.length_paths
    rw [hcons] at hle
    exact List.eq_nil_of_length_eq_zero (Nat.le_zero.1 (Nat.le_of_succ_le_succ hle))
  have honce : Request.Once (.path path :: other.requests) := h.once.perm hperm
  refine ⟨⟨honce, ?_, ?_⟩, ?_, ?_, ?_⟩
  · rw [hnil]; exact Nat.zero_le 1
  · rw [hnil]; exact List.not_mem_nil
  · rw [path?, hcons]; rfl
  · rw [path?, hnil]; rfl
  · have hflags : ∀ f, .flag f ∈ line.requests ↔ .flag f ∈ other.requests := fun f => by
      simp [hperm.mem_iff]
    rw [← settings_options, ← settings_options,
      h.options_congr (fun key => hperm.filterMap (Request.value? key)) hflags]
    rfl

end Line

end CommandLine
end SExpr
