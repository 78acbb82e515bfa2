import SExpr.CommandLine.Options

/-!
# Reading command lines

The program leaves its command line to a reader of words, and does not depend on which one that is.
This is one that knows the options and nothing else.  Words are first read one by one into *tokens*;
an option that still lacks its number then takes the operand behind it, and what is left of the
operands is the path of the input.

## What is here

* `Token`, `Token.ofWord`, `Token.ofWords` — what each word says.
* `Choice`, `Choice.ofTokens` — options with their numbers read.
* `Options.ofChoices`, `Options.parse` — all that was asked for.

An option may be given several times; its last occurrence counts.  There are no options that ask for
an explanation, like `--help` and `--version`.
-/

set_option autoImplicit false

namespace SExpr
namespace CommandLine

/-- Why a command line is refused. -/
inductive UsageError where
  /-- There is no such option. -/
  | unknownOption (option : String)
  /-- The option takes no value. -/
  | unexpectedValue (option : String)
  /-- The option takes a number and has none. -/
  | missingNumber (option : String)
  /-- The text is no number that the option takes. -/
  | badNumber (option text : String)
  /-- The path of the input is empty. -/
  | emptyPath
  /-- There is a second path. -/
  | extraPath (path : String)
  deriving DecidableEq

namespace UsageError

/-- The wording of a refusal. -/
def message : UsageError → String
  | .unknownOption option => "unknown option " ++ option
  | .unexpectedValue option => "option " ++ option ++ " takes no value"
  | .missingNumber option => "option " ++ option ++ " needs a number"
  | .badNumber option text => "option " ++ option ++ " does not take \"" ++ text ++ "\""
  | .emptyPath => "the path of the input is empty"
  | .extraPath path => "more than one path: " ++ path

end UsageError

/-! ## Words -/

/-- What a word of the command line says on its own. -/
inductive Token where
  /-- An option that takes a number, without one. -/
  | key (key : Key)
  /-- An option with its number attached. -/
  | keyed (key : Key) (text : String)
  /-- An option that takes no number. -/
  | flag (flag : Flag)
  /-- A word that is no option: the number of the option in front of it, or a path. -/
  | operand (text : String)
  /-- A word that can only be a path. -/
  | path (text : String)
  deriving DecidableEq

namespace Token

/-- An option that takes a number, with what was attached to it. -/
def ofKey (key : Key) : Option String → Token
  | none => .key key
  | some text => .keyed key text

/-- An option written in full, with what stands behind its equals sign. -/
def ofLong (name : String) (value : Option String) : Except UsageError Token :=
  match name, value with
  | "indent", value => .ok (ofKey .indent value)
  | "max-depth", value => .ok (ofKey .maxDepth value)
  | "shorthand", none => .ok (.flag .shorthand)
  | "verbatim", none => .ok (.flag .verbatim)
  | "shorthand", some _ | "verbatim", some _ => .error (.unexpectedValue ("--" ++ name))
  | _, _ => .error (.unknownOption ("--" ++ name))

/-- What stands behind an option letter: its number, with or without an equals sign. -/
def attached : List Char → Option String
  | [] => none
  | '=' :: value => some (String.ofList value)
  | value => some (String.ofList value)

/-- Option letters that share a hyphen.  The letter of an option that takes a number ends them. -/
def ofLetters : List Char → Except UsageError (List Token)
  | [] => .ok []
  | 's' :: letters => (ofLetters letters).map (.flag .shorthand :: ·)
  | 'i' :: rest => .ok [ofKey .indent (attached rest)]
  | c :: _ => .error (.unknownOption (String.ofList ['-', c]))

/-- What a word says.  A hyphen alone is no option. -/
def ofWord (word : String) : Except UsageError (List Token) :=
  match word.toList with
  | '-' :: '-' :: long =>
    let name := String.ofList (long.takeWhile (· != '='))
    let value := match long.dropWhile (· != '=') with
      | [] => none
      | _ :: value => some (String.ofList value)
    (ofLong name value).map ([·])
  | '-' :: c :: letters => ofLetters (c :: letters)
  | _ => .ok [.operand word]

/-- What all words say.  Behind two hyphens that stand alone there are only paths. -/
def ofWords : List String → Except UsageError (List Token)
  | [] => .ok []
  | word :: words =>
    if word = "--" then .ok (words.map .path)
    else do return (← ofWord word) ++ (← ofWords words)

end Token

/-! ## Options with their numbers -/

/-- One thing that words ask for. -/
inductive Choice where
  /-- An option with its number, if it has one. -/
  | number (key : Key) (value : Option Nat)
  /-- An option that takes no number. -/
  | flag (flag : Flag)
  /-- A path of an input. -/
  | path (text : String)
  deriving DecidableEq

namespace Choice

/-- An option with a text that has to be a number it takes. -/
def ofText (key : Key) (text : String) : Except UsageError Choice :=
  match key.number? text with
  | some n => .ok (.number key (some n))
  | none => .error (.badNumber key.name text)

/-- An option without a number takes the operand directly behind it. -/
def ofTokens : List Token → Except UsageError (List Choice)
  | [] => .ok []
  | .key k :: .operand text :: rest => do return (← ofText k text) :: (← ofTokens rest)
  | .key k :: rest => do return .number k none :: (← ofTokens rest)
  | .keyed k text :: rest => do return (← ofText k text) :: (← ofTokens rest)
  | .flag f :: rest => do return .flag f :: (← ofTokens rest)
  | .operand text :: rest | .path text :: rest => do return .path text :: (← ofTokens rest)

/-- The number given here for an option, if it is this option. -/
def numberFor? (key : Key) : Choice → Option (Option Nat)
  | .number k value => if k = key then some value else none
  | _ => none

/-- The path given here. -/
def path? : Choice → Option String
  | .path text => some text
  | _ => none

end Choice

/-! ## All together -/

namespace Options

/-- The number chosen last for an option. -/
def number (key : Key) (default : Nat) (choices : List Choice) : Except UsageError Nat :=
  match (choices.filterMap (Choice.numberFor? key)).getLast? with
  | none => .ok default
  | some (some n) => .ok n
  | some none => .error (.missingNumber key.name)

/-- The one path that may be chosen. -/
def inputPath (choices : List Choice) : Except UsageError (Option String) :=
  match choices.filterMap Choice.path? with
  | [] => .ok none
  | [path] => if path.isEmpty then .error .emptyPath else .ok (some path)
  | _ :: extra :: _ => .error (.extraPath extra)

/-- What several choices come to. -/
def ofChoices (choices : List Choice) : Except UsageError Options := do
  return {
    indentWidth := ← number .indent Format.standard.indentWidth choices
    maxDepth := ← number .maxDepth Limits.standard.maxDepth choices
    shorthand := choices.contains (.flag .shorthand)
    verbatim := choices.contains (.flag .verbatim)
    path? := ← inputPath choices }

/-- What the words of a command line ask for. -/
def parse (words : List String) : Except UsageError Options := do
  ofChoices (← Choice.ofTokens (← Token.ofWords words))

end Options

end CommandLine

end SExpr
