import SExpr.CommandLine.Directory
import SExpr.CommandLine.Words
import SExpr.Reformat
import SExpr.Text.Quoted

/-!
# Reports

The command line program reads one input, prints what it denotes, and reports how that went.
Either the whole result goes to the standard output, or nothing does and the reason goes to the
standard error.

How its command line is read and what its files hold is not for the program to decide.  It takes
both from its *host*, and so does everything that is said of it.

## What is here

* `Report` — an exit code and two texts.
* `Options.report` — the report on an input that was asked for.
* `Host` — a reader of command lines, files and a standard input, with the report on a whole command
  line (`Host.report`).
* `Directory.host`, `report` — the same with the reader of this library and nothing but the files of
  a directory.
-/

set_option autoImplicit false

namespace SExpr
namespace CommandLine

/-- What a run of the program leaves behind. -/
structure Report where
  /-- Zero for success, one for an input that is at fault, two for a command line that is. -/
  exitCode : Nat
  /-- What goes to the standard output. -/
  stdout : String
  /-- What goes to the standard error. -/
  stderr : String
  deriving DecidableEq

namespace Report

/-- A result. -/
def success (out : String) : Report := ⟨0, out, ""⟩

/-- An input at fault. -/
def failure (message : String) : Report := ⟨1, "", "Error: " ++ message ++ "\n"⟩

/-- A command line at fault. -/
def usage (e : UsageError) : Report := ⟨2, "", "error: " ++ e.message ++ "\n"⟩

end Report

namespace Options

/-- The name of the input where it could not be read. -/
def inputName (options : Options) : String :=
  match options.path? with
  | some path => Quoted.string path
  | none => "stdin"

/-- The name of the input in front of a position. -/
def sourceName (options : Options) : String :=
  match options.path? with
  | some path => Quoted.string path
  | none => "(stdin)"

/-- What to say of an input that could not be read. -/
def readMessage (options : Options) (e : ReadFailure) : String :=
  "reading " ++ options.inputName ++ "\n\nCaused by:\n    " ++ e.message

/-- What to say of an input with a syntax error. -/
def syntaxMessage (options : Options) (e : SyntaxError) : String :=
  e.message ++ " in " ++ options.sourceName ++ e.pos.display

/-- The report on an input, given what reading it gave. -/
def report (options : Options) (input : Except ReadFailure ByteArray) : Report :=
  match input.bind decode with
  | .error e => .failure (options.readMessage e)
  | .ok text =>
    match reformatWith options.settings text with
    | .error e => .failure (options.syntaxMessage e)
    | .ok out => .success out

end Options

/-! ## Hosts -/

/-- What the program is run on. -/
structure Host where
  /-- What the words of a command line ask for, or the report that ends the run there: because they
  are refused, or because they only ask for an explanation. -/
  readWords : List String → Except Report Options
  /-- The bytes of the file under a path. -/
  readFile : String → Except ReadFailure ByteArray
  /-- The bytes on the standard input. -/
  stdin : Except ReadFailure ByteArray

namespace Host

/-- The bytes that are asked for.  The standard input is not looked at if a path is given. -/
def input (host : Host) : Option String → Except ReadFailure ByteArray
  | some path => host.readFile path
  | none => host.stdin

/-- The report on a command line. -/
def report (host : Host) (words : List String) : Report :=
  match host.readWords words with
  | .error report => report
  | .ok options => options.report (host.input options.path?)

end Host

/-- Reads a command line with the reader of this library.  Words that it refuses are at fault. -/
def readWords (words : List String) : Except Report Options :=
  (Options.parse words).mapError .usage

/-- A host with the files of a directory and these bytes on the standard input. -/
def Directory.host (dir : Directory) (stdin : ByteArray) : Host where
  readWords := readWords
  readFile := dir.read
  stdin := .ok stdin

/-- The report on a command line, started in a directory with this on the standard input. -/
def report (dir : Directory) (stdin : ByteArray) (words : List String) : Report :=
  (dir.host stdin).report words

end CommandLine

end SExpr
