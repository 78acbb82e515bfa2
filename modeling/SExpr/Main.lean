import SExpr.CommandLine.Report

/-!
# The command line program

Reads a file or the standard input and prints what it denotes.  All decisions are taken in
`SExpr.CommandLine`; this file only moves bytes.
-/

set_option autoImplicit false

namespace SExpr
namespace CommandLine

/-- Why the system refused to read. -/
def ReadFailure.ofError : IO.Error → ReadFailure
  | .noFileOrDirectory _ _ _ => .missing
  | .inappropriateType _ code _ => if code = 21 then .isDirectory else .notDirectory
  | .permissionDenied _ code reason
  | .resourceExhausted _ code reason | .invalidArgument _ code reason
  | .noSuchThing _ code reason | .alreadyExists _ code reason
  | .otherError code reason | .hardwareFault code reason => .system reason code.toNat
  | e => .system (toString e) 0

/-- The bytes of an input. -/
def readInput (path? : Option String) : IO (Except ReadFailure ByteArray) := do
  try
    match path? with
    | some path => return .ok (← IO.FS.readBinFile path)
    | none => return .ok (← (← IO.getStdin).readBinToEnd)
  catch e => return .error (.ofError e)

/-- Runs the program on the words of a command line and writes its report.  Only the input that they
ask for is read, so the host knows of no other. -/
def runProgram (words : List String) : IO UInt32 := do
  let input ← match readWords words with
    | .error _ => pure (.ok ByteArray.empty)
    | .ok options => readInput options.path?
  let host : Host := ⟨readWords, fun _ => input, input⟩
  let report := host.report words
  IO.print report.stdout
  IO.eprint report.stderr
  return report.exitCode.toUInt32

end CommandLine

end SExpr

/-- The program. -/
def main (words : List String) : IO UInt32 :=
  SExpr.CommandLine.runProgram words
