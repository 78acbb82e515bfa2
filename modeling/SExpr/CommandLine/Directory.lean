/-!
# Reading input

What the bytes of an input are taken for, and why they cannot always be had.  Which bytes a file
holds is for the system to say; a `Directory` is a small one, for runs without any other.

## What is here

* `ReadFailure` — why an input could not be read.
* `decode` — bytes as text.
* `Directory`, `Directory.read` — files by their names.  A file is read under its name
  (`Directory.read_of_mem`).
-/

set_option autoImplicit false

namespace SExpr
namespace CommandLine

/-- Why an input could not be read. -/
inductive ReadFailure where
  /-- The system refused, with its wording and its number for the reason. -/
  | system (reason : String) (code : Nat)
  /-- The bytes are not UTF-8. -/
  | notText
  deriving DecidableEq

namespace ReadFailure

/-- There is no such file. -/
def missing : ReadFailure := .system "No such file or directory" 2

/-- The path leads on behind a file. -/
def notDirectory : ReadFailure := .system "Not a directory" 20

/-- The path leads to a directory. -/
def isDirectory : ReadFailure := .system "Is a directory" 21

/-- The wording of a failure. -/
def message : ReadFailure → String
  | .system reason code => reason ++ " (os error " ++ code.repr ++ ")"
  | .notText => "stream did not contain valid UTF-8"

end ReadFailure

/-- Bytes as the text they encode. -/
def decode (bytes : ByteArray) : Except ReadFailure String :=
  match String.fromUTF8? bytes with
  | some text => .ok text
  | none => .error .notText

/-! ## Files by their names -/

/-- Files by their names, relative to where a program is started.  There is nothing else. -/
structure Directory where
  /-- The files. -/
  files : List (String × ByteArray)

namespace Directory

/-- The steps of a path.  Empty steps and single dots lead nowhere. -/
def steps (path : String) : List (List Char) :=
  (path.toList.splitOn '/').filter fun step => step != [] && step != ['.']

/-- Does a path ask for a directory by how it ends? -/
def endsInDirectory (path : String) : Bool :=
  let last := (path.toList.splitOn '/').getLast?
  last == some [] || last == some ['.']

/-- What a path leads to.  Nothing is found outside of the directory. -/
def read (dir : Directory) (path : String) : Except ReadFailure ByteArray :=
  let wanted := steps path
  if path.toList.head? = some '/' then .error .missing
  else
    match dir.files.find? fun (name, _) => steps name == wanted with
    | some (_, bytes) => if endsInDirectory path then .error .notDirectory else .ok bytes
    | none =>
      if dir.files.any fun (name, _) => (steps name).isPrefixOf wanted then .error .notDirectory
      else if dir.files.any fun (name, _) => wanted.isPrefixOf (steps name) then
        .error .isDirectory
      else if wanted.isEmpty && path != "" then .error .isDirectory
      else .error .missing

/-- **A file is read under its name,** if this is a path to a file and no other file has it. -/
theorem read_of_mem {dir : Directory} {path : String} {bytes : ByteArray}
    (hmem : (path, bytes) ∈ dir.files)
    (hname : ∀ file ∈ dir.files, steps file.1 = steps path → file.2 = bytes)
    (hstart : path.toList.head? ≠ some '/') (hend : endsInDirectory path = false) :
    dir.read path = .ok bytes := by
  have hfound : (dir.files.find? fun file => steps file.1 == steps path).isSome :=
    List.find?_isSome.2 ⟨_, hmem, beq_self_eq_true (steps path)⟩
  obtain ⟨file, hfile⟩ := Option.isSome_iff_exists.1 hfound
  have hsteps := List.find?_some hfile
  have hbytes := hname file (List.mem_of_find?_eq_some hfile) (beq_iff_eq.1 hsteps)
  rw [read, if_neg hstart]
  simp only [hfile, hend, hbytes]
  rfl

end Directory

end CommandLine

end SExpr
