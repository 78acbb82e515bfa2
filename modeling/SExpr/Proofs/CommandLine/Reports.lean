import SExpr.CommandLine.Report
import SExpr.Proofs.CommandLine.Words

/-!
# What the program reports

The report on a command line is what the library gives under the settings that were asked for, or
the reason why there is nothing to give.  It is the same for every order of the arguments, and the
same for a file and for the standard input but for the name of the source.

This is so on every host: whatever files there are, and however its reader deals with words that are
refused.  All that the reader has to do is to understand valid command lines.

## What is here

* `Host.ReadsLines` — what is asked of a reader of command lines; the one of this library is such a
  reader (`Directory.readsLines_host`).
* `Report.Answers` — the report that is due on an input under settings, and that it is given
  (`Options.answers_report`, `Host.answers_file`, `Host.answers_stdin`).  So it is for the files of a
  directory (`Directory.answers_of_mem`).
* `Report.SameButSource` — reports that differ in the name of the source only.
* `report_lines` — all of this for whole command lines.
-/

set_option autoImplicit false

namespace SExpr
namespace CommandLine

/-- A host that understands command lines.  An option counts wherever it stands and in whichever of
its ways it is written, and one that is not given has its default. -/
structure Host.ReadsLines (host : Host) : Prop where
  /-- A valid command line is read as what it asks for. -/
  readWords_words : ∀ line : Line, line.Valid → host.readWords line.words = .ok line.options

/-- The reader of this library understands command lines. -/
theorem Directory.readsLines_host (dir : Directory) (stdin : ByteArray) :
    (dir.host stdin).ReadsLines := by
  refine ⟨fun line hvalid => ?_⟩
  change (Options.parse line.words).mapError Report.usage = .ok line.options
  rw [hvalid.parse_words]
  rfl

/-! ## Bytes and texts -/

theorem decode_toUTF8 (text : String) : decode text.toUTF8 = .ok text := by
  have hdecode : String.fromUTF8? text.toUTF8 = some text := by
    rw [String.fromUTF8?]
    exact dif_pos text.isValidUTF8
  rw [decode, hdecode]

/-- Bytes that no text is encoded by are not decoded. -/
theorem decode_of_ne {bytes : ByteArray} (h : ∀ text : String, bytes ≠ text.toUTF8) :
    decode bytes = .error .notText := by
  have hdecode : String.fromUTF8? bytes = none := by
    rw [String.fromUTF8?]
    exact dif_neg fun hvalid => h (.fromUTF8 bytes hvalid) rfl
  rw [decode, hdecode]

/-! ## The report on an input -/

/-- **The report that is due** on an input under settings.  The source of the input has a name for
where it cannot be read, and one for where it can. -/
structure Report.Answers (report : Report) (settings : Settings) (name source : String)
    (input : Except ReadFailure ByteArray) : Prop where
  /-- The result of the library goes to the standard output. -/
  result : ∀ text out, input = .ok text.toUTF8 → reformatWith settings text = .ok out →
    report = ⟨0, out, ""⟩
  /-- Its error goes to the standard error, with the source and the place. -/
  fault : ∀ text e, input = .ok text.toUTF8 → reformatWith settings text = .error e →
    report = ⟨1, "", "Error: " ++ (e.message ++ " in " ++ source ++
      s!"@{e.pos.line + 1}.{e.pos.column + 1}") ++ "\n"⟩
  /-- So does that the bytes are no text. -/
  notText : ∀ bytes, input = .ok bytes → (∀ text : String, bytes ≠ text.toUTF8) →
    report = ⟨1, "", "Error: " ++ ("reading " ++ name ++
      "\n\nCaused by:\n    " ++ "stream did not contain valid UTF-8") ++ "\n"⟩
  /-- So does that there are none, with the reason. -/
  unread : ∀ e, input = .error e →
    report = ⟨1, "", "Error: " ++ ("reading " ++ name ++
      "\n\nCaused by:\n    " ++ e.message) ++ "\n"⟩

theorem Options.answers_report (options : Options) (input : Except ReadFailure ByteArray) :
    (options.report input).Answers options.settings options.inputName options.sourceName input where
  result := by
    rintro text out rfl hout
    simp only [report, Except.bind, decode_toUTF8, hout]
    rfl
  fault := by
    rintro text e rfl he
    simp only [report, Except.bind, decode_toUTF8, he]
    rfl
  notText := by
    rintro bytes rfl hbytes
    simp only [report, Except.bind, decode_of_ne hbytes]
    rfl
  unread := by
    rintro e rfl
    rfl

namespace Host

variable {host : Host} {words : List String} {options : Options}

theorem report_of_readWords (h : host.readWords words = .ok options) :
    host.report words = options.report (host.input options.path?) := by
  rw [report, h]

/-- With a path, the file under it is reported on. -/
theorem answers_file {path : String} (h : host.readWords words = .ok options)
    (hpath : options.path? = some path) :
    (host.report words).Answers options.settings (Quoted.string path) (Quoted.string path)
      (host.readFile path) := by
  have hanswers := options.answers_report (host.readFile path)
  rw [Options.inputName, Options.sourceName, hpath] at hanswers
  rw [report_of_readWords h, hpath]
  exact hanswers

/-- Without a path, the standard input is. -/
theorem answers_stdin (h : host.readWords words = .ok options) (hpath : options.path? = none) :
    (host.report words).Answers options.settings "stdin" "(stdin)" host.stdin := by
  have hanswers := options.answers_report host.stdin
  rw [Options.inputName, Options.sourceName, hpath] at hanswers
  rw [report_of_readWords h, hpath]
  exact hanswers

end Host

/-- **A file of a directory** is what is reported on where a command line gives its name. -/
theorem Directory.answers_of_mem {dir : Directory} {stdin bytes : ByteArray} {line : Line}
    {path : String} (hvalid : line.Valid) (hpath : line.path? = some path)
    (hmem : (path, bytes) ∈ dir.files)
    (hname : ∀ file ∈ dir.files, steps file.1 = steps path → file.2 = bytes)
    (hstart : path.toList.head? ≠ some '/') (hend : endsInDirectory path = false) :
    (report dir stdin line.words).Answers line.settings (Quoted.string path) (Quoted.string path)
      (.ok bytes) := by
  have hread := (dir.readsLines_host stdin).readWords_words line hvalid
  rw [← dir.read_of_mem hmem hname hstart hend, ← line.settings_options]
  exact Host.answers_file hread hpath

/-! ## Files and the standard input -/

/-- Reports on the same bytes, once from a file and once from the standard input: they differ at
most in the name of the source. -/
structure Report.SameButSource (path : String) (file piped : Report) : Prop where
  /-- Both succeed or both fail. -/
  exitCode : file.exitCode = piped.exitCode
  /-- They give the same result, if any. -/
  stdout : file.stdout = piped.stdout
  /-- They give the same reasons, if any. -/
  stderr : file.stderr = "" ∧ piped.stderr = "" ∨
    ∃ front back standard, (standard = "stdin" ∨ standard = "(stdin)") ∧
      file.stderr = front ++ Quoted.string path ++ back ∧
      piped.stderr = front ++ standard ++ back

/-- The same bytes lead to the same report, wherever they come from. -/
theorem Report.Answers.sameButSource {file piped : Report} {settings : Settings} {path : String}
    {bytes : ByteArray}
    (hfile : file.Answers settings (Quoted.string path) (Quoted.string path) (.ok bytes))
    (hpiped : piped.Answers settings "stdin" "(stdin)" (.ok bytes)) :
    Report.SameButSource path file piped := by
  by_cases htext : ∃ text : String, bytes = text.toUTF8
  · obtain ⟨text, rfl⟩ := htext
    cases hreformat : reformatWith settings text with
    | ok out =>
      rw [hfile.result text out rfl hreformat, hpiped.result text out rfl hreformat]
      exact ⟨rfl, rfl, .inl ⟨rfl, rfl⟩⟩
    | error e =>
      rw [hfile.fault text e rfl hreformat, hpiped.fault text e rfl hreformat]
      refine ⟨rfl, rfl, .inr ⟨"Error: " ++ (e.message ++ " in "),
        s!"@{e.pos.line + 1}.{e.pos.column + 1}" ++ "\n", "(stdin)", .inr rfl, ?_, ?_⟩⟩ <;>
      simp only [String.append_assoc]
  · have hbytes : ∀ text : String, bytes ≠ text.toUTF8 := fun text heq => htext ⟨text, heq⟩
    rw [hfile.notText bytes rfl hbytes, hpiped.notText bytes rfl hbytes]
    refine ⟨rfl, rfl, .inr ⟨"Error: " ++ "reading ",
      "\n\nCaused by:\n    " ++ "stream did not contain valid UTF-8" ++ "\n", "stdin", .inl rfl,
      ?_, ?_⟩⟩ <;>
    simp only [String.append_assoc]

/-! ## All command lines -/

/-- **What the program reports.**  On every host, the report on words that are understood is the one
that is due on the file under the path that they give, or else on the standard input.  If the host
understands valid command lines, then for each of them:

* the settings are those that its options ask for, each by itself;
* neither the order of the arguments nor their spelling changes the report;
* with a path, the standard input is ignored;
* without the path, the same bytes on the standard input give the same report but for the name of
  the source. -/
theorem report_lines (host : Host) :
    (∀ words options, host.readWords words = .ok options →
      (∀ path, options.path? = some path →
        (host.report words).Answers options.settings (Quoted.string path) (Quoted.string path)
          (host.readFile path)) ∧
      (options.path? = none →
        (host.report words).Answers options.settings "stdin" "(stdin)" host.stdin)) ∧
    (host.ReadsLines → ∀ line : Line, line.Valid →
      (∀ path, line.path? = some path →
        (host.report line.words).Answers line.settings (Quoted.string path) (Quoted.string path)
          (host.readFile path)) ∧
      (line.path? = none →
        (host.report line.words).Answers line.settings "stdin" "(stdin)" host.stdin) ∧
      (∀ other : Line, line.requests.Perm other.requests →
        host.report other.words = host.report line.words) ∧
      (∀ path, line.path? = some path → ∀ stdin,
        { host with stdin := stdin }.report line.words = host.report line.words) ∧
      ∀ (other : Line) (path : String) (bytes : ByteArray) (host' : Host), host'.ReadsLines →
        line.requests.Perm (.path path :: other.requests) → host.readFile path = .ok bytes →
          host'.stdin = .ok bytes →
            Report.SameButSource path (host.report line.words) (host'.report other.words)) := by
  refine ⟨?_, fun hlines line hvalid => ?_⟩
  · exact fun words options hread => ⟨fun path => Host.answers_file hread, Host.answers_stdin hread⟩
  have hread := hlines.readWords_words line hvalid
  have hfile : ∀ path, line.path? = some path → _ := fun path => Host.answers_file hread
  have hstdin := Host.answers_stdin hread
  rw [line.settings_options] at hstdin
  simp only [line.settings_options] at hfile
  refine ⟨hfile, hstdin, ?_, ?_, ?_⟩
  · intro other hperm
    obtain ⟨hother, hoptions⟩ := hvalid.options_perm hperm
    rw [Host.report_of_readWords (hlines.readWords_words other hother),
      Host.report_of_readWords hread, hoptions]
  · intro path hpath stdin
    have hinput : line.options.path? = some path := hpath
    have hread' : { host with stdin := stdin }.readWords line.words = .ok line.options := hread
    rw [Host.report_of_readWords hread', Host.report_of_readWords hread, hinput]
    rfl
  · intro other path bytes host' hlines' hperm hbytes hpiped
    obtain ⟨hother, hpath, hnone, hsettings⟩ := hvalid.of_path_cons hperm
    have hfirst := hfile path hpath
    have hsecond := Host.answers_stdin (hlines'.readWords_words other hother) hnone
    rw [other.settings_options, hsettings, hpiped] at hsecond
    rw [hbytes] at hfirst
    exact hfirst.sameButSource hsecond

/-- An atom behind two marks, and a byte that begins no character. -/
def twoFiles : Directory :=
  ⟨[("marks.scm", "''a".toUTF8), ("byte.scm", ⟨#[0xff]⟩)]⟩

/-- A file under options in two orders, under a smaller depth, and on the standard input; a file
that is no text, and one that is missing.  In front of each file, the standard input holds a
parenthesis that is not closed. -/
theorem report_lines_marks :
    (twoFiles.host "(".toUTF8).ReadsLines ∧
    report twoFiles "(".toUTF8 ["-si0", "marks.scm", "--max-depth=2"] = ⟨0, "''a\n", ""⟩ ∧
    report twoFiles "(".toUTF8 ["--max-depth=2", "-si0", "--", "marks.scm"] =
      ⟨0, "''a\n", ""⟩ ∧
    report twoFiles "(".toUTF8 ["marks.scm", "--max-depth=1"] =
      ⟨1, "", "Error: Nesting too deep in \"marks.scm\"@1.2\n"⟩ ∧
    Report.SameButSource "marks.scm"
      (report twoFiles "(".toUTF8 ["marks.scm", "--max-depth=1"])
      (report ⟨[]⟩ "''a".toUTF8 ["--max-depth=1"]) ∧
    report twoFiles "(".toUTF8 ["byte.scm"] =
      ⟨1, "", "Error: reading \"byte.scm\"\n\nCaused by:\n" ++
        "    stream did not contain valid UTF-8\n"⟩ ∧
    report twoFiles "(".toUTF8 ["none.scm"] =
      ⟨1, "", "Error: reading \"none.scm\"\n\nCaused by:\n" ++
        "    No such file or directory (os error 2)\n"⟩ := by
  have hreads := twoFiles.readsLines_host "(".toUTF8
  have hlines := (report_lines (twoFiles.host "(".toUTF8)).2 hreads
  let width : Argument := .lettersKeyed 1 false ⟨"0", 0, by decide⟩
  let depth : Argument := .keyed .maxDepth ⟨"2", 2, by decide⟩
  let less : Argument := .keyed .maxDepth ⟨"1", 1, by decide⟩
  let file : Argument := .path "marks.scm" (by decide)
  have hbyte : ∀ text : String, (⟨#[0xff]⟩ : ByteArray) ≠ text.toUTF8 := fun text hbytes => by
    have hinvalid : ¬(ByteArray.mk #[0xff]).IsValidUTF8 := by decide
    exact hinvalid (hbytes ▸ text.isValidUTF8)
  obtain ⟨hfile, -, hperm, -, -⟩ :=
    hlines ⟨[width, file, depth], none⟩ ⟨by decide, by decide, by decide⟩
  have hresult := (hfile "marks.scm" rfl).result "''a" "''a\n" rfl rfl
  obtain ⟨hdeep, -, -, -, hsame⟩ := hlines ⟨[file, less], none⟩ ⟨by decide, by decide, by decide⟩
  refine ⟨hreads, hresult, ?_, ?_, ?_, ?_, ?_⟩
  · exact (hperm ⟨[depth, width], some ["marks.scm"]⟩ (by decide)).trans hresult
  · have hfault := (hdeep "marks.scm" rfl).fault "''a" ⟨.nestingTooDeep, ⟨1, 0, 1⟩⟩ rfl rfl
    exact hfault.trans (by decide +kernel)
  · exact hsame ⟨[less], none⟩ "marks.scm" "''a".toUTF8 _
      (Directory.readsLines_host ⟨[]⟩ "''a".toUTF8) (by decide) rfl rfl
  · have hbytes := hlines ⟨[.path "byte.scm" (by decide)], none⟩ ⟨by decide, by decide, by decide⟩
    exact ((hbytes.1 "byte.scm" rfl).notText ⟨#[0xff]⟩ rfl hbyte).trans (by decide +kernel)
  · have hnone := hlines ⟨[.path "none.scm" (by decide)], none⟩ ⟨by decide, by decide, by decide⟩
    exact ((hnone.1 "none.scm" rfl).unread .missing rfl).trans (by decide +kernel)

end CommandLine
end SExpr
