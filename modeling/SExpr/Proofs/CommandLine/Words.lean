import SExpr.CommandLine.Words
import SExpr.Proofs.CommandLine.Lines

/-!
# How command lines are read

The reader of words takes a command line one word after another, and what an option means may depend
on the word behind it.  But an argument means the same in front of any other words.  So the reader
finds out of a valid command line just what its arguments ask for.

## What is here

* `Request.choice` — what the reader makes of a request, and that it comes to the same where no
  option is given twice.
* `Argument.tokens`, `Argument.ofWords_append`, `Argument.ofTokens_append` — an argument in front of
  anything else.
* `Line.choices_words` — whole command lines.
* `Line.Valid.parse_words` — a valid command line is understood.
-/

set_option autoImplicit false

namespace SExpr
namespace CommandLine

/-! ## Requests -/

namespace Request

variable {requests : List Request}

/-- What the reader makes of a request. -/
def choice : Request → Choice
  | .number k value => .number k (some value)
  | .flag f => .flag f
  | .path text => .path text

theorem numberFor?_choice (key : Key) (request : Request) :
    Choice.numberFor? key request.choice = (request.value? key).map some := by
  cases request with
  | number k value => by_cases hk : k = key <;> simp [choice, Choice.numberFor?, value?, hk]
  | flag f => rfl
  | path text => rfl

theorem path?_choice (request : Request) : request.choice.path? = request.path? := by
  cases request <;> rfl

theorem number_map_choice (h : Once requests) (key : Key) (default : Nat) :
    Options.number key default (requests.map choice) =
      .ok ((requests.filterMap (value? key)).head?.getD default) := by
  have hnumbers : (requests.map choice).filterMap (Choice.numberFor? key) =
      (requests.filterMap (value? key)).map some := by
    rw [List.filterMap_map, List.map_filterMap]
    exact List.filterMap_congr fun request _ => numberFor?_choice key request
  have hle := h.length_values_le key
  rw [Options.number, hnumbers]
  generalize requests.filterMap (value? key) = values at hle
  match values with
  | [] => rfl
  | [n] => rfl
  | m :: n :: values => cases Nat.le_of_succ_le_succ hle

theorem inputPath_map_choice (hle : (requests.filterMap path?).length ≤ 1)
    (hne : "" ∉ requests.filterMap path?) :
    Options.inputPath (requests.map choice) = .ok (requests.filterMap path?).head? := by
  have hpaths : (requests.map choice).filterMap Choice.path? = requests.filterMap path? := by
    rw [List.filterMap_map]
    exact List.filterMap_congr fun request _ => path?_choice request
  rw [Options.inputPath, hpaths]
  generalize requests.filterMap path? = paths at hle hne
  match paths with
  | [] => rfl
  | [text] =>
    have htext : text ≠ "" := fun hempty => hne (by simp [hempty])
    simp [htext]
  | text :: extra :: paths => cases Nat.le_of_succ_le_succ hle

theorem contains_map_choice (requests : List Request) (f : Flag) :
    (requests.map choice).contains (.flag f) = decide (.flag f ∈ requests) := by
  have hmem : .flag f ∈ requests.map choice ↔ .flag f ∈ requests := by
    rw [List.mem_map]
    constructor
    · rintro ⟨request, hrequest, hchoice⟩
      cases request with
      | number k value => cases hchoice
      | flag f' => rwa [← Choice.flag.inj hchoice]
      | path text => cases hchoice
    · exact fun h => ⟨_, h, rfl⟩
  rw [List.contains_eq_mem]
  exact decide_eq_decide.2 hmem

end Request

/-! ## Words -/

namespace Token

variable {word : String}

/-- What the letter for marks says, that many times. -/
def marks (shared : Nat) : List Token :=
  List.replicate shared (.flag .shorthand)

theorem ofWord_long {long : List Char} (h : word.toList = '-' :: '-' :: long) :
    ofWord word = (ofLong (String.ofList (long.takeWhile (· != '=')))
      ((long.dropWhile (· != '=')).tail?.map String.ofList)).map ([·]) := by
  rw [ofWord]
  split
  · next long' hword =>
    obtain rfl : long = long' := by simpa using h.symm.trans hword
    cases long.dropWhile (· != '=') <;> rfl
  · next c letters hdouble hword =>
    rw [h] at hword
    exact absurd (List.cons.inj (List.cons.inj hword).2).1.symm hdouble
  · next hdouble _ => exact absurd h (hdouble long)

theorem ofWord_letters {c : Char} {letters : List Char} (h : word.toList = '-' :: c :: letters)
    (hc : c ≠ '-') : ofWord word = ofLetters (c :: letters) := by
  rw [ofWord]
  split
  · next hword =>
    rw [h] at hword
    exact absurd (List.cons.inj (List.cons.inj hword).2).1 hc
  · next hword =>
    rw [h] at hword
    rw [(List.cons.inj hword).2]
  · next hletters => exact absurd h (hletters c letters)

theorem ofWord_operand (h : IsOperand word) : ofWord word = .ok [.operand word] := by
  have hsingle : ∀ c letters, word.toList ≠ '-' :: c :: letters := by
    intro c letters hword
    obtain rfl := h (by rw [hword]; rfl)
    cases hword
  rw [ofWord]
  split
  · next hword => exact absurd hword (hsingle _ _)
  · next hword => exact absurd hword (hsingle _ _)
  · rfl

theorem ofWord_flag (flag : Flag) : ofWord flag.name = .ok [.flag flag] := by
  cases flag <;> rfl

theorem ofWord_key (key : Key) : ofWord key.name = .ok [.key key] := by
  cases key <;> rfl

theorem ofWord_keyed (key : Key) (text : String) :
    ofWord (key.name ++ "=" ++ text) = .ok [.keyed key text] := by
  cases key <;> rw [ofWord_long (by simp [Key.name]; rfl)] <;> simp <;> rfl

theorem ofLetters_replicate (shared : Nat) (rest : List Char) :
    ofLetters (List.replicate shared 's' ++ rest) = (ofLetters rest).map (marks shared ++ ·) := by
  induction shared with
  | zero => cases h : ofLetters rest <;> rw [marks] <;> simp [h] <;> rfl
  | succ shared ih =>
    rw [List.replicate_succ, List.cons_append, ofLetters, ih]
    cases ofLetters rest <;> rfl

theorem ofWord_lettersWord {shared : Nat} {rest : List Char}
    (h : List.replicate shared 's' ++ rest ≠ []) (hrest : rest.head? ≠ some '-') :
    ofWord (lettersWord shared rest) = (ofLetters rest).map (marks shared ++ ·) := by
  rw [← ofLetters_replicate]
  cases shared with
  | zero =>
    cases rest with
    | nil => exact absurd rfl h
    | cons c letters => exact ofWord_letters String.toList_ofList (by simpa using hrest)
  | succ shared => exact ofWord_letters String.toList_ofList (by decide)

theorem ofWord_marks (more : Nat) :
    ofWord (lettersWord (more + 1) []) = .ok (marks (more + 1)) := by
  rw [ofWord_lettersWord (by simp [List.replicate_succ]) (by simp), ofLetters, Except.map,
    List.append_nil]

theorem ofWord_marks_indent (shared : Nat) (rest : List Char) :
    ofWord (lettersWord shared ('i' :: rest)) =
      .ok (marks shared ++ [ofKey .indent (attached rest)]) := by
  rw [ofWord_lettersWord (by simp) (by simp), ofLetters, Except.map]

end Token

/-! ## Arguments -/

namespace Argument

/-- What the words of an argument say. -/
def tokens : Argument → List Token
  | flag f => [.flag f]
  | keyed k number => [.keyed k number.text]
  | key k number _ => [.key k, .operand number.text]
  | letters more => Token.marks (more + 1)
  | lettersKeyed shared _ number => Token.marks shared ++ [.keyed .indent number.text]
  | lettersKey shared number _ => Token.marks shared ++ [.key .indent, .operand number.text]
  | path text _ => [.operand text]

end Argument

theorem decimal?_eq_some {digits : List Char} {n : Nat} (h : decimal? digits = some n) :
    digits ≠ [] ∧ ∀ d ∈ digits, d.isDigit := by
  rw [decimal?] at h
  split at h
  · cases h
  · next hdigits => simpa using hdigits

/-- A width begins with a digit or a plus sign. -/
theorem Numeral.attached_text (number : Numeral .indent) :
    Token.attached number.text.toList = some number.text := by
  have hne : number.text.toList ≠ [] ∧ ∀ rest, number.text.toList ≠ '=' :: rest := by
    have hreads := number.reads
    rw [Key.number?, natural?, Option.filter_eq_some_iff] at hreads
    obtain ⟨hne, hdigits⟩ := decimal?_eq_some hreads.1
    refine ⟨fun hnil => hne (by simp [hnil]), fun rest hequals => ?_⟩
    have hdigit : '='.isDigit = true := hdigits '=' (by simp [hequals])
    cases hdigit
  rw [Token.attached.eq_def]
  split
  · next hnil => exact absurd hnil hne.1
  · next hequals => exact absurd hequals (hne.2 _)
  · rw [String.ofList_toList]

namespace Token

variable {word : String} {words : List String} {tokens : List Token}

/-- Words are read one by one. -/
theorem ofWords_cons (h : ofWord word = .ok tokens) :
    ofWords (word :: words) = (ofWords words).map (tokens ++ ·) := by
  have hne : word ≠ "--" := by rintro rfl; cases h
  rw [ofWords, if_neg hne, h]
  cases ofWords words <;> rfl

end Token

namespace Argument

/-- **An argument says the same in front of any words.** -/
theorem ofWords_append (a : Argument) (rest : List String) :
    Token.ofWords (a.words ++ rest) = (Token.ofWords rest).map (a.tokens ++ ·) := by
  cases a with
  | flag f => exact Token.ofWords_cons (Token.ofWord_flag f)
  | keyed k number => exact Token.ofWords_cons (Token.ofWord_keyed k number.text)
  | key k number operand =>
    refine (Token.ofWords_cons (Token.ofWord_key k)).trans ?_
    rw [List.append_eq, List.singleton_append,
      Token.ofWords_cons (Token.ofWord_operand operand)]
    cases Token.ofWords rest <;> rfl
  | letters more => exact Token.ofWords_cons (Token.ofWord_marks more)
  | lettersKeyed shared equals number =>
    refine Token.ofWords_cons ((Token.ofWord_marks_indent shared _).trans ?_)
    cases equals with
    | false =>
      rw [if_neg Bool.false_ne_true, List.nil_append, number.attached_text, Token.ofKey, tokens]
    | true =>
      rw [if_pos rfl, List.singleton_append, Token.attached, String.ofList_toList, Token.ofKey,
        tokens]
  | lettersKey shared number operand =>
    refine (Token.ofWords_cons (Token.ofWord_marks_indent shared [])).trans ?_
    rw [List.append_eq, List.singleton_append,
      Token.ofWords_cons (Token.ofWord_operand operand)]
    cases Token.ofWords rest with
    | error e => rfl
    | ok ts => simp [Except.map, tokens, Token.attached, Token.ofKey]
  | path text operand => exact Token.ofWords_cons (Token.ofWord_operand operand)

end Argument

namespace Choice

variable {k : Key} {ts : List Token}

theorem ofText_numeral (number : Numeral k) :
    ofText k number.text = .ok (.number k (some number.value)) := by
  rw [ofText, number.reads]

theorem ofTokens_marks (shared : Nat) :
    ofTokens (Token.marks shared ++ ts) =
      (ofTokens ts).map (List.replicate shared (.flag .shorthand) ++ ·) := by
  induction shared with
  | zero => cases h : ofTokens ts <;> simp [Token.marks, h, Except.map]
  | succ shared ih =>
    rw [Token.marks, List.replicate_succ, List.cons_append, ofTokens, ← Token.marks, ih]
    cases ofTokens ts <;> rfl

theorem ofTokens_keyed (number : Numeral k) :
    ofTokens (.keyed k number.text :: ts) =
      (ofTokens ts).map (.number k (some number.value) :: ·) := by
  rw [ofTokens, ofText_numeral]
  cases ofTokens ts <;> rfl

theorem ofTokens_key (number : Numeral k) :
    ofTokens (.key k :: .operand number.text :: ts) =
      (ofTokens ts).map (.number k (some number.value) :: ·) := by
  rw [ofTokens, ofText_numeral]
  cases ofTokens ts <;> rfl

/-- What the words of a command line ask for, one after another. -/
def ofWords (words : List String) : Except UsageError (List Choice) :=
  Token.ofWords words >>= ofTokens

end Choice

namespace Argument

/-- **An argument asks for the same in front of any words.** -/
theorem ofTokens_append (a : Argument) (ts : List Token) :
    Choice.ofTokens (a.tokens ++ ts) =
      (Choice.ofTokens ts).map (a.requests.map Request.choice ++ ·) := by
  cases a with
  | flag f => cases h : Choice.ofTokens ts <;> simp [tokens, Choice.ofTokens, h, requests] <;> rfl
  | keyed k number => exact Choice.ofTokens_keyed number
  | key k number operand => exact Choice.ofTokens_key number
  | letters more =>
    rw [requests, List.map_replicate]
    exact Choice.ofTokens_marks (more + 1)
  | lettersKeyed shared equals number =>
    rw [tokens, List.append_assoc, Choice.ofTokens_marks, List.singleton_append,
      Choice.ofTokens_keyed]
    cases Choice.ofTokens ts <;> simp [Except.map, requests, Request.choice]
  | lettersKey shared number operand =>
    rw [tokens, List.append_assoc, Choice.ofTokens_marks, List.cons_append, List.singleton_append,
      Choice.ofTokens_key]
    cases Choice.ofTokens ts <;> simp [Except.map, requests, Request.choice]
  | path text operand =>
    cases h : Choice.ofTokens ts <;> simp [tokens, Choice.ofTokens, h, requests] <;> rfl

theorem choices_append (a : Argument) (rest : List String) :
    Choice.ofWords (a.words ++ rest) =
      (Choice.ofWords rest).map (a.requests.map Request.choice ++ ·) := by
  rw [Choice.ofWords, Choice.ofWords, a.ofWords_append]
  cases Token.ofWords rest with
  | error e => rfl
  | ok ts => exact a.ofTokens_append ts

end Argument

/-! ## Command lines -/

namespace Line

theorem choices_ending (line : Line) :
    Choice.ofWords line.ending =
      .ok (((line.behind.getD []).map Request.path).map Request.choice) := by
  have hpaths : ∀ paths : List String, Choice.ofTokens (paths.map .path) =
      .ok ((paths.map Request.path).map Request.choice) := by
    intro paths
    induction paths with
    | nil => rfl
    | cons path paths ih =>
      rw [List.map_cons, Choice.ofTokens, ih]
      rfl
  rw [ending]
  split
  · next hbehind => rw [hbehind]; rfl
  · next paths hbehind => rw [hbehind]; exact hpaths paths

/-- **The words of a command line ask for what its arguments do.** -/
theorem choices_words (line : Line) :
    Choice.ofWords line.words = .ok (line.requests.map Request.choice) := by
  have harguments : ∀ arguments : List Argument,
      Choice.ofWords (arguments.flatMap Argument.words ++ line.ending) =
        .ok ((arguments.flatMap Argument.requests ++
          (line.behind.getD []).map Request.path).map Request.choice) := by
    intro arguments
    induction arguments with
    | nil => exact line.choices_ending
    | cons a arguments ih =>
      rw [List.flatMap_cons, List.append_assoc, a.choices_append, ih, List.flatMap_cons,
        List.append_assoc, Except.map, ← List.map_append]
  exact harguments line.arguments

end Line

/-- **A valid command line is understood** as what it asks for. -/
theorem Line.Valid.parse_words {line : Line} (h : line.Valid) :
    Options.parse line.words = .ok line.options := by
  have hparse : Options.parse line.words =
      Choice.ofWords line.words >>= Options.ofChoices := by
    rw [Options.parse, Choice.ofWords]
    cases Token.ofWords line.words <;> rfl
  rw [hparse, choices_words]
  change Options.ofChoices (line.requests.map Request.choice) = _
  rw [Options.ofChoices, Request.number_map_choice h.once, Request.number_map_choice h.once,
    Request.inputPath_map_choice h.length_paths h.path_ne_empty, Request.contains_map_choice,
    Request.contains_map_choice]
  rfl

end CommandLine
end SExpr
