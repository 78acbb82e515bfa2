import SExpr.Text.Cursor
import SExpr.Text.Escape
import SExpr.Settings
import SExpr.SyntaxError

/-!
# The reading machine

Reading a form is a run of a pushdown machine over the units of a text.  Its stack holds the forms
that are open: lists with the elements read so far, and marks whose operand has not come yet.  The
first character of the next unit always decides what happens, so nothing is ever read twice, and
the run stops in front of the first unit that cannot belong to the form.

## What is here

* `Frame` — one open form; a stack is a list of frames, the innermost first.
* `Progress`, `deliver` — what a finished value does to the forms around it: it is added to a
  list, it completes a mark and is delivered on, or it is the form that was asked for.
* `State` — where in a form the machine is.
* `Outcome` — a value, nothing (the end of the text or a closing parenthesis), or a failure with
  the number of forms that stay open.
* `step`, `finish`, `run` — one unit, the end of the text, and a whole run.

A form is opened only if fewer forms are open than the limit says; the test comes before the
opening character is taken.
-/

set_option autoImplicit false

namespace SExpr
namespace Reader

/-! ## Open forms -/

/-- A form that has begun and is not complete. -/
inductive Frame where
  /-- A list, with its elements so far, the latest first. -/
  | list (items : List Value)
  /-- A mark that waits for its operand. -/
  | quoted (kind : QuoteKind)
  deriving DecidableEq

/-- How far a run has come, at a place between two tokens. -/
inductive Progress where
  /-- Inside of these open forms. -/
  | within (stack : List Frame)
  /-- Behind the form that was asked for. -/
  | complete (v : Value)
  deriving DecidableEq

/-- What a finished value makes of the forms around it. -/
def deliver (v : Value) : List Frame → Progress
  | [] => .complete v
  | .list items :: outer => .within (.list (v :: items) :: outer)
  | .quoted kind :: outer => deliver (.quoted kind v) outer

/-! ## States and outcomes -/

/-- Where in a form a run has come. -/
inductive State where
  /-- Between two tokens. -/
  | between (progress : Progress)
  /-- Directly behind a comma, which is a mark of its own or the first half of another one. -/
  | comma (stack : List Frame)
  /-- In an atom. -/
  | atom (text : String) (stack : List Frame)
  /-- In an atom, behind a backslash. -/
  | atomEscape (text : String) (stack : List Frame)
  /-- In a string. -/
  | string (text : String) (stack : List Frame)
  /-- In a string, behind a backslash. -/
  | stringEscape (text : String) (stack : List Frame)
  deriving DecidableEq

/-- In front of a form, with no form open. -/
def State.start : State := .between (.within [])

/-- How a run ends. -/
inductive Outcome where
  /-- With a form. -/
  | value (v : Value)
  /-- Without one, at the end of the text or at a closing parenthesis. -/
  | nothing
  /-- With a failure, while so many forms are open. -/
  | failed (cause : SyntaxError.Cause) (openForms : Nat)
  deriving DecidableEq

/-- What one unit leads to. -/
inductive Step where
  /-- The unit is taken. -/
  | go (next : State)
  /-- The run ends in front of the unit. -/
  | stop (outcome : Outcome)
  deriving DecidableEq

/-! ## One unit -/

/-- Opens a form, if the limit allows one more. -/
def enter (limit : Nat) (stack : List Frame) (next : State) : Step :=
  if stack.length < limit then .go next else .stop (.failed .nestingTooDeep stack.length)

/-- How a run ends where a form could begin and none does. -/
def noForm (seen : Option Char) : List Frame → Outcome
  | [] => .nothing
  | .list _ :: outer => .failed (.expectedClose seen) (outer.length + 1)
  | .quoted kind :: outer => .failed (.missingOperand kind seen) (outer.length + 1)

/-- A unit where a form can begin. -/
def begins (limit : Nat) (stack : List Frame) (u : TextUnit) : Step :=
  let c := u.lead
  if isBlank c then .go (.between (.within stack))
  else if c = '(' then enter limit stack (.between (.within (.list [] :: stack)))
  else if c = ')' then
    match stack with
    | .list items :: outer => .go (.between (deliver (.list items.reverse) outer))
    | stack => .stop (noForm (some c) stack)
  else if c = '"' then .go (.string "" stack)
  else if c = '\\' then .go (.atomEscape "" stack)
  else
    match QuoteKind.ofChar? c with
    | some .unquote => enter limit stack (.comma stack)
    | some kind => enter limit stack (.between (.within (.quoted kind :: stack)))
    | none => .go (.atom u.text stack)

/-- A unit between two tokens.  Blanks behind a complete form are taken with it. -/
def continues (limit : Nat) (progress : Progress) (u : TextUnit) : Step :=
  match progress with
  | .within stack => begins limit stack u
  | .complete v => if isBlank u.lead then .go (.between progress) else .stop (.value v)

/-- What the machine does on a unit. -/
def step (limit : Nat) (state : State) (u : TextUnit) : Step :=
  match state with
  | .between progress => continues limit progress u
  | .comma stack =>
    if u.lead = '@' then .go (.between (.within (.quoted .unquoteSplicing :: stack)))
    else begins limit (.quoted .unquote :: stack) u
  | .atom text stack =>
    if u.lead = '\\' then .go (.atomEscape text stack)
    else if endsAtom u.lead then continues limit (deliver (.atom text) stack) u
    else .go (.atom (text ++ u.text) stack)
  | .atomEscape text stack => .go (.atom (text ++ u.text) stack)
  | .string text stack =>
    if u.lead = '"' then .go (.between (deliver (.string text) stack))
    else if u.lead = '\\' then .go (.stringEscape text stack)
    else .go (.string (text ++ u.text) stack)
  | .stringEscape text stack => .go (.string (text ++ Escape.resolve u.text) stack)

/-! ## The end of the text, and whole runs -/

/-- How a run ends when the text does, between two tokens. -/
def Progress.finish : Progress → Outcome
  | .within stack => noForm none stack
  | .complete v => .value v

/-- How a run ends when the text does.  A backslash with nothing behind it adds nothing to its
atom, and makes none. -/
def finish : State → Outcome
  | .between progress => progress.finish
  | .comma stack => noForm none (.quoted .unquote :: stack)
  | .atom text stack => (deliver (.atom text) stack).finish
  | .atomEscape text stack =>
    if text.isEmpty then noForm none stack else (deliver (.atom text) stack).finish
  | .string _ stack | .stringEscape _ stack => .failed .unterminatedString stack.length

/-- Runs the machine to its end; the cursor stands behind the last unit that was taken. -/
def run (limit : Nat) : State → Position → List TextUnit → Outcome × Cursor
  | state, pos, [] => (finish state, ⟨[], pos⟩)
  | state, pos, u :: rest =>
    match step limit state u with
    | .go next => run limit next (pos.advance u) rest
    | .stop outcome => (outcome, ⟨u :: rest, pos⟩)

theorem run_nil (limit : Nat) (state : State) (pos : Position) :
    run limit state pos [] = (finish state, ⟨[], pos⟩) := rfl

theorem run_cons_of_go {limit : Nat} {state next : State} {u : TextUnit}
    (h : step limit state u = .go next) (pos : Position) (rest : List TextUnit) :
    run limit state pos (u :: rest) = run limit next (pos.advance u) rest := by
  rw [run, h]

theorem run_cons_of_stop {limit : Nat} {state : State} {u : TextUnit} {outcome : Outcome}
    (h : step limit state u = .stop outcome) (pos : Position) (rest : List TextUnit) :
    run limit state pos (u :: rest) = (outcome, ⟨u :: rest, pos⟩) := by
  rw [run, h]

end Reader

end SExpr
