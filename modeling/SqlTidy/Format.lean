import SqlTidy.Step

/-!
# Formatting

Formatting runs a list of steps over a draft of a text.  A text without anything but blanks is left
alone (§6 of the specification), and a fault leaves the text as it was (§13).

## Main definitions

* `Step.runAll steps d` — steps one after the other, up to the first fault.
* `Report` — the resulting text, whether it differs, what was noted and what went wrong.
* `formatWith steps s` — a text formatted by the given steps.
* `formatReport o s` — a text formatted by the six passes.
* `format o s` — the resulting text alone.
* `warning? o s` — the warning that goes with it.
-/

namespace SqlTidy

/-- Runs steps one after the other, each with a note that it begins, up to the first fault. -/
def Step.runAll : List Step → Draft → Outcome
  | [], d => { draft := d }
  | step :: steps, d =>
    let out := step.run d
    let notes := .applying step.id step.name :: out.notes
    match out.fault with
    | some fault => { draft := out.draft, notes, fault := some fault }
    | none =>
      let last := runAll steps out.draft
      { last with notes := notes ++ last.notes }

/-- What became of a text: the result type of §15, with the notes. -/
structure Report where
  /-- The text after formatting. -/
  text : Text
  /-- Whether it differs from the text before. -/
  modified : Bool := false
  /-- What was noted on the way. -/
  notes : List Note := []
  /-- What went wrong, if anything did. -/
  fault : Option Fault := none
  deriving DecidableEq, Repr, Inhabited

/-- Formats a text by the given steps, as an engine does that they were registered with.  Nothing is
raised: a fault is recorded in the report (§13). -/
def formatWith (steps : List Step) (s : Text) : Report :=
  if Text.isAllBlank s then { text := s }
  else
    let out := Step.runAll steps { text := s }
    match out.fault with
    | some fault => { text := s, notes := out.notes, fault := some fault }
    | none => { text := out.draft.text, modified := out.draft.text ≠ s, notes := out.notes }

/-- The six passes as steps. -/
def standardSteps (o : Options) : List Step := Pass.all.map (Pass.step o)

/-- Formats a text by the six passes. -/
def formatReport (o : Options) (s : Text) : Report := formatWith (standardSteps o) s

/-- The formatted text; the text itself if it cannot be formatted.  This is the public operation of
§6. -/
def format (o : Options) (s : Text) : Text := (formatReport o s).text

/-- The warning that formatting a text gives rise to (§12). -/
def warning? (o : Options) (s : Text) : Option Text :=
  (formatReport o s).fault.map fun fault =>
    "formatting failed, returning input unchanged: ".toList ++ fault.message

/-- Formats a text, then the result, and so on, and gives every result. -/
def reformat (o : Options) : Nat → Text → List Text
  | 0, _ => []
  | n + 1, s => format o s :: reformat o n (format o s)

end SqlTidy
