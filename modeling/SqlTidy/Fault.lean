import SqlTidy.Text.Basic

/-!
# Faults

What can stop the formatting of a text.  The specification knows of no error of the formatter itself
(§7), but an indentation that is to be copied too often is one, and is recorded as §13 has it.

## Main definitions

* `Fault` — why formatting stopped.
* `Fault.message` — the wording of a fault.
-/

namespace SqlTidy

/-- Why formatting stopped.  Only copies of the indentation text are counted.  Other texts that get
too long to be counted cause no fault here; `TextsFit` says when there are none. -/
inductive Fault
  /-- An indentation asks for more copies of its unit than can be counted. -/
  | indentTooWide
  /-- An indentation has more characters than can be counted. -/
  | indentTooLong
  /-- A step of the caller's own gave up, for the reason it states. -/
  | stepFailed (reason : Text)
  deriving DecidableEq, Repr, Inhabited

/-- The wording of a fault: the message of the error that is recorded. -/
def Fault.message : Fault → Text
  | .indentTooWide => "cannot fit 'int' into an index-sized integer".toList
  | .indentTooLong => "repeated string is too long".toList
  | .stepFailed reason => reason

end SqlTidy
