import SqlTidy.Text.Cut
import SqlTidy.Text.Quoted

/-!
# Literals

The parts of an SQL text that formatting must not touch: strings in single quotes, identifiers in
double quotes, and comments.  A line comment runs from `--` to the end of its line, a block comment
from `/*` to the first `*/`.  What is not closed is no literal.  These are the literals of §4.1 of
the specification, found by the combined pattern of F001 (§14).

## Main definitions

* `Literal.Kind` — the four kinds of literal.
* `Literal.recogniser` — recognises a literal at the front of a text.
* `Literal.cut s` — the literals of a text and the gaps between them.
-/

namespace SqlTidy
namespace Literal

/-- The kinds of literal. -/
inductive Kind
  /-- A string in single quotes. -/
  | string
  /-- An identifier in double quotes. -/
  | identifier
  /-- A comment from `--` to the end of the line. -/
  | lineComment
  /-- A comment between `/*` and `*/`. -/
  | blockComment
  deriving DecidableEq, Repr, Inhabited

/-- Whether a character ends a line comment. -/
def isLineEnd (c : Char) : Bool := c == '\n' || c == '\r'

/-- How many characters complete a block comment, its closing `*/` included. -/
def blockLength : Text → Option Nat
  | [] => none
  | [_] => none
  | c :: d :: r =>
    if c = '*' ∧ d = '/' then some 2 else (blockLength (d :: r)).map (· + 1)

/-- The kind and the length of the literal at the front of a text.  The four patterns cannot
compete, since their openers differ. -/
def read : Text → Option (Kind × Nat)
  | [] => none
  | c :: r =>
    if c = Text.singleQuote then (Text.closing c r).map fun n => (.string, n + 1)
    else if c = Text.doubleQuote then (Text.closing c r).map fun n => (.identifier, n + 1)
    else
      match Text.after? ['-', '-'] (c :: r), Text.after? ['/', '*'] (c :: r) with
      | some r, _ => some (.lineComment, (r.takeWhile (!isLineEnd ·)).length + 2)
      | none, some r => (blockLength r).map fun n => (.blockComment, n + 2)
      | none, none => none

/-- A literal has at least one character. -/
theorem pos_of_read {s : Text} {k : Kind} {n : Nat} (h : read s = some (k, n)) : 0 < n := by
  cases s with
  | nil => simp [read] at h
  | cons c r =>
    simp only [read] at h
    split at h
    · simp only [Option.map_eq_some_iff, Prod.mk.injEq] at h
      omega
    · split at h
      · simp only [Option.map_eq_some_iff, Prod.mk.injEq] at h
        omega
      · split at h
        · simp only [Option.some.injEq, Prod.mk.injEq] at h
          omega
        · simp only [Option.map_eq_some_iff, Prod.mk.injEq] at h
          omega
        · simp at h

/-- Recognises a literal at the front of a text. -/
def recogniser : Recogniser Kind := ⟨read, pos_of_read⟩

/-- The literals of a text and the gaps between them. -/
def cut (s : Text) : Cut Kind := recogniser.cut s

end Literal
end SqlTidy
