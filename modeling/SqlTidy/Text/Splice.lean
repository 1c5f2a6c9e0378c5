import SqlTidy.Text.Basic

/-!
# Splicing by position

An edit replaces the characters between two indices by a text.  Edits are taken in the order of
their positions; one that starts before the end of the edit taken last is skipped.  This is how F001
puts in placeholders by position, as §9 of the specification recommends and §14 decides.

## Main definitions

* `Edit` — a range of indices and the text to put there.
* `Text.splice s edits` — a text with edits made to it.
-/

namespace SqlTidy

/-- A range of indices and the text to put there: a transformation of the source, made by a rule. -/
structure Edit where
  /-- The index of the first character to replace. -/
  start : Int
  /-- The index after the last one. -/
  stop : Int
  /-- The text to put there. -/
  text : Text
  deriving DecidableEq, Repr, Inhabited

namespace Edit

/-- The order of edits: by start, then by stop. -/
def le (a b : Edit) : Bool := a.start < b.start || (a.start == b.start && a.stop ≤ b.stop)

end Edit

namespace Text

/-- Makes edits, given in order, to a text of which everything before index `i` is done. -/
def spliceFrom (s : Text) (i : Int) : List Edit → Text
  | [] => s.sliceFrom i
  | e :: es =>
    if e.start < i then spliceFrom s i es
    else s.slice i e.start ++ e.text ++ spliceFrom s e.stop es

/-- A text with edits made to it, in the order of their positions; edits at the same position keep
the order in which they are given. -/
def splice (s : Text) (edits : List Edit) : Text := spliceFrom s 0 (edits.mergeSort Edit.le)

end Text
end SqlTidy
