import SqlTidy.Text.Numeral
import SqlTidy.Toml.Basic

/-!
# Reading TOML: dates and times

A date is written `1979-05-27`, a time of day `07:32:00` with an optional fraction of a second.  The
two may stand together with a `T` or a space between them, and with an offset after them.

## Main definitions

* `Toml.dateLength?`, `Toml.timeLength?` — the length of the date or time at the front of a text.
* `Toml.isDay year month day` — there is such a day.
* `Toml.readMoment?` — a date, a time, or both.
-/

namespace SqlTidy
namespace Toml

/-- The number that a text of exactly `n` digits is, if the text begins with one. -/
def readDigits? (n : Nat) (s : Text) : Option Nat :=
  let digits := s.take n
  if digits.length = n ∧ digits.all Char.isDigit then some (Text.valueOf 10 digits) else none

/-- The number below `bound` that the first two characters are. -/
def readBelow? (bound : Nat) (s : Text) : Option Nat :=
  (readDigits? 2 s).filter (· < bound)

/-- Whether a text has the character `c` at place `i`. -/
def hasAt (c : Char) (i : Nat) (s : Text) : Bool := s[i]? == some c

/-- Year, month and day of the date at the front of a text, which has ten characters.  The day is
only checked against the longest month. -/
def readDate? (s : Text) : Option (Nat × Nat × Nat) := do
  let year ← readDigits? 4 s
  let month ← readBelow? 13 (s.drop 5)
  let day ← readBelow? 32 (s.drop 8)
  guard (hasAt '-' 4 s && hasAt '-' 7 s && 0 < month && 0 < day)
  pure (year, month, day)

/-- The length of the time of day at the front of a text. -/
def timeLength? (s : Text) : Option Nat := do
  let _ ← readBelow? 24 s
  let _ ← readBelow? 60 (s.drop 3)
  let _ ← readBelow? 60 (s.drop 6)
  guard (hasAt ':' 2 s && hasAt ':' 5 s)
  let fraction := ((s.drop 9).takeWhile Char.isDigit).length
  pure (if hasAt '.' 8 s && 0 < fraction then 9 + fraction else 8)

/-- The length of the offset at the front of a text, zero if there is none. -/
def offsetLength (s : Text) : Nat :=
  if hasAt 'Z' 0 s || hasAt 'z' 0 s then 1
  else if (hasAt '+' 0 s || hasAt '-' 0 s) && hasAt ':' 3 s &&
      (readBelow? 24 (s.drop 1)).isSome && (readBelow? 60 (s.drop 4)).isSome then 6
  else 0

/-- The length of a separator and the time of day after it, with its offset. -/
def timePartLength? (s : Text) : Option Nat := do
  guard (hasAt 'T' 0 s || hasAt 't' 0 s || hasAt ' ' 0 s)
  let n ← timeLength? (s.drop 1)
  pure (1 + n + offsetLength (s.drop (1 + n)))

/-- The number of days of a month. -/
def daysIn (year month : Nat) : Nat :=
  if month = 2 then
    if year % 4 = 0 ∧ (year % 100 ≠ 0 ∨ year % 400 = 0) then 29 else 28
  else if month = 4 ∨ month = 6 ∨ month = 9 ∨ month = 11 then 30
  else 31

/-- Whether there is such a day; years are counted from one. -/
def isDay (year month day : Nat) : Bool := 0 < year && day ≤ daysIn year month

/-- The value of a date or time that takes the first `n` characters. -/
def momentOf (kind : Moment) (n : Nat) (s : Text) : Value × Text :=
  (.moment kind (s.take n), s.drop n)

/-- Reads a date, a time of day, or both, if one is there. -/
def readMoment? (s : Text) : Except Error (Option (Value × Text)) :=
  match readDate? s with
  | some (year, month, day) =>
    if isDay year month day then
      match timePartLength? (s.drop 10) with
      | some n => .ok (some (momentOf .dateTime (10 + n) s))
      | none => .ok (some (momentOf .date 10 s))
    else .error .noSuchDay
  | none => .ok ((timeLength? s).map fun n => momentOf .time n s)

end Toml
end SqlTidy
