import SqlTidy.Text.Basic

/-!
# Numerals

Digits may be grouped by single underscores, each of which stands between two digits.

## Main definitions

* `digitRun p s` — the digits at the front of a text, without underscores, and what follows.
* `digitValue c`, `valueOf base ds` — the value of a digit and of a row of digits.
-/

namespace SqlTidy
namespace Text

/-- The digits that go on a row of digits, each with an underscore before it or not, and what
follows them. -/
def moreDigits (p : Char → Bool) : Text → Text × Text
  | [] => ([], [])
  | [c] => if p c then ([c], []) else ([], [c])
  | c :: d :: r =>
    if p c then
      let (ds, rest) := moreDigits p (d :: r)
      (c :: ds, rest)
    else if c = '_' && p d then
      let (ds, rest) := moreDigits p r
      (d :: ds, rest)
    else ([], c :: d :: r)

/-- The row of digits at the front of a text, without the underscores in it, and what follows. -/
def digitRun (p : Char → Bool) : Text → Text × Text
  | [] => ([], [])
  | c :: r =>
    if p c then
      let (ds, rest) := moreDigits p r
      (c :: ds, rest)
    else ([], c :: r)

/-- The value of a digit, letters counting on from ten. -/
def digitValue (c : Char) : Nat :=
  if c.isDigit then c.toNat - '0'.toNat else c.toLower.toNat - 'a'.toNat + 10

/-- The value of a row of digits. -/
def valueOf (base : Nat) (ds : Text) : Nat := ds.foldl (fun n c => n * base + digitValue c) 0

/-- Whether a character is a hexadecimal digit. -/
def isHexDigit (c : Char) : Bool :=
  c.isDigit || ('a' ≤ c && c ≤ 'f') || ('A' ≤ c && c ≤ 'F')

end Text
end SqlTidy
