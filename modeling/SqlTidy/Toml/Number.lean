import SqlTidy.Text.Numeral
import SqlTidy.Toml.Basic

/-!
# Reading TOML: numbers

An integer is decimal with an optional sign, or hexadecimal, octal or binary without one.  A decimal
with a fraction or an exponent is a floating-point number.  Underscores may stand between digits.

## Main definitions

* `Toml.readRadix?` — a hexadecimal, octal or binary integer.
* `Toml.readDecimal?` — a decimal integer or a floating-point number.
* `Toml.readSpecial?` — infinity, or not a number.
* `Toml.readNumber?` — a number of any kind.
-/

namespace SqlTidy
namespace Toml

/-- How many digits a decimal integer may have. -/
def digitLimit : Nat := 4300

/-- The digits of each notation that is marked by a letter, and its base. -/
def radix? (c : Char) : Option ((Char → Bool) × Nat) :=
  if c = 'x' then some (Text.isHexDigit, 16)
  else if c = 'o' then some (fun d => '0' ≤ d && d ≤ '7', 8)
  else if c = 'b' then some (fun d => d == '0' || d == '1', 2)
  else none

/-- Reads an integer in hexadecimal, octal or binary notation. -/
def readRadix? : Text → Option (Int × Text)
  | zero :: mark :: r =>
    if zero = '0' then
      match radix? mark with
      | some (p, base) =>
        match Text.digitRun p r with
        | ([], _) => none
        | (digits, rest) => some (Text.valueOf base digits, rest)
      | none => none
    else none
  | _ => none

/-- Reads a sign; `true` for a minus. -/
def readSign : Text → Bool × Text
  | [] => (false, [])
  | c :: r => if c = '-' then (true, r) else if c = '+' then (false, r) else (false, c :: r)

/-- Reads the digits of an integer part: a zero alone, or digits that do not begin with one. -/
def readWhole : Text → Text × Text
  | [] => ([], [])
  | c :: r => if c = '0' then ([c], r) else Text.digitRun Char.isDigit (c :: r)

/-- Reads a point and the digits after it, if both are there. -/
def readFraction : Text → Text × Text
  | [] => ([], [])
  | c :: r =>
    if c = '.' then
      match Text.digitRun Char.isDigit r with
      | ([], _) => ([], c :: r)
      | (digits, rest) => (digits, rest)
    else ([], c :: r)

/-- Reads an exponent, if one is there. -/
def readExponent? : Text → Option (Int × Text)
  | [] => none
  | c :: r =>
    if c = 'e' ∨ c = 'E' then
      let (negative, r) := readSign r
      match Text.digitRun Char.isDigit r with
      | ([], _) => none
      | (digits, rest) =>
        let n : Int := Text.valueOf 10 digits
        some (if negative then -n else n, rest)
    else none

/-- Reads a decimal integer or a floating-point number, if one is there. -/
def readDecimal? (s : Text) : Except Error (Option (Value × Text)) :=
  let (negative, r) := readSign s
  match readWhole r with
  | ([], _) => .ok none
  | (whole, r) =>
    match readFraction r with
    | (fraction, r) =>
      match fraction, readExponent? r with
      | [], none =>
        if digitLimit < whole.length then .error .tooManyDigits
        else
          let n : Int := Text.valueOf 10 whole
          .ok (some (.int (if negative then -n else n), r))
      | _, exponent =>
        let (e, r) := exponent.getD (0, r)
        let x := Binary64.ofDecimal negative (Text.valueOf 10 (whole ++ fraction))
          (e - fraction.length)
        .ok (some (.float x, r))

/-- Reads infinity or not a number, with a sign or without. -/
def readSpecial? (s : Text) : Option (Value × Text) :=
  let (negative, r) := readSign s
  match Text.after? "inf".toList r, Text.after? "nan".toList r with
  | some rest, _ => some (.float (.infinity negative), rest)
  | none, some rest => some (.float .nan, rest)
  | none, none => none

/-- Reads a number of any kind, if one is there. -/
def readNumber? (s : Text) : Except Error (Option (Value × Text)) := do
  match readRadix? s with
  | some (i, rest) => pure (some (.int i, rest))
  | none =>
    match ← readDecimal? s with
    | some result => pure (some result)
    | none => pure (readSpecial? s)

end Toml
end SqlTidy
