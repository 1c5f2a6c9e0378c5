import SqlTidy.Text.Basic

/-!
# Binary floating-point numbers

Numbers of the double format: a sign, a significand below `2 ^ 53` and a power of two, or else an
infinity or not a number at all.  A decimal is read as the nearest of them, a tie going to the even
significand.

## Main definitions

* `Binary64` — a number of the double format.
* `roundDiv num den` — a quotient rounded to the nearest natural number, ties to even.
* `Binary64.ofRatio`, `Binary64.ofDecimal` — the number nearest to a fraction or a decimal.
* `Binary64.isFinite`, `Binary64.toInt?` — whether it is a number of finite size; its value if that
  is an integer.
-/

namespace SqlTidy

/-- A number of the double format. -/
inductive Binary64
  /-- The number with the given sign and absolute value `significand * 2 ^ exponent`. -/
  | finite (negative : Bool) (significand : Nat) (exponent : Int)
  /-- An infinity with the given sign. -/
  | infinity (negative : Bool)
  /-- Not a number. -/
  | nan
  deriving DecidableEq, Repr, Inhabited

/-- The natural number nearest to `num / den`; of two that are equally near, the even one. -/
def roundDiv (num den : Nat) : Nat :=
  let q := num / den
  let twice := 2 * (num % den)
  if twice < den then q else if den < twice then q + 1 else q + q % 2

/-- `n * 2 ^ e` as a fraction. -/
def scaleTwo (n : Nat) (e : Int) : Nat × Nat := (n * Nat.pow 2 e.toNat, Nat.pow 2 (-e).toNat)

namespace Binary64

/-- The least exponent of the format. -/
def minExponent : Int := -1074

/-- The greatest exponent of the format. -/
def maxExponent : Int := 971

/-- The exponent `e` with `2 ^ e ≤ num / den < 2 ^ (e + 1)`, for positive `num` and `den`. -/
def binaryOrder (num den : Nat) : Int :=
  let e : Int := num.log2 - den.log2
  if den * Nat.pow 2 e.toNat ≤ num * Nat.pow 2 (-e).toNat then e else e - 1

/-- The number nearest to the fraction `num / den`, for positive `den`. -/
def ofRatio (negative : Bool) (num den : Nat) : Binary64 :=
  if num = 0 then finite negative 0 minExponent
  else
    let e := max (binaryOrder num den - 52) minExponent
    let m := roundDiv (num * Nat.pow 2 (-e).toNat) (den * Nat.pow 2 e.toNat)
    -- rounding up may have reached the next power of two
    let (m, e) := if m = Nat.pow 2 53 then (Nat.pow 2 52, e + 1) else (m, e)
    if maxExponent < e then infinity negative else finite negative m e

/-- The number nearest to the decimal `digits * 10 ^ exponent`.  Decimals beyond the range of the
format are told by their number of digits, so that no great power of ten is computed. -/
def ofDecimal (negative : Bool) (digits : Nat) (exponent : Int) : Binary64 :=
  if digits = 0 then finite negative 0 minExponent
  else
    let places : Int := (Nat.toDigits 10 digits).length + exponent
    if 310 < places then infinity negative
    else if places < -330 then finite negative 0 minExponent
    else ofRatio negative (digits * Nat.pow 10 exponent.toNat) (Nat.pow 10 (-exponent).toNat)

/-- Whether it is a number of finite size. -/
def isFinite : Binary64 → Bool
  | finite .. => true
  | _ => false

/-- The value of a number, if that is an integer. -/
def toInt? : Binary64 → Option Int
  | finite negative m e =>
    let (num, den) := scaleTwo m e
    if num % den = 0 then
      let n : Int := (num / den : Nat)
      some (if negative then -n else n)
    else none
  | _ => none

end Binary64
end SqlTidy
