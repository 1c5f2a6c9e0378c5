import SqlTidy.Binary64.Basic

/-!
# Shortest decimals

A number is shown by the fewest decimal digits that read back as the same number; of several such
decimals the nearest to the number is taken, and of two that are equally near the even one.

## Main definitions

* `Binary64.shortest m e` — the digits and the power of ten of the shortest decimal.
* `Binary64.display x` — the text of a number.
-/

namespace SqlTidy
namespace Binary64

/-- How many digits `num / den` has before the decimal point; zero or negative for a number below
one tenth or less. -/
def decimalOrder (num den : Nat) : Int :=
  -- scaled up so that even the least number has digits before the point
  (Nat.toDigits 10 (num * Nat.pow 10 400 / den)).length - 400

/-- Whether `d * 10 ^ k` reads back as `m * 2 ^ e`: it lies between the midpoints to the two
neighbours, and may lie on them if `m` is even.  In units of `2 ^ (e - 2)` the midpoints are at
`4 * m + 2` and `4 * m - 2`, or `4 * m - 1` where the lower neighbour is only half as far. -/
def readsBack (m : Nat) (e : Int) (d : Nat) (k : Int) : Bool :=
  let x := d * Nat.pow 10 k.toNat * Nat.pow 2 (2 - e).toNat
  let unit := Nat.pow 2 (e - 2).toNat * Nat.pow 10 (-k).toNat
  let high := (4 * m + 2) * unit
  let low := (if m = Nat.pow 2 52 ∧ minExponent < e then 4 * m - 1 else 4 * m - 2) * unit
  if m % 2 = 0 then low ≤ x && x ≤ high else low < x && x < high

/-- The better of the two decimals `d * 10 ^ k` and `(d + 1) * 10 ^ k` around `m * 2 ^ e`, if one of
them reads back: the one that does, the nearer one, or the even one. -/
def candidate? (m : Nat) (e : Int) (d : Nat) (k : Int) : Option Nat :=
  match readsBack m e d k, readsBack m e (d + 1) k with
  | false, false => none
  | true, false => some d
  | false, true => some (d + 1)
  | true, true =>
    let x := m * Nat.pow 2 e.toNat * Nat.pow 10 (-k).toNat
    let unit := Nat.pow 10 k.toNat * Nat.pow 2 (-e).toNat
    if 2 * x < (2 * d + 1) * unit then some d
    else if (2 * d + 1) * unit < 2 * x then some (d + 1)
    else some (d + d % 2)

/-- The shortest decimal with at least `17 - more` digits that reads back as `m * 2 ^ e`, as digits
and a power of ten. -/
def shortestFrom (m : Nat) (e : Int) (order : Int) : Nat → Nat × Int
  | 0 => (m, 0)
  | more + 1 =>
    let k := order - (17 - more : Nat)
    let d := m * Nat.pow 2 e.toNat * Nat.pow 10 (-k).toNat /
      (Nat.pow 2 (-e).toNat * Nat.pow 10 k.toNat)
    match candidate? m e d k with
    | some d => (d, k)
    | none => shortestFrom m e order more

/-- The shortest decimal that reads back as `m * 2 ^ e`, for positive `m`. -/
def shortest (m : Nat) (e : Int) : Nat × Int :=
  let (num, den) := scaleTwo m e
  shortestFrom m e (decimalOrder num den) 17

/-- Digits without the zeros at their end. -/
def trimZeros (s : Text) : Text := (s.reverse.dropWhile (· == '0')).reverse

/-- The exponent of a decimal, with its sign and at least two digits. -/
def displayExponent (e : Int) : Text :=
  let digits := Text.ofNat e.natAbs
  (if e < 0 then '-' else '+') :: (List.replicate (2 - digits.length) '0' ++ digits)

/-- The decimal with the given significant digits and the point after the first `point` of them.
The notation is positional where the point is at most three places before the digits and at most
sixteen places into them, and scientific elsewhere. -/
def displayDigits (digits : Text) (point : Int) : Text :=
  if -4 < point ∧ point ≤ 16 then
    if point ≤ 0 then "0.".toList ++ List.replicate (-point).toNat '0' ++ digits
    else if digits.length ≤ point.toNat then
      digits ++ List.replicate (point.toNat - digits.length) '0' ++ ".0".toList
    else digits.take point.toNat ++ '.' :: digits.drop point.toNat
  else
    let tail := digits.drop 1
    digits.take 1 ++ (if tail = [] then [] else '.' :: tail) ++ 'e' :: displayExponent (point - 1)

/-- The text of a number. -/
def display : Binary64 → Text
  | nan => "nan".toList
  | infinity negative => (if negative then ['-'] else []) ++ "inf".toList
  | finite negative m e =>
    (if negative then ['-'] else []) ++
      if m = 0 then "0.0".toList
      else
        let (d, k) := shortest m e
        let digits := Text.ofNat d
        displayDigits (trimZeros digits) (digits.length + k)

end Binary64
end SqlTidy
