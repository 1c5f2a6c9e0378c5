import SqlTidy.Options.Strict
import SqlTidy.Text.Numeral

/-!
# Checking options from a file

Options in a file are read more leniently than those that are set: a size may be a truth value, a
floating-point number without a fraction, or a text that reads as an integer.  On the other hand all
problems are reported, not only the first.  What has been read is then set by name, as any other
options are.  These are the settings of §11 of the specification, which mirror the configuration and
reject unknown names.

## Main definitions

* `Problem` — what is wrong with which option, with `Problem.code` and `Problem.message`.
* `Value.plainNumeral? s` — a numeral without superfluous zeros, underscores and plus.
* `Value.readInteger s` — the integer that a text reads as.
* `Settings` — the options in a file, once they have been checked.
* `Settings.checkWith read v` — the settings that a value describes, or all problems with it, if
  `read` says which integer a value stands for.
* `Settings.check v` — the same with the lenient reading of integers.
* `Settings.toOptions s` — the options that settings make up.
-/

namespace SqlTidy

/-- What is wrong with the value of an option. -/
inductive Cause
  /-- The options are not given as a table. -/
  | notATable
  /-- The value names no case style. -/
  | unknownStyle (v : Value)
  /-- The value of a size is no kind of number. -/
  | notANumber
  /-- The value of a size has a fraction. -/
  | fraction
  /-- The value of a size is not finite. -/
  | notFinite
  /-- The text of a size does not read as an integer. -/
  | unreadable
  /-- The value of a size is too large to be converted. -/
  | tooLarge
  /-- The value of a size is negative. -/
  | negative
  /-- The value of the indentation text is no text. -/
  | notAText
  /-- There is no option of that name. -/
  | unknownName
  deriving Inhabited, Repr

/-- Something wrong with the options in a file. -/
structure Problem where
  /-- The name of the option, unless the options as a whole are meant. -/
  name : Option Text
  /-- What is wrong. -/
  cause : Cause
  deriving Inhabited, Repr

/-- The short name of a problem. -/
def Problem.code (p : Problem) : Text :=
  match p.cause with
  | .notATable => "model_type".toList
  | .unknownStyle _ => "value_error".toList
  | .notANumber => "int_type".toList
  | .fraction => "int_from_float".toList
  | .notFinite => "finite_number".toList
  | .unreadable => "int_parsing".toList
  | .tooLarge => "int_parsing_size".toList
  | .negative => "greater_than_equal".toList
  | .notAText => "string_type".toList
  | .unknownName => "extra_forbidden".toList

/-- The wording of a problem. -/
def Problem.message (p : Problem) : Text :=
  match p.cause with
  | .notATable => "Input should be a valid dictionary or instance of FormatterSettings".toList
  | .unknownStyle v => "Value error, ".toList ++ unknownStyleMessage v
  | .notANumber => "Input should be a valid integer".toList
  | .fraction => "Input should be a valid integer, got a number with a fractional part".toList
  | .notFinite => "Input should be a finite number".toList
  | .unreadable =>
    "Input should be a valid integer, unable to parse string as an integer".toList
  | .tooLarge =>
    "Unable to parse input string as an integer, exceeded maximum size".toList
  | .negative => "Input should be greater than or equal to 0".toList
  | .notAText => "Input should be a valid string".toList
  | .unknownName => "Extra inputs are not permitted".toList

namespace Value

/-- The white space of Unicode. -/
def isWhiteSpace (c : Char) : Bool :=
  let n := c.toNat
  (9 ≤ n && n ≤ 13) || n == 0x20 || n == 0x85 || n == 0xa0 || n == 0x1680 ||
    (0x2000 ≤ n && n ≤ 0x200a) || n == 0x2028 || n == 0x2029 || n == 0x202f || n == 0x205f ||
    n == 0x3000

/-- A text without white space at its ends. -/
def strip (s : Text) : Text :=
  ((s.dropWhile isWhiteSpace).reverse.dropWhile isWhiteSpace).reverse

/-- What follows zeros and underscores: a digit other than zero, or a minus, and all after it.  Of
zeros and underscores alone the last is left, and so is the one before a point.  `last` is the one
that was skipped last. -/
def skipZerosAfter? (last : Char) : Text → Option Text
  | [] => some [last]
  | c :: r =>
    if c = '0' ∨ c = '_' then skipZerosAfter? c r
    else if c.isDigit ∨ c = '-' then some (c :: r)
    else if c = '.' then some (last :: c :: r)
    else none

/-- A numeral without the zeros at its front, where underscores may stand among them. -/
def skipZeros? : Text → Option Text
  | [] => none
  | c :: r =>
    if c = '0' then skipZerosAfter? c r
    else if c.isDigit then some (c :: r)
    else none

/-- A numeral without a point and zeros at its end. -/
def dropZeroFraction (s : Text) : Text :=
  match s.dropWhile (· != '.') with
  | [] => s
  | _ :: fraction =>
    if fraction ≠ [] ∧ fraction.all (· == '0') then s.takeWhile (· != '.') else s

/-- A numeral without its underscores, each of which has to stand alone and between two other
characters.  `last` is the character before. -/
def ungroupAfter? (last : Char) : Text → Option Text
  | [] => if last = '_' then none else some []
  | c :: r =>
    if c = '_' then
      if last = '_' then none else ungroupAfter? c r
    else (ungroupAfter? c r).map (c :: ·)

/-- A numeral without its underscores, each of which has to stand alone and between two other
characters. -/
def ungroup? (s : Text) : Option Text := ungroupAfter? '_' s

/-- A numeral in plain notation.  Its sign is kept if it is a minus, zeros at its front are skipped,
a fraction of zeros is dropped, and so are single underscores. -/
def plainNumeral? (s : Text) : Option Text :=
  match s with
  | [] => none
  | c :: r =>
    let digits := if c = '+' ∨ c = '-' then r else c :: r
    (((skipZeros? digits).map dropZeroFraction).bind ungroup?).map fun t =>
      if c = '-' then c :: t else t

/-- How many characters a plain numeral may have. -/
def numeralLimit : Nat := 4300

/-- The integer that a plain numeral stands for. -/
def ofPlainNumeral (s : Text) : Except Cause Int :=
  let sign := s.takeWhile (· == '-')
  let digits := (s.drop sign.length).takeWhile Char.isDigit
  let rest := s.drop (sign.length + digits.length)
  if 1 < sign.length ∨ digits = [] ∨ (digits.head? = some '0' ∧ 1 < digits.length) then
    .error .unreadable
  else if numeralLimit < sign.length + digits.length then .error .tooLarge
  else if rest ≠ [] then .error .unreadable
  else
    let n : Int := Text.valueOf 10 digits
    .ok (if sign = [] then n else -n)

/-- The integer that a text reads as. -/
def readInteger (s : Text) : Except Cause Int :=
  match plainNumeral? (strip s) with
  | some t => ofPlainNumeral t
  | none => .error .unreadable

/-- The integer that a value stands for.  An integer stands for itself; what values of other kinds
stand for is a convention, and the agreement of settings and options does not depend on it. -/
def checkInteger : Value → Except Cause Int
  | .int i => .ok i
  | .bool b => .ok (if b then 1 else 0)
  | .float x =>
    if !x.isFinite then .error .notFinite
    else
      match x.toInt? with
      | none => .error .fraction
      | some i => if -Int.pow 2 63 < i ∧ i < Int.pow 2 63 then .ok i else .error .tooLarge
  | .text s => readInteger s
  | _ => .error .notANumber

/-- The size that a value stands for, if `read` says which integer it stands for. -/
def checkSize (read : Value → Except Cause Int) (v : Value) : Except Cause Int := do
  let i ← read v
  if i < 0 then throw .negative else pure i

/-- The case style that a value stands for. -/
def checkStyle (v : Value) : Except Cause CaseStyle :=
  match v.caseStyle? with
  | some style => .ok style
  | none => .error (.unknownStyle v)

/-- The text that a value stands for. -/
def checkText : Value → Except Cause Text
  | .text s => .ok s
  | _ => .error .notAText

end Value

/-- The options in a file, once they have been checked. -/
structure Settings where
  /-- The case of reserved words. -/
  reservedCase : CaseStyle := .uppercase
  /-- The case of the names of objects. -/
  objectCase : CaseStyle := .lowercase
  /-- The case of the names of functions. -/
  functionCase : CaseStyle := .lowercase
  /-- How many copies of the indentation text one level takes. -/
  indentSize : Int := 4
  /-- How many copies stand in front of every line. -/
  baseIndent : Int := 0
  /-- The text that indentation is made of. -/
  indentText : Text := [' ']
  deriving DecidableEq, Repr, Inhabited

namespace Settings

/-- The value of an option: checked if the table gives it, else the default. -/
def checkField {α : Type} (t : Table Value) (f : Field) (default : α)
    (check : Value → Except Cause α) : Except Problem α :=
  match f.given t with
  | some v => (check v).mapError fun cause => ⟨some f.name, cause⟩
  | none => .ok default

/-- The problem with an option, if there is one. -/
def problem {α : Type} : Except Problem α → List Problem
  | .ok _ => []
  | .error p => [p]

/-- The settings that a table describes, or all problems with it: those with options in their order,
then names of no option in theirs. -/
def checkTable (read : Value → Except Cause Int) (t : Table Value) :
    Except (List Problem) Settings :=
  let default : Settings := {}
  let reservedCase := checkField t .reservedCase default.reservedCase Value.checkStyle
  let objectCase := checkField t .objectCase default.objectCase Value.checkStyle
  let functionCase := checkField t .functionCase default.functionCase Value.checkStyle
  let indentSize := checkField t .indentSize default.indentSize (Value.checkSize read)
  let baseIndent := checkField t .baseIndent default.baseIndent (Value.checkSize read)
  let indentText := checkField t .indentText default.indentText Value.checkText
  let unknown := (unknownNames t).map fun name => (⟨some name, .unknownName⟩ : Problem)
  match reservedCase, objectCase, functionCase, indentSize, baseIndent, indentText, unknown with
  | .ok a, .ok b, .ok c, .ok d, .ok e, .ok f, [] => .ok ⟨a, b, c, d, e, f⟩
  | a, b, c, d, e, f, unknown =>
    .error (problem a ++ problem b ++ problem c ++ problem d ++ problem e ++ problem f ++ unknown)

/-- The settings that a value describes, or all problems with it, if `read` says which integer a
value stands for. -/
def checkWith (read : Value → Except Cause Int) : Value → Except (List Problem) Settings
  | .table t => checkTable read t
  | _ => .error [⟨none, .notATable⟩]

/-- The settings that a value describes, or all problems with it. -/
def check : Value → Except (List Problem) Settings := checkWith Value.checkInteger

/-- Settings as values by name. -/
def toTable (s : Settings) : Table Value :=
  [(Field.reservedCase.name, .text s.reservedCase.name),
    (Field.objectCase.name, .text s.objectCase.name),
    (Field.functionCase.name, .text s.functionCase.name),
    (Field.indentSize.name, .int s.indentSize),
    (Field.baseIndent.name, .int s.baseIndent),
    (Field.indentText.name, .text s.indentText)]

/-- The options that settings make up, set by name like any others. -/
def toOptions (s : Settings) : Except OptionError Options := Options.ofTable s.toTable

end Settings
end SqlTidy
