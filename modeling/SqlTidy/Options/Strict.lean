import SqlTidy.Options.Field

/-!
# Setting options

Options are set by name and taken as they are: a size has to be a natural number, a text a text.
Options are never changed in place; setting some gives new options, in which the others are as
before.  This is the construction of a configuration and of derived copies of it in §11 of the
specification.

## Main definitions

* `OptionError` — why options cannot be set, and `OptionError.message` for its wording.
* `Options.update o changes` — options with some of them set anew.
* `Options.ofTable t` — the default options with some of them set.

The first error in this order counts: a name of no option, then the options one by one.
-/

namespace SqlTidy

/-- Why options cannot be set. -/
inductive OptionError
  /-- There is no option of that name. -/
  | unknownName (name : Text)
  /-- The value names no case style. -/
  | unknownStyle (v : Value)
  /-- The value of a size is no natural number. -/
  | notASize (f : Field) (v : Value)
  /-- The value of the indentation text is no text. -/
  | notAText (v : Value)
  /-- Options cannot be changed in place. -/
  | immutable (name : Text)
  deriving Inhabited, Repr

/-- The wording of an error. -/
def OptionError.message : OptionError → Text
  | unknownName name =>
    "FormatterConfig.__init__() got an unexpected keyword argument '".toList ++ name ++ "'".toList
  | unknownStyle v => unknownStyleMessage v
  | notASize f v => f.name ++ " must be a non-negative integer, got ".toList ++ v.display
  | notAText v => Field.indentText.name ++ " must be a string, got ".toList ++ v.display
  | immutable name => "cannot assign to field ".toList ++ name.display

namespace Value

/-- The case style that a value names. -/
def toCaseStyle (v : Value) : Except OptionError CaseStyle :=
  match v.caseStyle? with
  | some style => .ok style
  | none => .error (.unknownStyle v)

/-- The size that a value is. -/
def toSize (f : Field) : Value → Except OptionError Nat
  | .int (.ofNat n) => .ok n
  | v => .error (.notASize f v)

/-- The text that a value is. -/
def toText : Value → Except OptionError Text
  | .text s => .ok s
  | v => .error (.notAText v)

end Value

namespace Options

/-- The value of an option: read from the table if it is set there, else as it was. -/
def pick {α : Type} (t : Table Value) (f : Field) (old : α) (read : Value → Except OptionError α) :
    Except OptionError α :=
  match f.given t with
  | some v => read v
  | none => .ok old

/-- Options with some of them set anew. -/
def update (o : Options) (changes : Table Value) : Except OptionError Options :=
  match unknownNames changes with
  | name :: _ => .error (.unknownName name)
  | [] => do
    let reservedCase ← pick changes .reservedCase o.reservedCase Value.toCaseStyle
    let objectCase ← pick changes .objectCase o.objectCase Value.toCaseStyle
    let functionCase ← pick changes .functionCase o.functionCase Value.toCaseStyle
    let indentSize ← pick changes .indentSize o.indentSize (Value.toSize .indentSize)
    let baseIndent ← pick changes .baseIndent o.baseIndent (Value.toSize .baseIndent)
    let indentText ← pick changes .indentText o.indentText Value.toText
    pure { reservedCase, objectCase, functionCase, indentSize, baseIndent, indentText }

/-- The default options with some of them set. -/
def ofTable (t : Table Value) : Except OptionError Options := update {} t

/-- Changing an option in place, which is always refused. -/
def assign (_ : Options) (name : Text) (_ : Value) : Except OptionError Options :=
  .error (.immutable name)

end Options
end SqlTidy
