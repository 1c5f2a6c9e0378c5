import SqlTidy.Options.Basic
import SqlTidy.Value

/-!
# The names of the options

The fields of the configuration by the names that §11 of the specification gives them.

## Main definitions

* `Field` — the six options.
* `Field.name`, `Field.ofName?` — the names by which they are set.
* `unknownNames t` — the names in a table that are names of no option.
-/

namespace SqlTidy

/-- The six options. -/
inductive Field
  /-- The case of reserved words. -/
  | reservedCase
  /-- The case of the names of objects. -/
  | objectCase
  /-- The case of the names of functions. -/
  | functionCase
  /-- The indentation of one level. -/
  | indentSize
  /-- The indentation of every line. -/
  | baseIndent
  /-- The text that indentation is made of. -/
  | indentText
  deriving DecidableEq, Repr, Inhabited

namespace Field

/-- The options in the order in which they are checked. -/
def all : List Field :=
  [reservedCase, objectCase, functionCase, indentSize, baseIndent, indentText]

/-- The name by which an option is set. -/
def name : Field → Text
  | reservedCase => "reserved_word_case".toList
  | objectCase => "object_case".toList
  | functionCase => "function_case".toList
  | indentSize => "indent_size".toList
  | baseIndent => "base_indent".toList
  | indentText => "indent_char".toList

/-- The option with a given name. -/
def ofName? (s : Text) : Option Field := all.find? fun f => f.name = s

/-- The value that a table gives to an option. -/
def given (f : Field) (t : Table Value) : Option Value := t.lookup f.name

end Field

/-- The names in a table that are names of no option, in order. -/
def unknownNames (t : Table Value) : List Text :=
  (Table.keys t).filter fun k => (Field.ofName? k).isNone

/-- The complaint about a value that names no case style. -/
def unknownStyleMessage (v : Value) : Text :=
  "Unknown case style ".toList ++ v.display ++
    " (expected one of UPPERCASE, LOWERCASE, CAPITALIZE)".toList

/-- The case style that a value names. -/
def Value.caseStyle? : Value → Option CaseStyle
  | .text s => CaseStyle.ofName? s
  | _ => none

end SqlTidy
