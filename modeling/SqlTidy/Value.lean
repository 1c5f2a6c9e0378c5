import SqlTidy.Binary64.Display
import SqlTidy.Table
import SqlTidy.Text.Display

/-!
# Values

What an option can be set to before it is checked: any value that a configuration file or a caller
may give.

## Main definitions

* `Moment` — the kinds of date and time.
* `Value` — null, truth values, numbers, texts, moments, lists and tables.
* `Value.display v` — how a value is shown in a message.
-/

namespace SqlTidy

/-- The kinds of date and time. -/
inductive Moment
  /-- A day. -/
  | date
  /-- A time of day. -/
  | time
  /-- A day with a time of day. -/
  | dateTime
  deriving DecidableEq, Repr, Inhabited

/-- A value before it is checked. -/
inductive Value
  /-- No value. -/
  | null
  /-- A truth value. -/
  | bool (b : Bool)
  /-- An integer. -/
  | int (i : Int)
  /-- A floating-point number. -/
  | float (x : Binary64)
  /-- A text. -/
  | text (s : Text)
  /-- A date or time, as it is written. -/
  | moment (kind : Moment) (written : Text)
  /-- A list of values. -/
  | list (vs : List Value)
  /-- Values by name. -/
  | table (fields : List (Text × Value))
  deriving Inhabited, Repr

namespace Value

mutual

/-- How a value is shown in a message. -/
def display : Value → Text
  | null => "None".toList
  | bool true => "True".toList
  | bool false => "False".toList
  | int i => Text.ofInt i
  | float x => x.display
  | text s => s.display
  | moment _ written => written
  | list vs => '[' :: displayList vs ++ [']']
  | table fields => '\x7b' :: displayFields fields ++ ['\x7d']

/-- Values with commas between them. -/
def displayList : List Value → Text
  | [] => []
  | [v] => v.display
  | v :: vs => v.display ++ ", ".toList ++ displayList vs

/-- Named values with commas between them. -/
def displayFields : List (Text × Value) → Text
  | [] => []
  | [(k, v)] => k.display ++ ": ".toList ++ v.display
  | (k, v) :: fields => k.display ++ ": ".toList ++ v.display ++ ", ".toList ++ displayFields fields

end

end Value
end SqlTidy
