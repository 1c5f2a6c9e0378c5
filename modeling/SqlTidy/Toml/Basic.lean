import SqlTidy.Text.Display
import SqlTidy.Value

/-!
# Reading TOML: space, comments and errors

A reader takes a text and gives what it has read together with the rest of the text, or an error.
TOML is the format of the configuration files of §11 of the specification.

## Main definitions

* `Toml.Error` — why a text is not TOML, or cannot be taken in.
* `Toml.Reader α` — reads an `α` at the front of a text.
* `Toml.skipSpace`, `Toml.skipComment`, `Toml.skipFiller` — what stands between other things.
-/

namespace SqlTidy
namespace Toml

/-- Why a text is not TOML, or cannot be taken in. -/
inductive Error
  /-- Something else should stand here. -/
  | unexpected
  /-- A text or a comment holds a control character. -/
  | controlCharacter (c : Char)
  /-- A text is not closed. -/
  | unclosedText
  /-- A backslash stands before something that it does not escape. -/
  | badEscape
  /-- There is no such day. -/
  | noSuchDay
  /-- A decimal integer has more digits than are converted. -/
  | tooManyDigits
  /-- A key is defined twice, or reaches into something that is no table or is closed. -/
  | redefined (key : List Text)
  deriving DecidableEq, Repr, Inhabited

/-- Reads an `α` at the front of a text, and gives it with the rest of the text. -/
abbrev Reader (α : Type) := Text → Except Error (α × Text)

/-- The characters that space within a line is made of. -/
def isSpace (c : Char) : Bool := c == ' ' || c == '\t'

/-- Space within a line, or a line feed. -/
def isSpaceOrLine (c : Char) : Bool := isSpace c || c == '\n'

/-- The control characters other than the tab, which cannot be written as such. -/
def isControl (c : Char) : Bool := (c.toNat < 32 && c != '\t') || c.toNat == 127

/-- What follows space within a line. -/
def skipSpace (s : Text) : Text := s.dropWhile isSpace

/-- What follows a comment up to the end of its line, if one stands here. -/
def skipComment : Text → Except Error Text
  | [] => .ok []
  | c :: r =>
    if c = '#' then
      match (r.takeWhile (· != '\n')).find? isControl with
      | some bad => .error (.controlCharacter bad)
      | none => .ok (r.dropWhile (· != '\n'))
    else .ok (c :: r)

/-- What follows space, line feeds and comments.  `inComment` says whether a comment is open. -/
def skipFillerFrom (inComment : Bool) : Text → Except Error Text
  | [] => .ok []
  | c :: r =>
    if inComment then
      if c = '\n' then skipFillerFrom false r
      else if isControl c then .error (.controlCharacter c)
      else skipFillerFrom true r
    else if isSpaceOrLine c then skipFillerFrom false r
    else if c = '#' then skipFillerFrom true r
    else .ok (c :: r)

/-- What follows space, line feeds and comments. -/
def skipFiller (s : Text) : Except Error Text := skipFillerFrom false s

/-- Reads a given text. -/
def expect (front : Text) (s : Text) : Except Error Text :=
  match Text.after? front s with
  | some rest => .ok rest
  | none => .error .unexpected

end Toml
end SqlTidy
