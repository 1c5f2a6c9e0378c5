import SqlTidy.Text.Basic

/-!
# Blanks

The six characters that separate words: space, tab, line feed, carriage return, form feed and
vertical tab.  Every other space of Unicode, the no-break space among them, is part of a word.  The
rules F002, `whitespace-collapse`, and F004, `tokenize`, have these blanks in common.

## Main definitions

* `isBlank c` — `c` is one of the six.
* `trimStart`, `trimEnd`, `trim` — a text without the blanks at its ends.
* `squeeze` — every run of blanks becomes one space.
* `isAllBlank` — nothing but blanks.
-/

namespace SqlTidy
namespace Text

/-- The six blank characters. -/
def isBlank (c : Char) : Bool :=
  c == ' ' || c == '\t' || c == '\n' || c == '\r' || c == '\x0c' || c == '\x0b'

/-- A text without the blanks at its beginning. -/
def trimStart (s : Text) : Text := s.dropWhile isBlank

/-- A text without the blanks at its end. -/
def trimEnd (s : Text) : Text := (s.reverse.dropWhile isBlank).reverse

/-- A text without the blanks at both ends. -/
def trim (s : Text) : Text := trimEnd (trimStart s)

/-- Whether a text holds nothing but blanks; the empty one does.  This is the degenerate input that
is passed through unchanged (§6). -/
def isAllBlank (s : Text) : Bool := s.all isBlank

/-- Every run of blanks becomes one space.  `inRun` says whether the text begins inside a run whose
space has been written. -/
def squeezeFrom (inRun : Bool) : Text → Text
  | [] => []
  | c :: r =>
    if isBlank c then
      if inRun then squeezeFrom true r else ' ' :: squeezeFrom true r
    else c :: squeezeFrom false r

/-- Every run of blanks becomes one space: the substitution of F002, before the ends are trimmed. -/
def squeeze (s : Text) : Text := squeezeFrom false s

@[simp] theorem trimEnd_nil : trimEnd [] = [] := rfl

@[simp] theorem squeezeFrom_nil (inRun : Bool) : squeezeFrom inRun [] = [] := rfl

end Text
end SqlTidy
