import SqlTidy.Options.Basic
import SqlTidy.Placeholder
import SqlTidy.Text.Alphanumeric

/-!
# Recasing

Every word of a text is written in the case style of its class.  A word begins with an ASCII letter
or an underscore, goes on with ASCII letters, digits and underscores, and has no word character of
any script directly before or after it.  Placeholders are left as they are, and each gap between
them is recased by itself.  This is F003, `case-transform`: the words are those of §4.3 of the
specification, and that placeholders are immune is in §14.

## Main definitions

* `isWordStart`, `isWordPart` — the characters that begin and continue a word.
* `startsWithWordChar s` — a word cannot end right before `s`.
* `recaseWords o s` — the words of a text recased.
* `recase o s` — the words outside placeholders recased.
-/

namespace SqlTidy

/-- The characters that begin a word. -/
def isWordStart (c : Char) : Bool := c.isAlpha || c == '_'

/-- The characters that continue a word. -/
def isWordPart (c : Char) : Bool := c.isAlphanum || c == '_'

/-- Whether a text begins with a word character of any script. -/
def startsWithWordChar : Text → Bool
  | [] => false
  | c :: _ => Text.isWordChar c

/-- Recases the words of a text.  `inWord` says whether a word character stands right before it.  A
word has a boundary at both ends, and the second is looked for only behind the longest run of word
parts, since there is none inside it. -/
def recaseFrom (o : Options) (inWord : Bool) (s : Text) : Text :=
  match s with
  | [] => []
  | c :: r =>
    if !inWord && isWordStart c && !startsWithWordChar (r.dropWhile isWordPart) then
      let word := c :: r.takeWhile isWordPart
      (o.styleFor word).apply word ++ recaseFrom o true (r.dropWhile isWordPart)
    else c :: recaseFrom o (Text.isWordChar c) r
termination_by s.length
decreasing_by
  · exact Nat.lt_succ_of_le (List.dropWhile_suffix isWordPart).length_le
  · simp

/-- Recases the words of a text. -/
def recaseWords (o : Options) (s : Text) : Text := recaseFrom o false s

/-- Recases the words of a text outside its placeholders. -/
def recase (o : Options) (s : Text) : Text :=
  (Placeholder.cut s).joinWith (recaseWords o) Hit.text

end SqlTidy
