import SqlTidy.Text.Lower
import SqlTidy.Text.Upper

/-!
# Case styles

How the letters of a word are written: all in upper case, all in lower case, or with a capital first
letter and the others small.  These are the case styles of §3 of the specification, and §4.3 says
what they do.

## Main definitions

* `CaseStyle` — the three styles.
* `CaseStyle.apply style word` — `word` in a style.
* `CaseStyle.name`, `CaseStyle.ofName?` — the names of the styles, read in any case.
-/

namespace SqlTidy

/-- How the letters of a word are written. -/
inductive CaseStyle
  /-- All letters in upper case. -/
  | uppercase
  /-- All letters in lower case. -/
  | lowercase
  /-- The first letter in upper case, the others in lower case. -/
  | capitalize
  deriving DecidableEq, Repr, Inhabited

namespace CaseStyle

/-- A word in a style. -/
def apply : CaseStyle → Text → Text
  | uppercase, w => Text.upper w
  | lowercase, w => Text.lower w
  | capitalize, w => Text.upper (w.take 1) ++ Text.lower (w.drop 1)

/-- The styles in the order in which they are listed. -/
def all : List CaseStyle := [uppercase, lowercase, capitalize]

/-- The name of a style. -/
def name : CaseStyle → Text
  | uppercase => "UPPERCASE".toList
  | lowercase => "LOWERCASE".toList
  | capitalize => "CAPITALIZE".toList

/-- The style with a given name, in whatever case the name is written. -/
def ofName? (s : Text) : Option CaseStyle := all.find? fun style => style.name = Text.upper s

end CaseStyle
end SqlTidy
