import SqlTidy.Text.Blank

/-!
# Pages

A page collects the lines of a laid-out text.  The line being written starts with its indentation;
until something is written on it, it does not count, and starting another line drops it.  It is what
F005, `structure`, writes on: §4.4 of the specification asks whether it is at the start of a line,
and §14 has blanks at the ends of its lines removed.

Lines of any length can be written and joined.  When all of them can be counted is a condition of
its own, `TextsFit`.

## Main definitions

* `Page` — the finished lines and the line being written.
* `Page.startLine indent` — finishes the line being written and starts another.
* `Page.write s` — adds to the line being written.
* `Page.endsWith s` — whether something was written and the line ends with `s`.
* `Page.render` — the text of a page.
-/

namespace SqlTidy

/-- The lines of a text being laid out. -/
structure Page where
  /-- The finished lines, without blanks at their ends. -/
  lines : List Text := []
  /-- The line being written, its indentation included. -/
  current : Text := []
  /-- Whether something was written on that line after its indentation. -/
  hasContent : Bool := false
  deriving DecidableEq, Repr, Inhabited

namespace Page

/-- Starts a line with the given indentation, and finishes the line before it unless nothing was
written there. -/
def startLine (indent : Text) (p : Page) : Page :=
  { lines := if p.hasContent then p.lines ++ [Text.trimEnd p.current] else p.lines
    current := indent
    hasContent := false }

/-- Adds to the line being written, however long it gets. -/
def write (s : Text) (p : Page) : Page :=
  { p with current := p.current ++ s, hasContent := true }

/-- Whether nothing was written on the line yet: the flag `atLineStart` of §4.4. -/
def atLineStart (p : Page) : Bool := !p.hasContent

/-- Whether something was written on the line and it ends with `s`. -/
def endsWith (s : Text) (p : Page) : Bool := p.hasContent && s.isSuffixOf p.current

/-- The lines that count: the finished ones, and the one being written if it has content. -/
def allLines (p : Page) : List Text := if p.hasContent then p.lines ++ [p.current] else p.lines

/-- The text of a page, without blanks at its end, however long it is. -/
def render (p : Page) : Text := Text.trimEnd (Text.joinLines p.allLines)

@[simp] theorem hasContent_write (s : Text) (p : Page) : (p.write s).hasContent = true := rfl

@[simp] theorem current_write (s : Text) (p : Page) : (p.write s).current = p.current ++ s := rfl

@[simp] theorem lines_write (s : Text) (p : Page) : (p.write s).lines = p.lines := rfl

@[simp] theorem hasContent_startLine (s : Text) (p : Page) :
    (p.startLine s).hasContent = false := rfl

@[simp] theorem current_startLine (s : Text) (p : Page) : (p.startLine s).current = s := rfl

end Page
end SqlTidy
