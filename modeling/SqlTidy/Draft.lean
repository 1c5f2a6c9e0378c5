import SqlTidy.Layout.Basic
import SqlTidy.Placeholder
import SqlTidy.Recase
import SqlTidy.Table
import SqlTidy.Token

/-!
# Drafts

A draft is a text on its way through the formatter, with the literals that were set aside and the
tokens that were found.  Its six operations are the stages of formatting (§2 of the specification),
one for each of the rules F001 to F006.

## Main definitions

* `Draft` — the text, its literals, the placeholders of its line comments, and its tokens.
* `Draft.preserve`, `Draft.restore` — literals give way to placeholders, and come back.
* `Draft.collapse` — runs of blanks become single spaces.
* `Draft.recase` — words are written in their case style.
* `Draft.tokenize`, `Draft.layout` — the text is split into tokens and laid out in lines.
-/

namespace SqlTidy

/-- A text on its way through the formatter: the state that the rules of one call share. -/
structure Draft where
  /-- The text as it stands. -/
  text : Text
  /-- The literals set aside, by their placeholders: the placeholder map of §3. -/
  literals : Table Text := []
  /-- The placeholders of line comments. -/
  lineComments : List Text := []
  /-- The tokens found last. -/
  tokens : List Token := []
  deriving DecidableEq, Repr, Inhabited

namespace Cut

/-- The hits of a cut with numbers from `n` on. -/
def numbered {α : Type} (n : Nat) (k : Cut α) : Cut (α × Nat) :=
  { pieces := (k.pieces.zipIdx n).map fun (piece, i) =>
      (piece.1, ⟨(piece.2.tag, i), piece.2.text⟩)
    rest := k.rest }

end Cut

namespace Draft

/-- The placeholder of a numbered literal. -/
def placeholder (hit : Hit (Literal.Kind × Nat)) : Text :=
  Placeholder.ofLiteral hit.tag.1 hit.tag.2

/-- The literals of the text, numbered on from those already set aside. -/
def found (d : Draft) : Cut (Literal.Kind × Nat) :=
  (Literal.cut d.text).numbered d.literals.length

/-- F001, `literal-preservation` (§4.1): sets the literals of the text aside and puts their
placeholders in their place. -/
def preserve (d : Draft) : Draft :=
  { d with
    text := d.found.joinWith id placeholder
    literals := d.found.hits.foldl
      (fun t hit => Table.insert (placeholder hit) hit.text t)
      d.literals
    lineComments := d.found.hits.foldl
      (fun l hit => if hit.tag.1 = .lineComment then l.insert (placeholder hit) else l)
      d.lineComments }

/-- F002, `whitespace-collapse`: makes every run of blanks one space and trims both ends. -/
def collapse (d : Draft) : Draft := { d with text := Text.trim (Text.squeeze d.text) }

/-- F003, `case-transform` (§4.3): writes the words outside placeholders in their case style. -/
def recase (o : Options) (d : Draft) : Draft := { d with text := SqlTidy.recase o d.text }

/-- F004, `tokenize` (§4.2): splits the text into tokens. -/
def tokenize (d : Draft) : Draft := { d with tokens := SqlTidy.tokenize d.text }

/-- Splits the text into tokens if that has not been done, as F005 does when F004 was not run. -/
def ensureTokens (d : Draft) : Draft :=
  if d.tokens = [] ∧ d.text ≠ [] then d.tokenize else d

/-- F005, `structure` (§4.4): lays the tokens out in lines. -/
def layout (o : Options) (d : Draft) : Except Fault Draft := do
  let text ← Layout.layout o d.lineComments d.tokens
  pure { d with text }

/-- F006, `literal-restoration`: puts the literals back in the place of their placeholders.  A
placeholder that stands for no literal stays, and what is put back is not searched again.  The text
may get longer than can be counted; `TextsFit` excludes that. -/
def restore (d : Draft) : Draft :=
  if d.literals = [] then d
  else
    { d with
      text := (Placeholder.cut d.text).joinWith id fun hit =>
        (d.literals.lookup hit.text).getD hit.text }

end Draft
end SqlTidy
