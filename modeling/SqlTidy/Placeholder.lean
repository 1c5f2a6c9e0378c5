import SqlTidy.Literal
import SqlTidy.Text.DecimalDigit

/-!
# Placeholders

While a text is being formatted, a placeholder stands for each of its literals: a word such as
`___STRING_0___` with a tag for the kind of the literal and with its number.  A placeholder is
recognised by its shape alone, with digits of any script, wherever it stands in a text.  The shape
is that of the placeholder map of §3 of the specification; F003, `case-transform`, and F006,
`literal-restoration`, look for it, and F005, `structure`, does at the end of a token.

## Main definitions

* `Placeholder.Tag` — what a placeholder says about its literal; both kinds of comment share a tag.
* `Placeholder.make tag number` — the placeholder with the given tag and number, as texts.
* `Placeholder.ofLiteral kind n` — the placeholder of literal number `n`.
* `Placeholder.read s` — the placeholder at the front of a text.
* `Placeholder.cut s` — the placeholders of a text and the gaps between them.
* `Placeholder.trailingComment? s` — the comment placeholder at the end of a text.
-/

namespace SqlTidy
namespace Placeholder

/-- What a placeholder says about its literal. -/
inductive Tag
  /-- It stands for a string. -/
  | string
  /-- It stands for a quoted identifier. -/
  | identifier
  /-- It stands for a comment of either kind. -/
  | comment
  deriving DecidableEq, Repr, Inhabited

/-- The word that a tag is written as. -/
def Tag.word : Tag → Text
  | .string => "STRING".toList
  | .identifier => "IDENTIFIER".toList
  | .comment => "COMMENT".toList

/-- Every tag. -/
def Tag.all : List Tag := [.string, .identifier, .comment]

/-- The tag of the placeholders that stand for a kind of literal. -/
def tagOf : Literal.Kind → Tag
  | .string => .string
  | .identifier => .identifier
  | .lineComment => .comment
  | .blockComment => .comment

/-- The three underscores at either end of a placeholder. -/
def fence : Text := ['_', '_', '_']

/-- A placeholder up to its number. -/
def opening (tag : Text) : Text := fence ++ tag ++ ['_']

/-- The placeholder with the given tag and number. -/
def make (tag number : Text) : Text := opening tag ++ number ++ fence

/-- The placeholder of literal number `n`, as F001 makes it. -/
def ofLiteral (kind : Literal.Kind) (n : Nat) : Text := make (tagOf kind).word (Text.ofNat n)

/-- How many digits a text begins with. -/
def digitCount (s : Text) : Nat := (s.takeWhile Text.isDecimalDigit).length

/-- The length of the placeholder with the given tag at the front of a text. -/
def readTag (tag : Tag) (s : Text) : Option Nat :=
  match Text.after? (opening tag.word) s with
  | none => none
  | some r =>
    if 0 < digitCount r ∧ fence.isPrefixOf (r.drop (digitCount r)) then
      some ((opening tag.word).length + digitCount r + fence.length)
    else none

/-- The tag and the length of the placeholder at the front of a text. -/
def read (s : Text) : Option (Tag × Nat) :=
  Tag.all.findSome? fun tag => (readTag tag s).map fun n => (tag, n)

theorem pos_of_readTag {tag : Tag} {s : Text} {n : Nat} (h : readTag tag s = some n) : 0 < n := by
  unfold readTag at h
  split at h
  · simp at h
  · split at h
    · simp only [fence, List.length_cons, Option.some.injEq] at h
      omega
    · simp at h

/-- A placeholder has at least one character. -/
theorem pos_of_read {s : Text} {tag : Tag} {n : Nat} (h : read s = some (tag, n)) : 0 < n := by
  obtain ⟨tag, -, h⟩ := List.exists_of_findSome?_eq_some h
  obtain ⟨m, h, heq⟩ := Option.map_eq_some_iff.1 h
  have := pos_of_readTag h
  simp only [Prod.mk.injEq] at heq
  omega

/-- Recognises a placeholder at the front of a text. -/
def recogniser : Recogniser Tag := ⟨read, pos_of_read⟩

/-- The placeholders of a text and the gaps between them. -/
def cut (s : Text) : Cut Tag := recogniser.cut s

/-- Whether the whole text is one placeholder. -/
def isWhole (s : Text) : Bool :=
  match read s with
  | some (_, n) => n == s.length
  | none => false

/-- The comment placeholder that makes up a text, but for a line feed after it. -/
def wholeComment? (s : Text) : Option Text :=
  match readTag .comment s with
  | some n => if s.drop n = [] ∨ s.drop n = ['\n'] then some (s.take n) else none
  | none => none

/-- The comment placeholder at the end of a text, before its last line feed if it ends in one.  By
it F005 knows that a token may end in a line comment (§14). -/
def trailingComment? : Text → Option Text
  | [] => none
  | c :: r => (wholeComment? (c :: r)).or (trailingComment? r)

end Placeholder
end SqlTidy
