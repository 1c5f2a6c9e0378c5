import SqlTidy.CaseStyle
import SqlTidy.Fault
import SqlTidy.Vocabulary

/-!
# Options

How a text is to be formatted: the case of three classes of words, and the indentation.  These are
the options of §3 of the specification with the defaults of §6.

## Main definitions

* `Options` — the six options with their defaults.
* `Options.styleFor o word` — the case style of a word.
* `Options.indentWidth o level` — how many copies of the indentation text a level takes.
* `Options.indent o level` — the indentation of a level.
* `Options.Fits o level` — the indentation of a level is not too large.
-/

namespace SqlTidy

/-- How a text is to be formatted.  Sizes are natural numbers and styles are known, so that options
that §11 would refuse cannot be built. -/
structure Options where
  /-- The case of reserved words. -/
  reservedCase : CaseStyle := .uppercase
  /-- The case of the names of objects. -/
  objectCase : CaseStyle := .lowercase
  /-- The case of the names of functions. -/
  functionCase : CaseStyle := .lowercase
  /-- How many copies of the indentation text one level takes. -/
  indentSize : Nat := 4
  /-- How many copies every indentation has whatever its level is. -/
  baseIndent : Nat := 0
  /-- The text that indentation is made of. -/
  indentText : Text := [' ']
  deriving DecidableEq, Repr, Inhabited

namespace Options

/-- The case style of a class of words. -/
def styleOf (o : Options) : WordClass → CaseStyle
  | .reserved => o.reservedCase
  | .function => o.functionCase
  | .object => o.objectCase

/-- The case style of a word: that of its class (§4.3). -/
def styleFor (o : Options) (word : Text) : CaseStyle := o.styleOf (classify word)

/-- How many copies of the indentation text stand at nesting level `level`. -/
def indentWidth (o : Options) (level : Nat) : Nat := o.baseIndent + level * o.indentSize

/-- The first number that is too large to count the copies or the characters of a text with. -/
def indentLimit : Nat := Nat.pow 2 63

/-- The indentation at nesting level `level` (§4.5).  Too many copies are a fault even if the text
that they repeat is empty. -/
def indent (o : Options) (level : Nat) : Except Fault Text :=
  if indentLimit ≤ o.indentWidth level then .error .indentTooWide
  else if indentLimit ≤ o.indentWidth level * o.indentText.length then .error .indentTooLong
  else .ok (Text.times (o.indentWidth level) o.indentText)

/-- The indentation at a level given as an integer; below level zero it is that of level zero. -/
def indentInt (o : Options) (level : Int) : Except Fault Text := o.indent level.toNat

/-- Both the copies and the characters of the indentation at a level can be counted. -/
def Fits (o : Options) (level : Nat) : Prop :=
  o.indentWidth level * max 1 o.indentText.length < indentLimit

instance (o : Options) (level : Nat) : Decidable (o.Fits level) :=
  inferInstanceAs (Decidable (_ < _))

theorem fits_iff {o : Options} {level : Nat} :
    o.Fits level ↔ o.indentWidth level < indentLimit ∧
      o.indentWidth level * o.indentText.length < indentLimit := by
  rw [Fits, ← Nat.mul_max_mul_left, Nat.mul_one, Nat.max_lt]

/-- The indentation of a level that fits. -/
theorem indent_of_fits {o : Options} {level : Nat} (h : o.Fits level) :
    o.indent level = .ok (Text.times (o.indentWidth level) o.indentText) := by
  obtain ⟨hwidth, hlength⟩ := fits_iff.1 h
  rw [indent, if_neg (Nat.not_le.2 hwidth), if_neg (Nat.not_le.2 hlength)]

/-- A level that does not fit has no indentation. -/
theorem exists_indent_of_not_fits {o : Options} {level : Nat} (h : ¬o.Fits level) :
    ∃ e, o.indent level = .error e := by
  unfold indent
  split
  · exact ⟨_, rfl⟩
  · next hwidth =>
    split
    · exact ⟨_, rfl⟩
    · next hlength => exact absurd (fits_iff.2 ⟨Nat.not_le.1 hwidth, Nat.not_le.1 hlength⟩) h

end Options
end SqlTidy
