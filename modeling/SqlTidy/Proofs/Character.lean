import Mathlib
import SqlTidy.Recase
import SqlTidy.Token

/-!
# Classes of characters

What the classes of characters have to do with each other and with the case of ASCII letters: no
class tells a capital letter from a small one, and the characters that stop a word are twelve.

## Main definitions

* `stops` — the characters that cannot stand in a word.

## Main results

* `isPlain_eq_false_iff` — a character stands in a word unless it is one of the `stops`.
* `eq_of_toLower_eq` — a class that a capital letter shares with its small form does not depend on
  case.
-/

namespace SqlTidy

/-- The characters that cannot stand in a word: blanks, quotes and punctuation marks. -/
def stops : List Char :=
  [' ', '\t', '\n', '\r', '\x0c', '\x0b', '\x27', '\x22', '(', ')', ',', ';']

/-- A character stands in a word unless it is one of the stops.  So a property of all stops can be
checked one by one. -/
theorem isPlain_eq_false_iff {c : Char} : isPlain c = false ↔ c ∈ stops := by
  simp only [isPlain, Text.isBlank, Text.isQuote, isPunctuation, stops, Text.singleQuote,
    Text.doubleQuote, Bool.and_eq_false_iff, Bool.not_eq_false', Bool.or_eq_true, beq_iff_eq,
    List.mem_cons, List.not_mem_nil, or_false, or_assoc]

/-- Characters of a class without stops stand in words. -/
theorem isPlain_of_class {p : Char → Bool} (hp : stops.all (fun d => !p d) = true) {c : Char}
    (hc : p c = true) : isPlain c = true := by
  by_contra h
  -- a stop of the class would be one of the twelve that have been checked
  rw [Bool.not_eq_true, isPlain_eq_false_iff] at h
  have := List.all_eq_true.1 hp c h
  simp [hc] at this

/-- What can stand in a word is no blank. -/
theorem isBlank_of_isPlain {c : Char} (h : isPlain c = true) : Text.isBlank c = false := by
  simp only [isPlain, Bool.and_eq_true, Bool.not_eq_true'] at h
  exact h.1.1

theorem isQuote_of_isPlain {c : Char} (h : isPlain c = true) : Text.isQuote c = false := by
  simp only [isPlain, Bool.and_eq_true, Bool.not_eq_true'] at h
  exact h.1.2

theorem isPunctuation_of_isPlain {c : Char} (h : isPlain c = true) : isPunctuation c = false := by
  simp only [isPlain, Bool.and_eq_true, Bool.not_eq_true'] at h
  exact h.2

/-- Blanks, punctuation marks and quotes stop a word. -/
theorem isPlain_of_isBlank {c : Char} (h : Text.isBlank c = true) : isPlain c = false := by
  simp [isPlain, h]

theorem isPlain_of_isPunctuation {c : Char} (h : isPunctuation c = true) : isPlain c = false := by
  simp [isPlain, h]

theorem isPlain_of_isQuote {c : Char} (h : Text.isQuote c = true) : isPlain c = false := by
  simp [isPlain, h]

/-- A punctuation mark is no quote. -/
theorem isQuote_of_isPunctuation {c : Char} (h : isPunctuation c = true) :
    Text.isQuote c = false := by
  simp only [isPunctuation, Bool.or_eq_true, beq_iff_eq] at h
  obtain ((rfl | rfl) | rfl) | rfl := h <;> rfl

/-- A punctuation mark is no blank. -/
theorem isBlank_of_isPunctuation {c : Char} (h : isPunctuation c = true) :
    Text.isBlank c = false := by
  simp only [isPunctuation, Bool.or_eq_true, beq_iff_eq] at h
  obtain ((rfl | rfl) | rfl) | rfl := h <;> rfl

/-- A blank is no quote. -/
theorem isQuote_of_isBlank {c : Char} (h : Text.isBlank c = true) : Text.isQuote c = false := by
  simp only [Text.isBlank, Bool.or_eq_true, beq_iff_eq] at h
  obtain ((((rfl | rfl) | rfl) | rfl) | rfl) | rfl := h <;> rfl

/-- A quote is no blank. -/
theorem isBlank_of_isQuote {c : Char} (h : Text.isQuote c = true) : Text.isBlank c = false := by
  by_contra hblank
  have := isQuote_of_isBlank (Bool.not_eq_false _ ▸ hblank)
  simp [h] at this

/-- The backslash is neither a blank nor a quote, so that nothing which is skipped escapes what
follows. -/
theorem ne_backslash_of_isBlank {c : Char} (h : Text.isBlank c = true) : c ≠ '\\' := by
  rintro rfl
  simp [Text.isBlank] at h

theorem ne_backslash_of_isQuote {c : Char} (h : Text.isQuote c = true) : c ≠ '\\' := by
  rintro rfl
  simp [Text.isQuote, Text.singleQuote, Text.doubleQuote] at h

/-- No letter stops a word. -/
theorem isAlpha_of_isPlain {c : Char} (h : isPlain c = false) : c.isAlpha = false := by
  by_contra hc
  have := isPlain_of_class (p := Char.isAlpha) (by decide) (Bool.not_eq_false _ ▸ hc)
  simp [h] at this

/-- Digits of every script stand in words. -/
theorem isPlain_of_isDecimalDigit {c : Char} (h : Text.isDecimalDigit c = true) :
    isPlain c = true :=
  isPlain_of_class (p := Text.isDecimalDigit) (by decide) h

/-- No stop is part of a word of any script. -/
theorem isWordChar_of_mem_stops {c : Char} (h : c ∈ stops) : Text.isWordChar c = false := by
  have hall : stops.all (fun d => !Text.isWordChar d) = true := by decide
  simpa using List.all_eq_true.1 hall c h

/-- The characters of a word are ASCII. -/
theorem toNat_lt_of_isWordPart {c : Char} (h : isWordPart c = true) : c.toNat < 128 := by
  -- the three ranges of letters and digits end before 128, and so does the underscore
  simp only [isWordPart, Char.isAlphanum, Char.isAlpha, Char.isUpper, Char.isLower, Char.isDigit,
    Bool.or_eq_true, Bool.and_eq_true, decide_eq_true_eq, ge_iff_le, UInt32.le_iff_toNat_le,
    beq_iff_eq] at h
  rcases h with h | rfl
  · have : c.toNat = c.val.toNat := rfl
    simp at h
    omega
  · decide

/-- A word goes on with word characters only. -/
theorem isWordChar_of_isWordPart {c : Char} (h : isWordPart c = true) :
    Text.isWordChar c = true := by
  have hlt := toNat_lt_of_isWordPart h
  simp only [isWordPart, Bool.or_eq_true, beq_iff_eq] at h
  rcases h with h | rfl
  · simp [Text.isWordChar, Text.isAlphanumeric, hlt, h]
  · rfl

/-- What is no word character of any script does not go on with a word. -/
theorem isWordPart_of_isWordChar {c : Char} (h : Text.isWordChar c = false) :
    isWordPart c = false := by
  by_contra hpart
  have := isWordChar_of_isWordPart (Bool.not_eq_false _ ▸ hpart)
  simp [h] at this

/-- What begins a word can also continue one. -/
theorem isWordPart_of_isWordStart {c : Char} (h : isWordStart c = true) : isWordPart c = true := by
  simp only [isWordStart, Bool.or_eq_true, isWordPart, Char.isAlphanum] at h ⊢
  rcases h with h | h
  · exact .inl (.inl h)
  · exact .inr h

/-- No word begins with a character that is no word character. -/
theorem isWordStart_of_isWordChar {c : Char} (h : Text.isWordChar c = false) :
    isWordStart c = false := by
  by_contra hstart
  have := isWordPart_of_isWordStart (Bool.not_eq_false _ ▸ hstart)
  simp [isWordPart_of_isWordChar h] at this

/-- No stop goes on with a word. -/
theorem isWordPart_of_mem_stops {c : Char} (h : c ∈ stops) : isWordPart c = false :=
  isWordPart_of_isWordChar (isWordChar_of_mem_stops h)

/-- The characters that continue a word are the ASCII word characters. -/
theorem isWordPart_iff {c : Char} :
    isWordPart c = true ↔ Text.isWordChar c = true ∧ c.toNat < 128 := by
  constructor
  · intro h
    exact ⟨isWordChar_of_isWordPart h, toNat_lt_of_isWordPart h⟩
  · rintro ⟨h, hlt⟩
    -- below 128, the two classes are defined by the same test
    rw [Text.isWordChar, Text.isAlphanumeric, if_pos hlt, Bool.or_comm] at h
    exact h

/-- No letter is a digit. -/
theorem isDigit_of_isAlpha {c : Char} (h : c.isAlpha = true) : c.isDigit = false := by
  by_contra hdigit
  simp only [Char.isAlpha, Char.isUpper, Char.isLower, Char.isDigit, Bool.or_eq_true,
    Bool.and_eq_true, Bool.not_eq_false, decide_eq_true_eq, ge_iff_le, UInt32.le_iff_toNat_le]
    at h hdigit
  simp at h hdigit
  omega

/-- The characters that begin a word are those that continue one, without the digits. -/
theorem isWordStart_iff {c : Char} :
    isWordStart c = true ↔ isWordPart c = true ∧ c.isDigit = false := by
  constructor
  · intro h
    refine ⟨isWordPart_of_isWordStart h, ?_⟩
    simp only [isWordStart, Bool.or_eq_true, beq_iff_eq] at h
    rcases h with h | rfl
    · exact isDigit_of_isAlpha h
    · rfl
  · rintro ⟨hpart, hdigit⟩
    simpa [isWordStart, isWordPart, Char.isAlphanum, hdigit] using hpart

/-! ### The case of ASCII letters -/

/-- What does not tell a capital letter from its small form does not depend on case.  Small letters
and everything that is no letter are their own small forms, so there are 26 characters to check. -/
theorem toLower_class {β : Type} {p : Char → β}
    (hp : ∀ n ∈ List.range' 65 26, p (Char.ofNat n).toLower = p (Char.ofNat n)) (c : Char) :
    p c.toLower = p c := by
  by_cases hc : c.isUpper
  · have hn : c.toNat ∈ List.range' 65 26 := by
      simp only [Char.isUpper, ge_iff_le, decide_eq_true_eq, UInt32.le_iff_toNat_le] at hc
      rw [List.mem_range'_1]
      exact ⟨hc.1, by have := hc.2; simp at this; exact Nat.lt_succ_of_le this⟩
    have := hp _ hn
    rwa [Char.ofNat_toNat] at this
  · rw [Char.toLower_eq_of_not_isUpper hc]

/-- Characters with the same small form belong to the same classes, as far as a class does not
depend on case. -/
theorem eq_of_toLower_eq {β : Type} {p : Char → β}
    (hp : ∀ n ∈ List.range' 65 26, p (Char.ofNat n).toLower = p (Char.ofNat n)) {c d : Char}
    (h : c.toLower = d.toLower) : p c = p d := by
  rw [← toLower_class hp c, h, toLower_class hp d]

/-- A character that is no letter is known by its small form. -/
theorem eq_char_iff_of_toLower_eq {e : Char} (he : e.isAlpha = false) {c d : Char}
    (h : c.toLower = d.toLower) : c = e ↔ d = e := by
  have key : ∀ {c d : Char}, c.toLower = d.toLower → c = e → d = e := by
    rintro c d h rfl
    -- neither of the two is a letter, and each is its own small form
    have hd : d.isAlpha = false := by
      rw [← Char.isAlpha_toLower_eq_isAlpha, ← h, Char.isAlpha_toLower_eq_isAlpha, he]
    simp only [Char.isAlpha, Bool.or_eq_false_iff] at he hd
    rwa [Char.toLower_eq_of_not_isUpper (by simp [he]),
      Char.toLower_eq_of_not_isUpper (by simp [hd]), eq_comm] at h
  exact ⟨key h, key h.symm⟩

end SqlTidy
