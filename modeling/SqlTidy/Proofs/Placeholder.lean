import SqlTidy.Draft
import SqlTidy.Proofs.Character
import SqlTidy.Proofs.Marked

/-!
# Reading placeholders

A placeholder is three underscores, a tag, an underscore, digits and three underscores.  What the
recogniser reads at the front of a text is exactly such a word, and where a placeholder was written
it is read back.

## Main definitions

* `Placeholder.IsNumber d` — `d` can stand for the number of a placeholder.
* `Marked.Unfenced m` — no three underscores stand in a row between the hits of `m`.

## Main results

* `Placeholder.read_eq_some_iff` — what is read at the front of a text.
* `Placeholder.ofLiteral_inj` — two literals with the same placeholder have the same number.
* `Placeholder.trailingComment?_append` — the comment placeholder that a text ends in is found.
* `Marked.cut_spell_placeholder` — between gaps without three underscores in a row, the placeholders
  of a text are those that were put there.
-/

namespace SqlTidy

namespace Text

@[simp] theorem after?_append (front rest : Text) : after? front (front ++ rest) = some rest := by
  induction front with
  | nil => simp
  | cons c front ih => simpa [after?] using ih

end Text

namespace Placeholder

/-- Digits of any script, at least one. -/
def IsNumber (d : Text) : Prop := d ≠ [] ∧ ∀ c ∈ d, Text.isDecimalDigit c = true

/-- The number of a literal is written in digits, which are the ten of ASCII. -/
theorem isNumber_ofNat (n : Nat) : IsNumber (Text.ofNat n) := by
  refine ⟨Nat.toDigits_ne_nil, fun c hc => ?_⟩
  have hdigit := Nat.isDigit_of_mem_toDigits (by decide) (by decide) hc
  have hlt : c.toNat < 128 := by
    simp only [Char.isDigit, ge_iff_le, Bool.and_eq_true, decide_eq_true_eq,
      UInt32.le_iff_toNat_le] at hdigit
    have : c.toNat = c.val.toNat := rfl
    have : '9'.val.toNat = 57 := rfl
    omega
  simp [Text.isDecimalDigit, hlt, hdigit]

theorem isDecimalDigit_underscore : Text.isDecimalDigit '_' = false := by decide

/-- The first letter of a tag tells it from the others. -/
def Tag.initial : Tag → Char
  | .string => 'S'
  | .identifier => 'I'
  | .comment => 'C'

theorem Tag.word_eq (tag : Tag) : tag.word = tag.initial :: tag.word.tail := by
  cases tag <;> rfl

theorem Tag.initial_inj {tag tag' : Tag} (h : tag.initial = tag'.initial) : tag = tag' := by
  cases tag <;> cases tag' <;> first | rfl | exact absurd h (by decide)

/-- A placeholder written out.  It begins with three underscores and the tag, and ends with the
number between an underscore and three more. -/
theorem make_eq (tag : Tag) (d : Text) :
    make tag.word d = '_' :: '_' :: '_' :: (tag.word ++ '_' :: (d ++ ['_', '_', '_'])) := by
  simp [make, opening, fence]

/-- Digits stop before an underscore. -/
theorem takeWhile_number {d : Text} (hd : IsNumber d) (r : Text) :
    (d ++ fence ++ r).takeWhile Text.isDecimalDigit = d := by
  rw [List.append_assoc, List.takeWhile_append_of_pos hd.2]
  simp [fence, isDecimalDigit_underscore]

/-- A placeholder of a tag is recognised by the reader for that tag, and taken as a whole. -/
theorem readTag_make (tag : Tag) {d : Text} (hd : IsNumber d) (r : Text) :
    readTag tag (make tag.word d ++ r) = some (make tag.word d).length := by
  have hcount : digitCount (d ++ fence ++ r) = d.length := by
    rw [digitCount, takeWhile_number hd]
  have hpos : 0 < d.length := List.length_pos_iff.2 hd.1
  have hfence : fence.isPrefixOf ((d ++ fence ++ r).drop d.length) := by
    rw [List.append_assoc, List.drop_left]
    simp
  have hafter : Text.after? (opening tag.word) (make tag.word d ++ r) = some (d ++ fence ++ r) := by
    rw [make, List.append_assoc, List.append_assoc, Text.after?_append, List.append_assoc]
  unfold readTag
  simp only [hafter, hcount, hpos, hfence, and_self, if_true]
  simp [make]
  omega

/-- What the reader for a tag takes is a placeholder with that tag, with any number and in front of
any text, and it takes nothing else. -/
theorem readTag_eq_some_iff {tag : Tag} {s : Text} {n : Nat} :
    readTag tag s = some n ↔
      ∃ d r, IsNumber d ∧ s = make tag.word d ++ r ∧ n = (make tag.word d).length := by
  constructor
  · intro h
    unfold readTag at h
    split at h
    · cases h
    · next r hr =>
      split at h
      · next hcond =>
        obtain ⟨hpos, hfence⟩ := hcond
        -- the digits are what `takeWhile` takes, and the fence is what `dropWhile` leaves
        have hdrop : r.drop (digitCount r) = r.dropWhile Text.isDecimalDigit := by
          have hsplit := List.takeWhile_append_dropWhile (p := Text.isDecimalDigit) (l := r)
          rw [digitCount]
          nth_rewrite 2 [← hsplit]
          exact List.drop_left
        rw [hdrop, List.isPrefixOf_iff_prefix] at hfence
        obtain ⟨r', hr'⟩ := hfence
        refine ⟨r.takeWhile Text.isDecimalDigit, r', ⟨?_, fun c hc => ?_⟩, ?_, ?_⟩
        · exact List.length_pos_iff.1 hpos
        · exact List.mem_takeWhile_imp hc
        · rw [Text.eq_append_of_after? hr]
          conv_lhs => rw [← List.takeWhile_append_dropWhile (p := Text.isDecimalDigit) (l := r)]
          rw [← hr']
          simp [make]
        · simp only [Option.some.injEq] at h
          rw [← h]
          simp [make, digitCount]
          omega
      · cases h
  · rintro ⟨d, r, hd, rfl, rfl⟩
    exact readTag_make tag hd r

/-- A text begins with a placeholder of one tag at most. -/
theorem tag_unique {tag tag' : Tag} {d d' r r' : Text}
    (h : make tag.word d ++ r = make tag'.word d' ++ r') : tag = tag' := by
  rw [make_eq, make_eq, tag.word_eq, tag'.word_eq] at h
  simp only [List.cons_append, List.cons.injEq, true_and] at h
  exact Tag.initial_inj h.1

/-- What is read at the front of a text is a placeholder. -/
theorem read_eq_some_iff {s : Text} {tag : Tag} {n : Nat} :
    read s = some (tag, n) ↔
      ∃ d r, IsNumber d ∧ s = make tag.word d ++ r ∧ n = (make tag.word d).length := by
  rw [← readTag_eq_some_iff]
  constructor
  · intro h
    obtain ⟨tag', -, h⟩ := List.exists_of_findSome?_eq_some h
    obtain ⟨m, hm, heq⟩ := Option.map_eq_some_iff.1 h
    obtain ⟨rfl, rfl⟩ : tag' = tag ∧ m = n := by simpa using heq
    exact hm
  · intro h
    obtain ⟨d, r, hd, rfl, hn⟩ := readTag_eq_some_iff.1 h
    -- the readers are tried in turn, and those for the other tags find nothing
    have hother : ∀ tag', tag' ≠ tag → readTag tag' (make tag.word d ++ r) = none := by
      intro tag' hne
      rw [Option.eq_none_iff_forall_ne_some]
      intro n' hn'
      obtain ⟨d', r', -, heq, -⟩ := readTag_eq_some_iff.1 hn'
      exact hne (tag_unique heq).symm
    cases tag with
    | string => simp [read, Tag.all, h]
    | identifier => simp [read, Tag.all, h, hother .string]
    | comment => simp [read, Tag.all, h, hother .string, hother .identifier]

/-- A placeholder is read back, whatever follows it. -/
theorem read_make (tag : Tag) {d : Text} (hd : IsNumber d) (r : Text) :
    read (make tag.word d ++ r) = some (tag, (make tag.word d).length) :=
  read_eq_some_iff.2 ⟨d, r, hd, rfl, rfl⟩

/-- No placeholder goes beyond the end of the text. -/
theorem length_le_of_read {s : Text} {tag : Tag} {n : Nat} (h : read s = some (tag, n)) :
    n ≤ s.length := by
  obtain ⟨d, r, -, rfl, rfl⟩ := read_eq_some_iff.1 h
  rw [List.length_append]
  exact Nat.le_add_right _ _

/-- The cut of a text at its placeholders is scanned right. -/
theorem scans_cut (s : Text) : recogniser.Scans (cut s).symbols :=
  recogniser.scans_symbols_cut length_le_of_read s

/-- The placeholder of a literal is read back, whatever follows it. -/
theorem read_ofLiteral (kind : Literal.Kind) (n : Nat) (r : Text) :
    read (ofLiteral kind n ++ r) = some (tagOf kind, (ofLiteral kind n).length) :=
  read_make _ (isNumber_ofNat n) r

/-- A placeholder shows its tag and its number. -/
theorem make_inj {tag tag' : Tag} {d d' : Text} (h : make tag.word d = make tag'.word d') :
    tag = tag' ∧ d = d' := by
  have htag : tag = tag' := tag_unique (congrArg (· ++ []) h)
  subst htag
  simpa [make] using h

/-- Two literals with the same placeholder have the same number. -/
theorem ofLiteral_inj {kind kind' : Literal.Kind} {n n' : Nat}
    (h : ofLiteral kind n = ofLiteral kind' n') : tagOf kind = tagOf kind' ∧ n = n' := by
  obtain ⟨htag, hnum⟩ := make_inj h
  refine ⟨htag, ?_⟩
  -- reading the digits gives the number back
  have := congrArg (Nat.ofDigitChars 10 · 0) hnum
  simpa [Text.ofNat, Nat.ofDigitChars_ten_toDigits] using this

/-- No literal has an empty placeholder. -/
theorem ofLiteral_ne_nil (kind : Literal.Kind) (n : Nat) : ofLiteral kind n ≠ [] := by
  simp [ofLiteral, make_eq]

/-- What a placeholder is made of. -/
theorem mem_make {tag : Tag} {d : Text} (hd : IsNumber d) {c : Char} (h : c ∈ make tag.word d) :
    c = '_' ∨ c ∈ tag.word ∨ Text.isDecimalDigit c = true := by
  simp only [make, opening, fence, List.mem_append, List.mem_cons, List.not_mem_nil, or_false,
    or_self] at h
  rcases h with (((rfl | h) | rfl) | h) | rfl
  · exact .inl rfl
  · exact .inr (.inl h)
  · exact .inl rfl
  · exact .inr (.inr (hd.2 c h))
  · exact .inl rfl

/-- A placeholder can stand in a word, whatever its number. -/
theorem isPlain_of_mem_make {tag : Tag} {d : Text} (hd : IsNumber d) {c : Char}
    (h : c ∈ make tag.word d) : isPlain c = true := by
  have hword : ∀ tag : Tag, tag.word.all isPlain = true := by
    intro tag
    cases tag <;> decide
  rcases mem_make hd h with rfl | h | h
  · rfl
  · exact List.all_eq_true.1 (hword tag) c h
  · exact isPlain_of_isDecimalDigit h

/-- The placeholder of a literal can stand in a word. -/
theorem isPlain_of_mem_ofLiteral {kind : Literal.Kind} {n : Nat} {c : Char}
    (h : c ∈ ofLiteral kind n) : isPlain c = true :=
  isPlain_of_mem_make (isNumber_ofNat n) h

/-- A placeholder escapes nothing. -/
theorem backslash_notMem_ofLiteral (kind : Literal.Kind) (n : Nat) :
    '\\' ∉ ofLiteral kind n := by
  intro h
  rcases mem_make (isNumber_ofNat n) h with h | h | h
  · cases h
  · cases kind <;> revert h <;> decide
  · revert h
    decide

/-! ### Placeholders at the end of a text -/

/-- A placeholder has seven underscores. -/
theorem count_underscore_make (tag : Tag) {d : Text} (hd : IsNumber d) :
    (make tag.word d).count '_' = 7 := by
  have hdigits : d.count '_' = 0 := by
    refine List.count_eq_zero.2 fun h => ?_
    have := hd.2 _ h
    simp [isDecimalDigit_underscore] at this
  have hword : tag.word.count '_' = 0 := by cases tag <;> decide
  simp [make, opening, fence, hdigits, hword]

/-- No placeholder ends in another one. -/
theorem eq_nil_of_make_eq_append {tag tag' : Tag} {d d' x : Text} (hd : IsNumber d)
    (hd' : IsNumber d') (h : make tag.word d = x ++ make tag'.word d') : x = [] := by
  cases x with
  | nil => rfl
  | cons c x =>
    -- both have seven underscores, so that there is none left for the front of the first
    have hcount := congrArg (List.count '_') h
    rw [List.count_append, count_underscore_make tag hd, count_underscore_make tag' hd'] at hcount
    rw [make_eq] at h
    obtain ⟨rfl, -⟩ := List.cons.inj h
    simp at hcount

/-- A comment placeholder is one. -/
theorem wholeComment?_make {d : Text} (hd : IsNumber d) :
    wholeComment? (make Tag.comment.word d) = some (make Tag.comment.word d) := by
  have := readTag_make .comment hd []
  rw [List.append_nil] at this
  simp [wholeComment?, this]

/-- The comment placeholder that a text ends in is found. -/
theorem trailingComment?_append (x : Text) {d : Text} (hd : IsNumber d) :
    trailingComment? (x ++ make Tag.comment.word d) = some (make Tag.comment.word d) := by
  induction x with
  | nil =>
    obtain ⟨c, r, hr⟩ : ∃ c r, make Tag.comment.word d = c :: r := ⟨_, _, make_eq _ _⟩
    rw [List.nil_append, hr, trailingComment?, ← hr, wholeComment?_make hd]
    rfl
  | cons c x ih =>
    -- no placeholder begins earlier and reaches to the end of the text
    have hnone : wholeComment? (c :: (x ++ make Tag.comment.word d)) = none := by
      unfold wholeComment?
      split
      · next n hn =>
        obtain ⟨d', r, hd', heq, rfl⟩ := readTag_eq_some_iff.1 hn
        rw [heq, List.drop_left, if_neg]
        rintro (rfl | rfl)
        · rw [List.append_nil, ← List.cons_append] at heq
          cases eq_nil_of_make_eq_append hd' hd heq.symm
        · -- the text ends in an underscore
          have hlast : (c :: x ++ opening Tag.comment.word ++ d ++ ['_', '_']) ++ ['_'] =
              make Tag.comment.word d' ++ ['\n'] := by
            rw [← heq]
            simp [make, fence]
          cases (List.append_inj' hlast rfl).2
      · rfl
    rw [List.cons_append, trailingComment?, hnone, ih]
    rfl

/-- What is found at the end of a text is a comment placeholder, before a line feed or not. -/
theorem eq_append_of_trailingComment? {s p : Text} (h : trailingComment? s = some p) :
    ∃ x d r, IsNumber d ∧ p = make Tag.comment.word d ∧ s = x ++ p ++ r ∧
      (r = [] ∨ r = ['\n']) := by
  -- by the place where the search stops
  induction s with
  | nil => cases h
  | cons c s ih =>
    rw [trailingComment?, Option.or_eq_some_iff] at h
    rcases h with h | ⟨-, h⟩
    · unfold wholeComment? at h
      split at h
      · next n hn =>
        obtain ⟨d, r, hd, heq, rfl⟩ := readTag_eq_some_iff.1 hn
        rw [heq, List.drop_left, List.take_left, Option.ite_none_right_eq_some,
          Option.some_inj] at h
        obtain ⟨hr, rfl⟩ := h
        exact ⟨[], d, r, hd, rfl, heq, hr⟩
      · cases h
    · obtain ⟨x, d, r, hd, hp, rfl, hr⟩ := ih h
      exact ⟨c :: x, d, r, hd, hp, rfl, hr⟩

/-- A placeholder ends in a digit and three underscores. -/
theorem exists_make_eq_append (tag : Tag) {d : Text} (hd : IsNumber d) :
    ∃ x e, make tag.word d = x ++ [e, '_', '_', '_'] ∧ e ≠ '_' := by
  have hlast := hd.2 _ (List.getLast_mem hd.1)
  refine ⟨opening tag.word ++ d.dropLast, d.getLast hd.1, ?_, ?_⟩
  · conv_lhs => rw [← List.dropLast_append_getLast hd.1]
    simp [make, fence]
  · intro h
    rw [h, isDecimalDigit_underscore] at hlast
    cases hlast

end Placeholder

namespace Marked

/-! ### Gaps without a fence -/

/-- No three underscores stand in a row between the hits. -/
def Unfenced {α : Type} (m : Marked α) : Prop :=
  ¬(ofText Placeholder.fence : Marked α) <:+: m

/-- A part of a text without three underscores in a row has none either. -/
theorem Unfenced.of_isInfix {α : Type} {m n : Marked α} (h : Unfenced n) (hmn : m <:+: n) :
    Unfenced m :=
  fun hm => h (hm.trans hmn)

/-- A cut has three underscores in a row only within one of its gaps. -/
theorem unfenced_symbols {α : Type} {k : Cut α}
    (h : ∀ g ∈ k.gaps, ¬Placeholder.fence <:+: g) : Unfenced k.symbols := by
  intro hk
  obtain ⟨g, hg, hfence⟩ := Cut.infix_gap_of_infix_symbols hk
  exact h g hg hfence

/-- The placeholder of a numbered literal as a hit. -/
def placeholderHit (h : Hit (Literal.Kind × Nat)) : Hit Placeholder.Tag :=
  ⟨Placeholder.tagOf h.tag.1, Draft.placeholder h⟩

/-- Between gaps without three underscores in a row, no placeholder is read but those that were put
there. -/
theorem scans_placeholder {m : Marked (Literal.Kind × Nat)} (hm : Unfenced m) :
    Placeholder.recogniser.Scans (mapHits placeholderHit m) := by
  have hinitial : ∀ tag : Placeholder.Tag, tag.initial ≠ '_' := by
    intro tag
    cases tag <;> decide
  have hfront : ∀ h : Hit (Literal.Kind × Nat), ∃ x, Draft.placeholder h = '_' :: '_' :: '_' :: x :=
    fun h => ⟨_, Placeholder.make_eq _ _⟩
  -- a hit is read as the placeholder that it is; a character begins no placeholder, since that
  -- would need the two after it to be underscores too
  induction m with
  | nil => exact trivial
  | cons a m ih =>
    have htail : Unfenced m := hm.of_isInfix (List.suffix_cons a m).isInfix
    cases a with
    | hit h =>
      refine ⟨?_, ih htail⟩
      exact Placeholder.read_ofLiteral h.tag.1 h.tag.2 _
    | char c =>
      rw [mapHits_char]
      refine ⟨?_, ih htail⟩
      rw [Option.eq_none_iff_forall_ne_some]
      rintro ⟨tag, n⟩ hread
      obtain ⟨d, r, -, heq, -⟩ := Placeholder.read_eq_some_iff.1 hread
      rw [text, spell_mapHits, Placeholder.make_eq, tag.word_eq] at heq
      simp only [List.cons_append, List.cons.injEq] at heq
      obtain ⟨rfl, heq⟩ := heq
      -- the three underscores are followed by a letter, so that no hit reaches into them
      rcases m with _ | ⟨⟨c⟩ | ⟨h⟩, m⟩
      · simp at heq
      · rcases m with _ | ⟨⟨c'⟩ | ⟨h⟩, m⟩
        · simp at heq
        · simp only [spell_char, List.cons.injEq] at heq
          obtain ⟨rfl, rfl, -⟩ := heq
          exact hm ⟨[], m, rfl⟩
        · obtain ⟨x, hx⟩ := hfront h
          simp only [spell_char, spell_hit, Function.comp_apply, placeholderHit, hx,
            List.cons_append, List.cons.injEq] at heq
          exact hinitial tag heq.2.2.1.symm
      · obtain ⟨x, hx⟩ := hfront h
        simp only [spell_hit, Function.comp_apply, placeholderHit, hx, List.cons_append,
          List.cons.injEq] at heq
        exact hinitial tag heq.2.2.1.symm

/-- Between gaps without three underscores in a row, the placeholders of a text are those that were
put there. -/
theorem cut_spell_placeholder {m : Marked (Literal.Kind × Nat)} (hm : Unfenced m) :
    Placeholder.cut (spell Draft.placeholder m) = cut (mapHits placeholderHit m) := by
  have := Placeholder.recogniser.cut_text_of_scans (scans_placeholder hm)
  rwa [text, spell_mapHits] at this

end Marked
end SqlTidy
