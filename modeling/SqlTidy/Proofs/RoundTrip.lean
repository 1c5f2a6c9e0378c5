import SqlTidy.Proofs.Draft

/-!
# Setting literals aside and putting them back

Putting the literals of a text back right after they were set aside gives the text again, unless its
gaps get in the way.  They do so in two ways: a gap may hold the placeholder of one of the literals,
which is then replaced as well, and a gap may end in a placeholder without its last underscores,
which borrows them from the placeholder that follows.

## Main definitions

* `Placeholder.fill t s` — the placeholders of `s` replaced by what the table `t` says.
* `Placeholder.Foreign t s` — no placeholder in `s` is a key of `t`.
* `Placeholder.Finished s` — no placeholder in `s` lacks its last underscores.

## Main results

* `Placeholder.read_append_fence` — only the first three characters of a placeholder can end
  another.
* `Placeholder.fill_append_eq_iff` — when a gap and the placeholder after it come out right.
* `restore_preserve_iff` — when a text comes out right.
-/

namespace SqlTidy
namespace Placeholder

/-- The placeholders of a text replaced by what a table says, and left alone if it says nothing. -/
def fill (t : Table Text) (s : Text) : Text :=
  (cut s).joinWith id fun hit => (t.lookup hit.text).getD hit.text

/-- No placeholder in a text is a key of a table. -/
def Foreign (t : Table Text) (s : Text) : Prop := ∀ hit ∈ (cut s).hits, hit.text ∉ Table.keys t

/-- No placeholder in a text lacks its last underscores: with three more of them, the text has the
same placeholders. -/
def Finished (s : Text) : Prop := (cut (s ++ fence)).pieces = (cut s).pieces

/-! ### Reading from the left -/

/-- A text is empty, or begins with a placeholder or with a character that begins none.  This is the
induction along the scan for placeholders. -/
@[elab_as_elim] theorem cut_induction {motive : Text → Prop} (nil : motive [])
    (placeholder : ∀ (tag : Tag) (d r : Text), IsNumber d → motive r →
      motive (make tag.word d ++ r))
    (char : ∀ c r, read (c :: r) = none → motive r → motive (c :: r)) (s : Text) : motive s := by
  induction hn : s.length using Nat.strong_induction_on generalizing s with
  | _ n ih =>
    cases s with
    | nil => exact nil
    | cons c r =>
      cases hread : read (c :: r) with
      | none => exact char c r hread (ih r.length (by simp [← hn]) r rfl)
      | some p =>
        obtain ⟨d, r', hd, heq, -⟩ := read_eq_some_iff.1 hread
        -- a placeholder is not empty, so that the rest is shorter
        have hlen : r'.length < n := by
          rw [← hn, heq, make_eq]
          simp
          omega
        rw [heq]
        exact placeholder p.1 d r' hd (ih r'.length hlen r' rfl)

theorem cut_nil : cut [] = ⟨[], []⟩ := Recogniser.cut_nil _

/-- A placeholder in front is cut off as a whole. -/
theorem cut_make (tag : Tag) {d : Text} (hd : IsNumber d) (r : Text) :
    cut (make tag.word d ++ r) = (cut r).pushHit ⟨tag, make tag.word d⟩ := by
  have hread := read_make tag hd r
  obtain ⟨c, x, hx⟩ : ∃ c x, make tag.word d = c :: x := ⟨_, _, make_eq tag d⟩
  rw [hx, List.cons_append] at hread ⊢
  rw [cut, recogniser.cut_of_read_eq_some hread, ← List.cons_append, List.drop_left, List.take_left]
  rfl

/-- A character that begins no placeholder goes to the gap in front. -/
theorem cut_char {c : Char} {r : Text} (h : read (c :: r) = none) :
    cut (c :: r) = (cut r).push c :=
  recogniser.cut_of_read_eq_none h

/-- In a placeholder, three underscores and a letter stand at the front only. -/
theorem eq_nil_of_make_eq {tag tag' : Tag} {d x w : Text} (hd : IsNumber d)
    (h : make tag.word d = x ++ '_' :: '_' :: '_' :: tag'.initial :: w) : x = [] := by
  have hword : '_' ∉ tag.word := by cases tag <;> decide
  have hdigits : '_' ∉ d := by
    intro hmem
    have := hd.2 _ hmem
    simp [isDecimalDigit_underscore] at this
  have hinitial : ∀ tag : Tag, tag.initial ≠ '_' := by
    intro tag
    cases tag <;> decide
  rw [make_eq] at h
  rcases x with _ | ⟨_, _ | ⟨_, _ | ⟨_, x⟩⟩⟩
  · rfl
  · rw [tag.word_eq] at h
    simp only [List.cons_append, List.nil_append, List.cons.injEq] at h
    exact absurd h.2.2.2.1 (hinitial tag)
  · rw [tag.word_eq] at h
    simp only [List.cons_append, List.nil_append, List.cons.injEq] at h
    exact absurd h.2.2.2.1 (hinitial tag)
  · exfalso
    simp only [List.cons_append, List.cons.injEq] at h
    obtain ⟨-, -, -, h⟩ := h
    -- the row cannot begin in the word, at the underscore after it, in the digits or after them
    rcases List.append_eq_append_iff.1 h with ⟨y, rfl, hy⟩ | ⟨y, hy, h⟩
    · rcases y with _ | ⟨_, y⟩
      · obtain ⟨e, d, rfl⟩ := List.exists_cons_of_ne_nil hd.1
        simp only [List.nil_append, List.cons_append, List.cons.injEq] at hy
        exact hdigits (by simp [hy.2.1])
      · simp only [List.cons_append, List.cons.injEq] at hy
        rcases List.append_eq_append_iff.1 hy.2 with ⟨z, rfl, hz⟩ | ⟨z, rfl, hz⟩
        · have := congrArg List.length hz
          simp at this
          omega
        · rcases z with _ | ⟨_, z⟩
          · simp at hz
          · simp only [List.cons_append, List.cons.injEq] at hz
            exact hdigits (by simp [← hz.1])
    · rcases y with _ | ⟨_, y⟩
      · obtain ⟨e, d, rfl⟩ := List.exists_cons_of_ne_nil hd.1
        simp only [List.nil_append, List.cons_append, List.cons.injEq] at h
        exact hdigits (by simp [← h.2.1])
      · simp only [List.cons_append, List.cons.injEq] at h
        exact hword (by simp [hy, ← h.1])

/-- Only the first three characters of a placeholder can end another one that begins before it. -/
theorem read_append_fence {tag' : Tag} {d' x u : Text} (hx : x ≠ []) {p : Tag × Nat}
    (h : read (x ++ (make tag'.word d' ++ u)) = some p) : read (x ++ fence) = some p := by
  obtain ⟨d, r, hd, heq, hn⟩ := read_eq_some_iff.1 h
  refine read_eq_some_iff.2 ?_
  rcases List.append_eq_append_iff.1 heq with ⟨v, hv, hu⟩ | ⟨v, rfl, -⟩
  · -- the placeholder ends in the other one
    -- what it takes of the other one are underscores: a fourth character would be a letter, and
    -- then the two would begin together
    have hfront : ∃ y, v ++ y = fence := by
      rw [make_eq, tag'.word_eq] at hu
      rcases v with _ | ⟨a, _ | ⟨b, _ | ⟨c, _ | ⟨e, v⟩⟩⟩⟩
      · exact ⟨fence, rfl⟩
      · simp only [List.cons_append, List.cons.injEq] at hu
        exact ⟨['_', '_'], by simp [← hu.1, fence]⟩
      · simp only [List.cons_append, List.cons.injEq] at hu
        exact ⟨['_'], by simp [← hu.1, ← hu.2.1, fence]⟩
      · simp only [List.cons_append, List.cons.injEq] at hu
        exact ⟨[], by simp [← hu.1, ← hu.2.1, ← hu.2.2.1, fence]⟩
      · simp only [List.cons_append, List.cons.injEq] at hu
        rw [← hu.1, ← hu.2.1, ← hu.2.2.1, ← hu.2.2.2.1] at hv
        exact absurd (eq_nil_of_make_eq hd hv) hx
    obtain ⟨y, hy⟩ := hfront
    exact ⟨d, y, hd, by rw [hv, List.append_assoc, hy], hn⟩
  · exact ⟨d, v ++ fence, hd, by rw [List.append_assoc], hn⟩

/-! ### Replacing -/

section Fill

variable {t : Table Text}

theorem fill_nil (t : Table Text) : fill t [] = [] := by
  rw [fill, cut_nil]
  rfl

/-- A placeholder in front is replaced by its entry, or stays. -/
theorem fill_make (t : Table Text) (tag : Tag) {d : Text} (hd : IsNumber d) (r : Text) :
    fill t (make tag.word d ++ r) =
      (t.lookup (make tag.word d)).getD (make tag.word d) ++ fill t r := by
  rw [fill, fill, cut_make tag hd, Cut.joinWith_id, Cut.joinWith_id, Cut.symbols_pushHit,
    Marked.spell_hit]

/-- A character that begins no placeholder stays. -/
theorem fill_char (t : Table Text) {c : Char} {r : Text} (h : read (c :: r) = none) :
    fill t (c :: r) = c :: fill t r := by
  rw [fill, fill, cut_char h, Cut.joinWith_id, Cut.joinWith_id, Cut.symbols_push, Marked.spell_char]

/-- What does not begin with an underscore does not begin with a placeholder. -/
theorem cons_ne_make_append {c : Char} (hc : c ≠ '_') {tag : Tag} {d x y : Text} :
    c :: x ≠ make tag.word d ++ y := by
  intro h
  rw [make_eq] at h
  exact hc (List.cons.inj h).1

/-- A table whose values are not empty and do not begin with an underscore changes its keys. -/
theorem getD_lookup_cases (ht : ∀ e ∈ t, ∃ c r, e.2 = c :: r ∧ c ≠ '_') (k : Text) :
    k ∉ Table.keys t ∧ (t.lookup k).getD k = k ∨
      k ∈ Table.keys t ∧ ∃ c r, (t.lookup k).getD k = c :: r ∧ c ≠ '_' := by
  induction t with
  | nil => exact .inl ⟨by simp, rfl⟩
  | cons e t ih =>
    obtain ⟨he, ht⟩ := List.forall_mem_cons.1 ht
    rw [List.lookup_cons]
    -- the first entry is the one that is found, or the rest of the table decides
    by_cases hk : k = e.1
    · exact .inr ⟨by simp [Table.keys, hk], by simpa [hk] using he⟩
    · have hne : (k == e.1) = false := by simpa using hk
      have hkeys : k ∈ Table.keys (e :: t) ↔ k ∈ Table.keys t := by simp [Table.keys, hk]
      rw [hne, hkeys]
      exact ih ht

/-- A placeholder in front is no key, and neither are the others. -/
theorem foreign_make {tag : Tag} {d r : Text} (hd : IsNumber d) :
    Foreign t (make tag.word d ++ r) ↔ make tag.word d ∉ Table.keys t ∧ Foreign t r := by
  rw [Foreign, cut_make tag hd, Cut.pushHit, Cut.hits, List.map_cons, List.forall_mem_cons]
  rfl

/-- A character that begins no placeholder does not matter for the keys. -/
theorem foreign_char {c : Char} {r : Text} (h : read (c :: r) = none) :
    Foreign t (c :: r) ↔ Foreign t r := by
  have hhits : ((cut r).push c).hits = (cut r).hits := by
    obtain ⟨_ | ⟨p, ps⟩, rest⟩ := cut r <;> rfl
  rw [Foreign, Foreign, cut_char h, hhits]

/-- A text is left alone if and only if it holds no key of the table. -/
theorem fill_eq_iff (ht : ∀ e ∈ t, ∃ c r, e.2 = c :: r ∧ c ≠ '_') (s : Text) :
    fill t s = s ↔ Foreign t s := by
  induction s using cut_induction with
  | nil => simp [fill_nil, Foreign, cut_nil, Cut.hits]
  | placeholder tag d r hd ih =>
    rw [fill_make t tag hd, foreign_make hd]
    rcases getD_lookup_cases ht (make tag.word d) with ⟨hk, hget⟩ | ⟨hk, c, x, hget, hc⟩
    · rw [hget, List.append_cancel_left_eq, ih]
      simp [hk]
    · rw [hget]
      -- what is put for the key does not begin with an underscore, as the key does
      exact iff_of_false (cons_ne_make_append hc) fun h => h.1 hk
  | char c r hr ih => rw [fill_char t hr, List.cons.injEq, foreign_char hr, ih, and_iff_right rfl]

/-- A finished placeholder in front does not matter. -/
theorem finished_make {tag : Tag} {d r : Text} (hd : IsNumber d) :
    Finished (make tag.word d ++ r) ↔ Finished r := by
  rw [Finished, Finished, List.append_assoc, cut_make tag hd, cut_make tag hd]
  simp [Cut.pushHit]

/-- A character in front does not matter, if it begins no placeholder with the borrowed underscores
either. -/
theorem finished_char {c : Char} {r : Text} (h : read (c :: r) = none)
    (hf : read (c :: r ++ fence) = none) : Finished (c :: r) ↔ Finished r := by
  have hpush : ∀ k k' : Cut Tag, (k.push c).pieces = (k'.push c).pieces ↔ k.pieces = k'.pieces := by
    rintro ⟨_ | ⟨p, ps⟩, rest⟩ ⟨_ | ⟨p', ps'⟩, rest'⟩ <;> simp [Cut.push, Prod.ext_iff]
  rw [Finished, Finished, cut_char h, List.cons_append, cut_char (by simpa using hf), hpush]

/-- A placeholder that borrows underscores is not finished. -/
theorem not_finished {c : Char} {r : Text} (h : read (c :: r) = none) {p : Tag × Nat}
    (hf : read (c :: r ++ fence) = some p) : ¬Finished (c :: r) := by
  obtain ⟨d, r', hd, heq, -⟩ := read_eq_some_iff.1 hf
  rw [Finished, heq, cut_make p.1 hd, cut_char h]
  obtain ⟨_ | ⟨q, ps⟩, rest⟩ := cut r <;> simp [Cut.push, Cut.pushHit]

/-- A placeholder that borrows underscores is the rest of the text and these underscores. -/
theorem exists_borrowed {tag : Tag} {d s r : Text} (h : read s = none) (hd : IsNumber d)
    (heq : s ++ fence = make tag.word d ++ r) :
    ∃ v, make tag.word d = s ++ '_' :: v := by
  have hnot : ∀ x, s ≠ make tag.word d ++ x := by
    rintro x rfl
    rw [read_make tag hd] at h
    cases h
  -- the placeholder is no part of the text alone, so that it ends in the underscores
  rcases List.append_eq_append_iff.1 heq with ⟨v, hv, hfence⟩ | ⟨v, hv, -⟩
  · rcases v with _ | ⟨c, v⟩
    · exact absurd (by simpa using hv.symm) (hnot [])
    · obtain rfl : c = '_' := (List.cons.inj hfence).1.symm
      exact ⟨v, hv⟩
  · exact absurd hv (hnot v)

/-- When a gap and the placeholder after it come out right: no placeholder in the gap is a key, and
none of them lacks underscores. -/
theorem fill_append_eq_iff (ht : ∀ e ∈ t, ∃ c r, e.2 = c :: r ∧ c ≠ '_') {tag : Tag} {d : Text}
    (hd : IsNumber d) {l : Text} (hl : t.lookup (make tag.word d) = some l)
    (hl' : ∃ c r, l = c :: r ∧ c ≠ '_') (g u w : Text) :
    fill t (g ++ (make tag.word d ++ u)) = g ++ (l ++ w) ↔
      Foreign t g ∧ Finished g ∧ fill t u = w := by
  induction g using cut_induction with
  | nil =>
    have hfinished : Finished [] := by
      rw [Finished]
      decide +kernel
    have hforeign : Foreign t [] := by simp [Foreign, cut_nil, Cut.hits]
    rw [List.nil_append, fill_make t tag hd, hl, Option.getD_some, List.nil_append,
      List.append_cancel_left_eq]
    simp [hfinished, hforeign]
  | placeholder tag' d' r hd' ih =>
    rw [List.append_assoc, fill_make t tag' hd', foreign_make hd', finished_make hd',
      List.append_assoc]
    rcases getD_lookup_cases ht (make tag'.word d') with ⟨hk, hget⟩ | ⟨hk, c, x, hget, hc⟩
    · rw [hget, List.append_cancel_left_eq, ih]
      simp [hk]
    · rw [hget]
      exact iff_of_false (cons_ne_make_append hc) fun h => h.1.1 hk
  | char c r hr ih =>
    -- the character begins no placeholder by itself, but may begin one with borrowed underscores
    cases hf : read (c :: r ++ fence) with
    | none =>
      have hnone : read (c :: (r ++ (make tag.word d ++ u))) = none := by
        by_contra hsome
        obtain ⟨p, hp⟩ := Option.ne_none_iff_exists'.1 hsome
        rw [read_append_fence (List.cons_ne_nil c r) hp] at hf
        cases hf
      rw [List.cons_append, fill_char t hnone, List.cons_append, List.cons.injEq, foreign_char hr,
        finished_char hr hf, and_iff_right rfl, ih]
    | some p =>
      refine iff_of_false ?_ fun h => not_finished hr hf h.2.1
      obtain ⟨d', r', hd', heq, -⟩ := read_eq_some_iff.1 hf
      obtain ⟨v, hv⟩ := exists_borrowed hr hd' heq
      -- the first underscore of the placeholder is taken, where the literal should begin
      obtain ⟨e, x, rfl, he⟩ := hl'
      have hsplit : c :: r ++ (make tag.word d ++ u) =
          make p.1.word d' ++ (r' ++ (tag.word ++ '_' :: (d ++ fence) ++ u)) := by
        rw [← List.append_assoc (make p.1.word d'), ← heq, make_eq]
        simp [fence]
      rw [hsplit, fill_make t p.1 hd']
      rcases getD_lookup_cases ht (make p.1.word d') with ⟨hk, hget⟩ | ⟨hk, c', y, hget, hc'⟩
      · rw [hget, hv, List.append_assoc, List.append_cancel_left_eq]
        intro h
        exact he (List.cons.inj h).1.symm
      · rw [hget]
        intro h
        have hc : c = '_' := by
          rw [make_eq] at heq
          exact (List.cons.inj heq).1
        exact hc' ((List.cons.inj h).1.trans hc)

end Fill

end Placeholder

/-! ### Whole texts -/

open Literal (Kind)

/-- Putting literals back is replacing placeholders by the table of the draft. -/
theorem Draft.restore_text_eq_fill (d : Draft) :
    d.restore.text = Placeholder.fill d.literals d.text :=
  d.restore_text

/-- When the placeholders of a marked text come out right. -/
theorem fill_spell_eq_iff {t : Table Text} (ht : ∀ e ∈ t, ∃ c r, e.2 = c :: r ∧ c ≠ '_')
    {m : Marked (Kind × Nat)} (hm : ∀ h ∈ m.hits, t.lookup (Draft.placeholder h) = some h.text ∧
      ∃ c r, h.text = c :: r ∧ c ≠ '_') :
    Placeholder.fill t (m.spell Draft.placeholder) = m.text ↔
      (∀ g ∈ m.cut.gaps, Placeholder.Foreign t g) ∧
        ∀ p ∈ m.cut.pieces, Placeholder.Finished p.1 := by
  induction m using Marked.gap_induction with
  | gap g =>
    rw [Marked.text, Marked.spell_ofText, Marked.spell_ofText, Marked.cut_ofText,
      Placeholder.fill_eq_iff ht]
    simp [Cut.gaps]
  | hit g h m ih =>
    rw [Marked.hits_append, Marked.hits_ofText, Marked.hits, List.nil_append,
      List.forall_mem_cons] at hm
    rw [Marked.text, Marked.spell_append, Marked.spell_append, Marked.spell_ofText,
      Marked.spell_ofText, Marked.spell_hit, Marked.spell_hit,
      show Draft.placeholder h = Placeholder.make _ _ from rfl,
      Placeholder.fill_append_eq_iff ht (Placeholder.isNumber_ofNat _) hm.1.1 hm.1.2, ih hm.2,
      Marked.cut_ofText_append_hit]
    simp only [Cut.gaps, List.map_cons, List.cons_append, List.forall_mem_cons]
    tauto

/-- The values of the table are the texts of the literals. -/
theorem Table.mem_literals {d : Draft} {m : Marked (Kind × Nat)} (h : d.Represents m)
    {e : Text × Text} (he : e ∈ d.literals) : ∃ x ∈ m.hits, e.2 = x.text := by
  rw [h.literals_eq] at he
  obtain ⟨x, hx, rfl⟩ := List.mem_map.1 he
  exact ⟨x, hx, rfl⟩

/-- Putting the literals of a text back right after they were set aside gives the text again if and
only if no gap holds one of their placeholders, and no gap before a literal ends in a placeholder
without its last underscores. -/
theorem restore_preserve_iff (s : Text) :
    ({ text := s } : Draft).preserve.restore.text = s ↔
      (∀ g ∈ (Literal.cut s).gaps,
        Placeholder.Foreign ({ text := s } : Draft).preserve.literals g) ∧
      ∀ p ∈ (Literal.cut s).pieces, Placeholder.Finished p.1 := by
  have hrep := Draft.represents_preserve s
  -- a literal begins with a quote, a hyphen or a slash, and so with no underscore
  have hfront : ∀ h ∈ (marked s).hits, ∃ c r, h.text = c :: r ∧ c ≠ '_' := by
    intro h hh
    obtain ⟨c, r, hcr, hc⟩ := exists_cons_of_mem_hits hh
    refine ⟨c, r, hcr, ?_⟩
    rintro rfl
    revert hc
    decide
  have htable : ∀ e ∈ ({ text := s } : Draft).preserve.literals, ∃ c r, e.2 = c :: r ∧ c ≠ '_' := by
    intro e he
    obtain ⟨x, hx, hex⟩ := Table.mem_literals hrep he
    rw [hex]
    exact hfront x hx
  have hlookup : ∀ h ∈ (marked s).hits,
      ({ text := s } : Draft).preserve.literals.lookup (Draft.placeholder h) = some h.text := by
    intro h hh
    rw [hrep.literals_eq, Table.lookup_of_mem hrep.nodup hh]
  have hmain := fill_spell_eq_iff htable fun h hh => ⟨hlookup h hh, hfront h hh⟩
  rw [text_marked] at hmain
  rw [Draft.restore_text_eq_fill, hrep.text_eq, hmain, cut_eq_marked, Marked.cut_mapHits,
    Cut.gaps_mapHits, Cut.mapHits, List.forall_mem_map]

/-- A placeholder without its last underscores takes them from the literal that follows it. -/
theorem restore_preserve_unfinished :
    ({ text := "___STRING_1'x'".toList } : Draft).preserve.restore.text ≠
      "___STRING_1'x'".toList := by
  decide +kernel

end SqlTidy
