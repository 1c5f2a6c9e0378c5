import SqlTidy.Proofs.Character

/-!
# Where the tokens of a text stand

The tokens of a text lie on spans of its positions.  A span is a punctuation mark, a quoted span as
far as it goes, or a run of characters that can stand in a word; between the spans there are only
blanks, and no two runs touch.  There is one such list of spans for every text, and the tokens are
what stands on them.

Two such lists agree, span by span from the left.  A span of one list begins with no blank, so that
some span of the other list holds its first position.  That span does not begin earlier, or else it
would be in the first list too and overlap; and where both begin at the same position they have the
same form and the same end.

## Main definitions

* `Span` — a range of positions.
* `Span.HasForm s p f` — the span `p` of the text `s` has the form `f`.
* `Decomposes s m spans` — the text `s` is made of the spans and of blanks, from the position `m`
  on.

## Main results

* `Decomposes.unique` — a text is decomposed in one way only.
* `Decomposes.of_blank`, `Decomposes.cons` — a blank, and a token, in front of what is decomposed.
* `tokenize_eq_map_slice` — the tokens of a text are what stands on its spans.
-/

namespace SqlTidy

open Text

/-! ### Where a quoted span ends -/

/-- A quoted span does not go beyond the end of the text. -/
theorem Text.spanLength_le_length (q : Char) (s : Text) : spanLength q s ≤ s.length := by
  fun_induction spanLength q s with
  | case1 => exact Nat.le_refl 0
  | case2 => exact Nat.le_refl 1
  | case3 d r ih => exact Nat.add_le_add_right ih 2
  | case4 r hc ih => exact Nat.add_le_add_right ih 2
  | case5 d r hd hc => exact Nat.le_add_left 1 _
  | case6 c d r hc hcq ih => exact Nat.add_le_add_right ih 1

/-- The end of a quoted span that begins at a position of the text, counted from the front. -/
theorem Text.spanEnd_of_getElem? {s : Text} {i : Nat} {q : Char} (h : s[i]? = some q) :
    spanEnd s i = some ((i + 1 + spanLength q (s.drop (i + 1)) : Nat) : Int) := by
  obtain ⟨hlt, hget⟩ := List.getElem?_eq_some_iff.1 h
  have hdrop : s.drop i = q :: s.drop (i + 1) := by
    rw [List.drop_eq_getElem_cons hlt, hget]
  rw [spanEnd, if_pos (Int.natCast_nonneg i), Int.toNat_natCast, hdrop]
  simp

/-- A part of a text between two positions that are counted from the front. -/
theorem Text.slice_natCast (s : Text) (i j : Nat) : slice s i j = (s.take j).drop i := by
  have hindex : ∀ k : Nat, index s.length k = min k s.length := by
    intro k
    rw [index, if_neg (by omega), Int.toNat_natCast]
  rw [slice, hindex, hindex, ← List.take_eq_take_min]
  by_cases hi : i ≤ s.length
  · rw [Nat.min_eq_left hi]
  · -- there is nothing beyond the end
    rw [List.drop_eq_nil_of_le, List.drop_eq_nil_of_le]
    · rw [List.length_take]
      omega
    · rw [List.length_take]
      omega

/-! ### Spans -/

/-- A range of positions, from `start` up to the one before `stop`. -/
structure Span where
  /-- The first position. -/
  start : Nat
  /-- The position after the last one. -/
  stop : Nat
  deriving DecidableEq, Repr

namespace Span

/-- The forms that the span of a token can have. -/
inductive Form
  /-- A punctuation mark. -/
  | mark
  /-- A quoted span. -/
  | quoted
  /-- A word. -/
  | word
  deriving DecidableEq, Repr

/-- The characters that a span of the given form begins with. -/
def Form.starts : Form → Char → Bool
  | mark => isPunctuation
  | quoted => isQuote
  | word => isPlain

/-- The span `p` of the text `s` has the given form: it is one punctuation mark, or goes from a
quote to the end of the quoted span, or holds none but the characters of words. -/
def HasForm (s : Text) (p : Span) : Form → Prop
  | .mark => p.stop = p.start + 1 ∧ ∃ c, s[p.start]? = some c ∧ isPunctuation c = true
  | .quoted =>
    ∃ q, s[p.start]? = some q ∧ isQuote q = true ∧ spanEnd s p.start = some (p.stop : Int)
  | .word => ∀ i, p.start ≤ i → i < p.stop → ∃ c, s[i]? = some c ∧ isPlain c = true

/-- The span holds the position `i`. -/
def Holds (p : Span) (i : Nat) : Prop := p.start ≤ i ∧ i < p.stop

variable {s : Text} {p q : Span} {f g : Form}

/-- No character begins spans of two forms. -/
theorem Form.eq_of_starts {c : Char} (hf : f.starts c = true) (hg : g.starts c = true) : f = g := by
  cases f <;> cases g
  case mark.mark | quoted.quoted | word.word => rfl
  case mark.quoted => simp [starts, isQuote_of_isPunctuation hf] at hg
  case mark.word => simp [starts, isPlain_of_isPunctuation hf] at hg
  case quoted.mark => simp [starts, isQuote_of_isPunctuation hg] at hf
  case quoted.word => simp [starts, isPlain_of_isQuote hf] at hg
  case word.mark => simp [starts, isPlain_of_isPunctuation hg] at hf
  case word.quoted => simp [starts, isPlain_of_isQuote hg] at hf

/-- No token begins with a blank. -/
theorem Form.isBlank_of_starts {c : Char} (h : f.starts c = true) : isBlank c = false := by
  cases f with
  | mark => exact isBlank_of_isPunctuation h
  | quoted => exact isBlank_of_isQuote h
  | word => exact isBlank_of_isPlain h

/-- The first character tells the form of a span. -/
theorem HasForm.exists_starts (h : p.HasForm s f) (hp : p.start < p.stop) :
    ∃ c, s[p.start]? = some c ∧ f.starts c = true := by
  cases f with
  | mark => exact h.2
  | quoted =>
    obtain ⟨q, hq, hquote, -⟩ := h
    exact ⟨q, hq, hquote⟩
  | word => exact h p.start (Nat.le_refl _) hp

/-- Spans that begin at the same position have the same form. -/
theorem HasForm.form_eq (hf : p.HasForm s f) (hg : q.HasForm s g) (hp : p.start < p.stop)
    (hq : q.start < q.stop) (hstart : p.start = q.start) : f = g := by
  obtain ⟨c, hc, hcf⟩ := hf.exists_starts hp
  obtain ⟨d, hd, hdg⟩ := hg.exists_starts hq
  rw [hstart, hd] at hc
  cases hc
  exact Form.eq_of_starts hcf hdg

end Span

/-! ### Decompositions -/

/-- From the position `m` on, the text `s` is made of the given spans and of blanks. -/
structure Decomposes (s : Text) (m : Nat) (spans : List Span) : Prop where
  /-- No span begins before the position `m`. -/
  le_start : ∀ p ∈ spans, m ≤ p.start
  /-- No span is empty. -/
  nonempty : ∀ p ∈ spans, p.start < p.stop
  /-- The spans come in order and do not overlap. -/
  ordered : spans.Pairwise fun p q => p.stop ≤ q.start
  /-- Every span has exactly one of the forms. -/
  form : ∀ p ∈ spans, ∃! f, p.HasForm s f
  /-- No two words touch. -/
  apart : ∀ p ∈ spans, ∀ q ∈ spans, p.HasForm s .word → q.HasForm s .word → p.stop ≠ q.start
  /-- What is on no span is blank. -/
  blank : ∀ i c, m ≤ i → s[i]? = some c → (∀ p ∈ spans, ¬p.Holds i) → isBlank c = true

namespace Decomposes

variable {s : Text} {m : Nat} {spans spans' : List Span} {p q : Span}

/-- Two spans that hold a common position are the same. -/
theorem eq_of_holds (h : Decomposes s m spans) (hp : p ∈ spans) (hq : q ∈ spans) {i : Nat}
    (hpi : p.Holds i) (hqi : q.Holds i) : p = q := by
  by_contra hne
  have : Std.Symm fun p q : Span => p.stop ≤ q.start ∨ q.stop ≤ p.start := ⟨fun _ _ => Or.symm⟩
  -- of two different spans one comes first, and ends before the other begins
  have hapart : p.stop ≤ q.start ∨ q.stop ≤ p.start :=
    List.Pairwise.forall (R := fun p q : Span => p.stop ≤ q.start ∨ q.stop ≤ p.start)
      (h.ordered.imp Or.inl) hp hq hne
  obtain ⟨hpstart, hpstop⟩ := hpi
  obtain ⟨hqstart, hqstop⟩ := hqi
  omega

/-- A span begins with a character that tells its form. -/
theorem exists_starts (h : Decomposes s m spans) (hp : p ∈ spans) :
    ∃ f c, p.HasForm s f ∧ s[p.start]? = some c ∧ f.starts c = true := by
  obtain ⟨f, hf, -⟩ := h.form p hp
  obtain ⟨c, hc, hstarts⟩ := hf.exists_starts (h.nonempty p hp)
  exact ⟨f, c, hf, hc, hstarts⟩

/-- What is no blank is on a span. -/
theorem exists_holds (h : Decomposes s m spans) {i : Nat} {c : Char} (hi : m ≤ i)
    (hc : s[i]? = some c) (hblank : isBlank c = false) : ∃ p ∈ spans, p.Holds i := by
  by_contra hnone
  have := h.blank i c hi hc (by simpa using hnone)
  simp [hblank] at this

/-- A word ends where no character of a word follows. -/
theorem isPlain_stop (h : Decomposes s m spans) (hp : p ∈ spans) (hword : p.HasForm s .word)
    {c : Char} (hc : s[p.stop]? = some c) : isPlain c = false := by
  by_contra hplain
  rw [Bool.not_eq_false] at hplain
  have hpos := h.nonempty p hp
  have hle : m ≤ p.stop := (h.le_start p hp).trans hpos.le
  obtain ⟨q, hq, hstart, hstop⟩ := h.exists_holds hle hc (isBlank_of_isPlain hplain)
  -- the span that goes on there begins there, so that it is a word that touches the first
  have hbegins : q.start = p.stop := by
    by_contra hne
    obtain rfl := h.eq_of_holds hp hq (i := p.stop - 1) ⟨by omega, by omega⟩ ⟨by omega, by omega⟩
    omega
  obtain ⟨f, d, hf, hd, hstarts⟩ := h.exists_starts hq
  rw [hbegins, hc] at hd
  cases hd
  obtain rfl : f = .word := Span.Form.eq_of_starts hstarts hplain
  exact h.apart p hp q hq hword hf hbegins.symm

/-- Spans of two decompositions that begin at the same position are the same. -/
theorem eq_of_start_eq (h : Decomposes s m spans) (h' : Decomposes s m spans') (hp : p ∈ spans)
    (hq : q ∈ spans') (hstart : p.start = q.start) : p = q := by
  have hppos := h.nonempty p hp
  have hqpos := h'.nonempty q hq
  obtain ⟨f, hf, -⟩ := h.form p hp
  obtain ⟨g, hg, -⟩ := h'.form q hq
  obtain rfl := hf.form_eq hg hppos hqpos hstart
  have hstop : p.stop = q.stop := by
    cases f with
    | mark => rw [hf.1, hg.1, hstart]
    | quoted =>
      obtain ⟨c, -, -, hpend⟩ := hf
      obtain ⟨d, -, -, hqend⟩ := hg
      rw [hstart, hqend] at hpend
      simpa using hpend.symm
    | word =>
      -- the longer one would go on with a character of a word
      rcases Nat.lt_trichotomy p.stop q.stop with hlt | heq | hlt
      · obtain ⟨c, hc, hplain⟩ := hg p.stop (by omega) hlt
        simp [h.isPlain_stop hp hf hc] at hplain
      · exact heq
      · obtain ⟨c, hc, hplain⟩ := hf q.stop (by omega) hlt
        simp [h'.isPlain_stop hq hg hc] at hplain
  cases p
  cases q
  simp_all

/-- A span of one decomposition is in the other, if what begins before it there is in the first. -/
theorem mem_of_forall_lt (h : Decomposes s m spans) (h' : Decomposes s m spans') (hp : p ∈ spans)
    (hbefore : ∀ q ∈ spans', q.start < p.start → q ∈ spans) : p ∈ spans' := by
  have hpos := h.nonempty p hp
  obtain ⟨f, c, -, hc, hstarts⟩ := h.exists_starts hp
  obtain ⟨q, hq, hholds⟩ :=
    h'.exists_holds (h.le_start p hp) hc (Span.Form.isBlank_of_starts hstarts)
  -- if the other span began earlier, it would be in the first list and overlap `p`
  have hstart : p.start = q.start := by
    by_contra hne
    have hmem : q ∈ spans := hbefore q hq (lt_of_le_of_ne hholds.1 (Ne.symm hne))
    obtain rfl := h.eq_of_holds hp hmem ⟨Nat.le_refl _, hpos⟩ hholds
    exact hne rfl
  rwa [h.eq_of_start_eq h' hp hq hstart]

/-- Two decompositions have the same spans. -/
theorem mem_iff (h : Decomposes s m spans) (h' : Decomposes s m spans') (p : Span) :
    p ∈ spans ↔ p ∈ spans' := by
  -- by induction on the position where the span begins, in both directions at once
  induction hn : p.start using Nat.strong_induction_on generalizing p with
  | _ n ih =>
    subst hn
    constructor
    · intro hp
      exact h.mem_of_forall_lt h' hp fun q hq hlt => (ih q.start hlt q rfl).2 hq
    · intro hp
      exact h'.mem_of_forall_lt h hp fun q hq hlt => (ih q.start hlt q rfl).1 hq

/-- Spans are in the order of where they begin. -/
theorem pairwise_start_lt (h : Decomposes s m spans) :
    spans.Pairwise fun p q => p.start < q.start := by
  refine h.ordered.imp_of_mem fun hp _ hle => ?_
  exact lt_of_lt_of_le (h.nonempty _ hp) hle

/-- No span comes twice. -/
theorem nodup (h : Decomposes s m spans) : spans.Nodup := by
  refine h.pairwise_start_lt.imp ?_
  rintro p q hlt rfl
  exact Nat.lt_irrefl _ hlt

/-- A text is decomposed in one way only. -/
theorem unique (h : Decomposes s m spans) (h' : Decomposes s m spans') : spans = spans' := by
  have hperm : spans.Perm spans' :=
    (List.perm_ext_iff_of_nodup h.nodup h'.nodup).2 (h.mem_iff h')
  refine hperm.eq_of_pairwise ?_ h.pairwise_start_lt h'.pairwise_start_lt
  intro p q _ _ hpq hqp
  exact absurd hpq (Nat.lt_asymm hqp)

/-! ### Building up a decomposition from the right -/

/-- At the end of the text there is nothing left. -/
theorem nil (s : Text) : Decomposes s s.length [] where
  le_start := by simp
  nonempty := by simp
  ordered := .nil
  form := by simp
  apart := by simp
  blank := by
    intro i c hi hc
    rw [List.getElem?_eq_none hi] at hc
    cases hc

/-- A blank before what is decomposed changes nothing. -/
theorem of_blank {c : Char} (h : Decomposes s (m + 1) spans) (hc : s[m]? = some c)
    (hblank : isBlank c = true) : Decomposes s m spans where
  le_start p hp := (Nat.le_succ m).trans (h.le_start p hp)
  nonempty := h.nonempty
  ordered := h.ordered
  form := h.form
  apart := h.apart
  blank := by
    intro i d hi hd hnone
    rcases Nat.eq_or_lt_of_le hi with rfl | hlt
    · rw [hc] at hd
      cases hd
      exact hblank
    · exact h.blank i d hlt hd hnone

/-- A token before what is decomposed is one span more.  If it is a word, the text must not go on
with a character of a word. -/
theorem cons {f : Span.Form} (h : Decomposes s p.stop spans) (hpos : p.start < p.stop)
    (hform : p.HasForm s f) (hword : f = .word → ∀ c, s[p.stop]? = some c → isPlain c = false) :
    Decomposes s p.start (p :: spans) where
  le_start := by
    rw [List.forall_mem_cons]
    exact ⟨Nat.le_refl _, fun q hq => hpos.le.trans (h.le_start q hq)⟩
  nonempty := List.forall_mem_cons.2 ⟨hpos, h.nonempty⟩
  ordered := List.pairwise_cons.2 ⟨h.le_start, h.ordered⟩
  form := List.forall_mem_cons.2
    ⟨⟨f, hform, fun _ hg => hg.form_eq hform hpos hpos rfl⟩, h.form⟩
  apart := by
    have hafter : ∀ q ∈ spans, p.stop ≤ q.start ∧ q.start < q.stop := fun q hq =>
      ⟨h.le_start q hq, h.nonempty q hq⟩
    rintro q (_ | ⟨_, hq⟩) r (_ | ⟨_, hr⟩) hqw hrw
    · exact hpos.ne'
    · intro heq
      obtain ⟨c, hc, hplain⟩ := hrw.exists_starts (hafter r hr).2
      obtain rfl : f = .word := hform.form_eq hqw hpos hpos rfl
      rw [← heq] at hc
      simp [Span.Form.starts, hword rfl c hc] at hplain
    · have := hafter q hq
      omega
    · exact h.apart q hq r hr hqw hrw
  blank := by
    intro i c hi hc hnone
    rw [List.forall_mem_cons] at hnone
    have hstop : p.stop ≤ i := by
      by_contra hlt
      exact hnone.1 ⟨hi, Nat.lt_of_not_le hlt⟩
    exact h.blank i c hstop hc hnone.2

end Decomposes

/-! ### The tokens and their spans -/

section
variable {s t r : Text} {m : Nat}

/-- Reading on after a token. -/
theorem Text.drop_add_length (h : s.drop m = t ++ r) : s.drop (m + t.length) = r := by
  rw [← List.drop_drop, h, List.drop_left]

/-- What stands on the span of a token is the token. -/
theorem Text.slice_add_length (h : s.drop m = t ++ r) :
    slice s m ((m + t.length : Nat) : Int) = t := by
  rw [slice_natCast, List.drop_take, h, Nat.add_sub_cancel_left, List.take_left]

/-- Positions in the text and in what is left of it. -/
theorem Text.getElem?_add (h : s.drop m = t ++ r) (i : Nat) : s[m + i]? = (t ++ r)[i]? := by
  rw [← h, List.getElem?_drop]

/-- A token does not go beyond the end of the text. -/
theorem Text.add_length_le (h : s.drop m = t ++ r) (ht : t ≠ []) : m + t.length ≤ s.length := by
  have hlength := congrArg List.length h
  rw [List.length_drop, List.length_append] at hlength
  have hpos := List.length_pos_iff.2 ht
  omega

/-- A run of characters that can stand in a word has the form of one. -/
theorem Span.hasForm_word (h : s.drop m = t ++ r) (hplain : ∀ c ∈ t, isPlain c = true) :
    Span.HasForm s ⟨m, m + t.length⟩ .word := by
  intro i hstart hstop
  obtain ⟨j, rfl⟩ := Nat.exists_eq_add_of_le hstart
  have hj : j < t.length := Nat.lt_of_add_lt_add_left hstop
  refine ⟨t[j], ?_, hplain _ (List.getElem_mem hj)⟩
  rw [Text.getElem?_add h, List.getElem?_append_left hj, List.getElem?_eq_getElem hj]

/-- The tokens of a text that begins with a token, on their spans. -/
theorem exists_decomposes_append (h : s.drop m = t ++ r) (ht : t ≠ []) {f : Span.Form}
    (hform : Span.HasForm s ⟨m, m + t.length⟩ f)
    (hword : f = .word → ∀ c ∈ r.head?, isPlain c = false)
    (ih : ∃ spans, Decomposes s (m + t.length) spans ∧
      tokenize r = spans.map fun p => slice s p.start p.stop) :
    ∃ spans, Decomposes s m spans ∧
      t :: tokenize r = spans.map fun p => slice s p.start p.stop := by
  obtain ⟨spans, hspans, htokens⟩ := ih
  refine ⟨⟨m, m + t.length⟩ :: spans, hspans.cons (p := ⟨m, m + t.length⟩) ?_ hform ?_, ?_⟩
  · exact Nat.lt_add_of_pos_right (List.length_pos_iff.2 ht)
  · intro hf c hc
    -- the character after the span is the first one of the rest
    refine hword hf c ?_
    rw [Text.getElem?_add h, List.getElem?_append_right (Nat.le_refl _), Nat.sub_self] at hc
    rwa [List.head?_eq_getElem?]
  · rw [List.map_cons, htokens, Text.slice_add_length h]

/-- The tokens from the position `m` on are what stands on the spans from there on. -/
theorem exists_decomposes (hm : m ≤ s.length) :
    ∃ spans, Decomposes s m spans ∧
      tokenize (s.drop m) = spans.map fun p => slice s p.start p.stop := by
  generalize hrest : s.drop m = r
  -- along the tokens; what is left of the text begins at the position `m` throughout
  fun_induction tokenize r generalizing m with
  | case1 =>
    obtain rfl : m = s.length := Nat.le_antisymm hm (List.drop_eq_nil_iff.1 hrest)
    exact ⟨[], .nil s, rfl⟩
  | case2 c r hquote ih =>
    have hsplit : s.drop m = (c :: r.take (spanLength c r)) ++ r.drop (spanLength c r) := by
      rw [hrest, List.cons_append, List.take_append_drop]
    have hhead : s[m]? = some c := Text.getElem?_add (m := m) hsplit 0
    have hlength : (c :: r.take (spanLength c r)).length = spanLength c r + 1 := by
      rw [List.length_cons, List.length_take, Nat.min_eq_left (spanLength_le_length c r)]
    refine exists_decomposes_append hsplit (List.cons_ne_nil _ _) (f := .quoted) ?_ nofun ?_
    · refine ⟨c, hhead, hquote, ?_⟩
      have hafter : s.drop (m + 1) = r := Text.drop_add_length (t := [c]) hrest
      rw [spanEnd_of_getElem? hhead, hafter, hlength, Nat.add_right_comm, Nat.add_assoc]
    · exact ih (Text.add_length_le hsplit (List.cons_ne_nil _ _)) (Text.drop_add_length hsplit)
  | case3 c r hquote hblank ih =>
    have hsplit : s.drop m = [c] ++ r := hrest
    obtain ⟨spans, hspans, htokens⟩ :=
      ih (Text.add_length_le hsplit (List.cons_ne_nil _ _)) (Text.drop_add_length hsplit)
    exact ⟨spans, hspans.of_blank (Text.getElem?_add (m := m) hsplit 0) hblank, htokens⟩
  | case4 c r hquote hblank hmark ih =>
    have hsplit : s.drop m = [c] ++ r := hrest
    refine exists_decomposes_append hsplit (List.cons_ne_nil _ _) (f := .mark) ?_ nofun ?_
    · exact ⟨rfl, c, Text.getElem?_add (m := m) hsplit 0, hmark⟩
    · exact ih (Text.add_length_le hsplit (List.cons_ne_nil _ _)) (Text.drop_add_length hsplit)
  | case5 c r hquote hblank hmark ih =>
    have hc : isPlain c = true := by simp [isPlain, hquote, hblank, hmark]
    have hsplit : s.drop m = (c :: r.takeWhile isPlain) ++ r.dropWhile isPlain := by
      rw [hrest, List.cons_append, List.takeWhile_append_dropWhile]
    refine exists_decomposes_append hsplit (List.cons_ne_nil _ _) (f := .word) ?_ ?_ ?_
    · refine Span.hasForm_word hsplit (List.forall_mem_cons.2 ⟨hc, ?_⟩)
      intro d hd
      exact List.mem_takeWhile_imp hd
    · intro _ d hd
      have hhead := List.head?_dropWhile_not isPlain r
      rw [hd] at hhead
      simpa using hhead
    · exact ih (Text.add_length_le hsplit (List.cons_ne_nil _ _)) (Text.drop_add_length hsplit)

end

/-- The tokens of a text are what stands on spans of its positions.  The spans come in order and do
not overlap; each one is a punctuation mark, a quoted span as far as it goes, or a word, and no two
words touch; what is on none of them is blank.  There is no other such list of spans. -/
theorem tokenize_eq_map_slice (s : Text) :
    ∃ spans, Decomposes s 0 spans ∧ (tokenize s = spans.map fun p => slice s p.start p.stop) ∧
      ∀ spans', Decomposes s 0 spans' → spans' = spans := by
  obtain ⟨spans, hspans, htokens⟩ := exists_decomposes (s := s) (Nat.zero_le _)
  exact ⟨spans, hspans, htokens, fun _ h' => h'.unique hspans⟩

end SqlTidy
