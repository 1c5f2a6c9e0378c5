import Mathlib.Data.List.Infix
import SqlTidy.Text.Cut

/-!
# Marked texts

A marked text is a text some of whose parts are taken as single symbols: the matches that a
recogniser found in it.  Written with the matched texts it is the text itself, written with other
texts in their place it is what a substitution makes of it.  A cut and a marked text say the same;
the cut is made of gaps and hits, the marked text is one list, along which an induction can run.

## Main definitions

* `Symbol`, `Marked` — a character or a hit, and a list of these.
* `Marked.spell f m` — the text of `m` with every hit written as `f` says.
* `Cut.symbols`, `Marked.cut` — from cuts to marked texts and back.
* `Marked.mapGaps f m` — every gap between two hits rewritten by `f`.
* `Recogniser.Scans R m` — read from the left, the text of `m` shows `R` the hits of `m` and no
  other.

## Main results

* `Recogniser.cut_text_of_scans`, `Recogniser.scans_symbols_cut` — a marked text is scanned right if
  and only if it is the cut of its own text.
* `Cut.infix_gap_of_infix_symbols` — a row of characters in a marked text lies in one of its gaps.
-/

namespace SqlTidy

/-- A symbol of a marked text. -/
inductive Symbol (α : Type)
  /-- A character. -/
  | char (c : Char)
  /-- A match, taken as a whole. -/
  | hit (h : Hit α)
  deriving DecidableEq, Repr

/-- A text some of whose parts are taken as single symbols. -/
abbrev Marked (α : Type) := List (Symbol α)

variable {α β : Type}

namespace Symbol

/-- A symbol as a text, a hit being written as `f` says. -/
def spell (f : Hit α → Text) : Symbol α → Text
  | char c => [c]
  | hit h => f h

/-- A symbol with its hit changed by `f`. -/
def mapHit (f : Hit α → Hit β) : Symbol α → Symbol β
  | char c => char c
  | hit h => hit (f h)

end Symbol

namespace Marked

/-- The text of a marked text, every hit being written as `f` says. -/
def spell (f : Hit α → Text) (m : Marked α) : Text := m.flatMap (Symbol.spell f)

/-- The text of a marked text, with the matched texts in it. -/
abbrev text (m : Marked α) : Text := spell Hit.text m

/-- A text without hits. -/
def ofText (s : Text) : Marked α := s.map .char

/-- A marked text with its hits changed by `f`. -/
def mapHits (f : Hit α → Hit β) (m : Marked α) : Marked β := m.map (Symbol.mapHit f)

/-- The hits of a marked text in order. -/
def hits : Marked α → List (Hit α)
  | [] => []
  | .char _ :: m => hits m
  | .hit h :: m => h :: hits m

@[simp] theorem spell_nil (f : Hit α → Text) : spell f [] = [] := rfl

@[simp] theorem spell_char (f : Hit α → Text) (c : Char) (m : Marked α) :
    spell f (.char c :: m) = c :: spell f m := rfl

@[simp] theorem spell_hit (f : Hit α → Text) (h : Hit α) (m : Marked α) :
    spell f (.hit h :: m) = f h ++ spell f m := rfl

@[simp] theorem spell_append (f : Hit α → Text) (m n : Marked α) :
    spell f (m ++ n) = spell f m ++ spell f n := by
  simp [spell]

/-- A text without hits is written as it is, whatever hits are written as. -/
@[simp] theorem spell_ofText (f : Hit α → Text) (s : Text) : spell f (ofText s) = s := by
  induction s with
  | nil => rfl
  | cons c s ih => simpa [ofText] using ih

@[simp] theorem ofText_nil : (ofText [] : Marked α) = [] := rfl

@[simp] theorem ofText_cons (c : Char) (s : Text) :
    (ofText (c :: s) : Marked α) = .char c :: ofText s := rfl

@[simp] theorem ofText_append (s t : Text) :
    (ofText (s ++ t) : Marked α) = ofText s ++ ofText t := by
  simp [ofText]

/-- A text without hits has none. -/
theorem hit_notMem_ofText (h : Hit α) (s : Text) : Symbol.hit h ∉ (ofText s : Marked α) := by
  simp [ofText]

@[simp] theorem mapHits_char (f : Hit α → Hit β) (c : Char) (m : Marked α) :
    mapHits f (.char c :: m) = .char c :: mapHits f m := rfl

@[simp] theorem mapHits_hit (f : Hit α → Hit β) (h : Hit α) (m : Marked α) :
    mapHits f (.hit h :: m) = .hit (f h) :: mapHits f m := rfl

/-- Changing the hits and writing them is writing them in another way. -/
theorem spell_mapHits (f : Hit α → Hit β) (g : Hit β → Text) (m : Marked α) :
    spell g (mapHits f m) = spell (g ∘ f) m := by
  induction m with
  | nil => rfl
  | cons a m ih =>
    cases a with
    | char c => simp [ih]
    | hit h => simp [ih]

/-- How hits are written matters for those that are there only. -/
theorem spell_congr {f g : Hit α → Text} {m : Marked α} (h : ∀ x ∈ hits m, f x = g x) :
    spell f m = spell g m := by
  induction m with
  | nil => rfl
  | cons a m ih =>
    cases a with
    | char c => simp [ih h]
    | hit x =>
      simp only [hits, List.forall_mem_cons] at h
      simp [h.1, ih h.2]

theorem mapHits_append (f : Hit α → Hit β) (m n : Marked α) :
    mapHits f (m ++ n) = mapHits f m ++ mapHits f n :=
  List.map_append

theorem mapHits_mapHits {γ : Type} (f : Hit α → Hit β) (g : Hit β → Hit γ) (m : Marked α) :
    mapHits g (mapHits f m) = mapHits (g ∘ f) m := by
  induction m with
  | nil => rfl
  | cons a m ih => cases a <;> simp [ih]

/-- What is done to hits matters for those that are there only. -/
theorem mapHits_congr {f g : Hit α → Hit β} {m : Marked α} (h : ∀ x ∈ hits m, f x = g x) :
    mapHits f m = mapHits g m := by
  induction m with
  | nil => rfl
  | cons a m ih =>
    cases a with
    | char c => rw [mapHits_char, mapHits_char, ih h]
    | hit x =>
      obtain ⟨hx, hm⟩ := List.forall_mem_cons.1 h
      rw [mapHits_hit, mapHits_hit, hx, ih hm]

/-- The hits of a marked text are the symbols of that kind. -/
theorem mem_hits_iff {h : Hit α} {m : Marked α} : h ∈ hits m ↔ .hit h ∈ m := by
  induction m with
  | nil => simp [hits]
  | cons a m ih => cases a <;> simp [hits, ih]

theorem hits_mapHits (f : Hit α → Hit β) (m : Marked α) :
    hits (mapHits f m) = (hits m).map f := by
  induction m with
  | nil => rfl
  | cons a m ih =>
    cases a with
    | char c => exact ih
    | hit h => rw [mapHits_hit, hits, hits, List.map_cons, ih]

@[simp] theorem hits_append (m n : Marked α) : hits (m ++ n) = hits m ++ hits n := by
  induction m with
  | nil => rfl
  | cons a m ih => cases a <;> simp [hits, ih]

@[simp] theorem hits_ofText (s : Text) : hits (ofText s : Marked α) = [] := by
  induction s with
  | nil => rfl
  | cons c s ih => simpa [hits] using ih

/-- A marked text as a cut: characters go to the gap in front, and every hit begins a new piece. -/
def cut : Marked α → Cut α
  | [] => ⟨[], []⟩
  | .char c :: m => (cut m).push c
  | .hit h :: m => (cut m).pushHit h

end Marked

namespace Cut

/-- A cut as a marked text. -/
def symbols (k : Cut α) : Marked α :=
  (k.pieces.flatMap fun p => Marked.ofText p.1 ++ [.hit p.2]) ++ Marked.ofText k.rest

@[simp] theorem symbols_nil (s : Text) : (⟨[], s⟩ : Cut α).symbols = Marked.ofText s := rfl

@[simp] theorem symbols_cons (g : Text) (h : Hit α) (ps : List (Text × Hit α)) (s : Text) :
    (⟨(g, h) :: ps, s⟩ : Cut α).symbols =
      Marked.ofText g ++ .hit h :: (⟨ps, s⟩ : Cut α).symbols := by
  simp [symbols]

@[simp] theorem symbols_push (c : Char) (k : Cut α) :
    (k.push c).symbols = .char c :: k.symbols := by
  obtain ⟨_ | ⟨⟨g, h⟩, ps⟩, s⟩ := k <;> simp [push]

@[simp] theorem symbols_pushHit (h : Hit α) (k : Cut α) :
    (k.pushHit h).symbols = .hit h :: k.symbols := by
  simp [pushHit, symbols]

/-- A cut and its marked text have the same hits. -/
theorem hits_symbols (k : Cut α) : Marked.hits k.symbols = k.hits := by
  obtain ⟨ps, s⟩ := k
  induction ps with
  | nil => simp [Cut.hits]
  | cons p ps ih =>
    rw [symbols_cons, Marked.hits_append, Marked.hits_ofText, Marked.hits, ih]
    rfl

/-- A cut with its hits changed by `f`. -/
def mapHits (f : Hit α → Hit β) (k : Cut α) : Cut β :=
  ⟨k.pieces.map fun p => (p.1, f p.2), k.rest⟩

theorem gaps_mapHits (f : Hit α → Hit β) (k : Cut α) : (k.mapHits f).gaps = k.gaps := by
  simp [gaps, mapHits]

/-- A cut is known by its gaps and its hits.  There is one gap more than there are hits, and the
last one is the rest. -/
theorem eq_of_gaps_eq {k k' : Cut α} (hgaps : k.gaps = k'.gaps) (hhits : k.hits = k'.hits) :
    k = k' := by
  obtain ⟨ps, rest⟩ := k
  obtain ⟨ps', rest'⟩ := k'
  obtain ⟨hfst, hrest⟩ := List.append_inj' hgaps rfl
  obtain rfl : rest = rest' := by simpa using hrest
  have hpieces : ps = ps' := (List.zip_of_prod hfst hhits).trans (List.zip_of_prod rfl rfl).symm
  rw [hpieces]

/-- The text of a cut whose hits are written by `f`. -/
theorem joinWith_id (f : Hit α → Text) (k : Cut α) : k.joinWith id f = k.symbols.spell f := by
  obtain ⟨ps, s⟩ := k
  induction ps with
  | nil => simp [joinWith]
  | cons p ps ih =>
    rw [symbols_cons, Marked.spell_append, Marked.spell_ofText, Marked.spell_hit, ← ih]
    simp [joinWith]

/-- A cut makes up the text of its marked text. -/
theorem join_eq_text (k : Cut α) : k.join = k.symbols.text := joinWith_id _ k

end Cut

namespace Marked

/-- Cuts and marked texts are two forms of the same; this and `cut_symbols` say that nothing is lost
in either direction. -/
@[simp] theorem symbols_cut (m : Marked α) : (cut m).symbols = m := by
  induction m with
  | nil => rfl
  | cons a m ih => cases a <;> simp [cut, ih]

theorem cut_ofText (s : Text) : cut (ofText s : Marked α) = ⟨[], s⟩ := by
  induction s with
  | nil => rfl
  | cons c s ih => rw [ofText_cons, cut, ih]; rfl

/-- The cut of a gap, a hit and what follows.  With `cut_ofText` this gives the cut gap by gap,
where its definition goes character by character. -/
theorem cut_ofText_append_hit (g : Text) (h : Hit α) (m : Marked α) :
    cut (ofText g ++ .hit h :: m) = ⟨(g, h) :: (cut m).pieces, (cut m).rest⟩ := by
  induction g with
  | nil => rfl
  | cons c g ih => rw [ofText_cons, List.cons_append, cut, ih]; rfl

@[simp] theorem cut_symbols (k : Cut α) : cut k.symbols = k := by
  obtain ⟨ps, s⟩ := k
  induction ps with
  | nil => exact cut_ofText s
  | cons p ps ih => rw [Cut.symbols_cons, cut_ofText_append_hit, ih]

/-- Changing the hits of a marked text is changing those of its cut. -/
theorem cut_mapHits (f : Hit α → Hit β) (m : Marked α) : cut (mapHits f m) = (cut m).mapHits f := by
  induction m with
  | nil => rfl
  | cons a m ih =>
    cases a with
    | char c =>
      rw [mapHits_char, cut, cut, ih]
      obtain ⟨_ | ⟨p, ps⟩, rest⟩ := cut m <;> rfl
    | hit h => rw [mapHits_hit, cut, cut, ih]; rfl

/-- What is done to the hits does not touch the gaps. -/
theorem gaps_cut_mapHits (f : Hit α → Hit β) (m : Marked α) :
    (cut (mapHits f m)).gaps = (cut m).gaps := by
  rw [cut_mapHits, Cut.gaps_mapHits]

/-- A marked text and its cut have the same hits. -/
theorem hits_cut (m : Marked α) : (cut m).hits = hits m := by
  rw [← Cut.hits_symbols, symbols_cut]

/-- A marked text is a gap, or a gap, a hit and a shorter marked text.  This is the induction for
everything that is done gap by gap. -/
@[elab_as_elim] theorem gap_induction {motive : Marked α → Prop}
    (gap : ∀ g, motive (ofText g)) (hit : ∀ g h m, motive m → motive (ofText g ++ .hit h :: m))
    (m : Marked α) : motive m := by
  rw [← symbols_cut m]
  obtain ⟨ps, s⟩ := cut m
  induction ps with
  | nil => exact gap s
  | cons p ps ih =>
    rw [Cut.symbols_cons]
    exact hit p.1 p.2 _ ih

/-! ### Rewriting the gaps -/

/-- A marked text with every gap rewritten by `f`. -/
def mapGaps (f : Text → Text) (m : Marked α) : Marked α :=
  Cut.symbols ⟨(cut m).pieces.map fun p => (f p.1, p.2), f (cut m).rest⟩

/-- A text without hits is one gap. -/
theorem mapGaps_ofText (f : Text → Text) (g : Text) :
    mapGaps f (ofText g : Marked α) = ofText (f g) := by
  rw [mapGaps, cut_ofText]
  rfl

/-- The first gap is rewritten by itself, and the hit after it stays. -/
theorem mapGaps_ofText_append_hit (f : Text → Text) (g : Text) (h : Hit α) (m : Marked α) :
    mapGaps f (ofText g ++ .hit h :: m) = ofText (f g) ++ .hit h :: mapGaps f m := by
  rw [mapGaps, cut_ofText_append_hit, List.map_cons, Cut.symbols_cons]
  rfl

/-- Writing the gaps of a cut by `f` is writing the marked text with its gaps rewritten. -/
theorem joinWith_cut (f : Text → Text) (g : Hit α → Text) (m : Marked α) :
    (cut m).joinWith f g = spell g (mapGaps f m) := by
  induction m using gap_induction with
  | gap s => rw [cut_ofText, mapGaps_ofText, spell_ofText]; rfl
  | hit s h m ih =>
    rw [cut_ofText_append_hit, mapGaps_ofText_append_hit, spell_append, spell_ofText, spell_hit,
      ← ih]
    simp [Cut.joinWith]

/-- Rewriting the gaps twice is rewriting them once. -/
theorem mapGaps_mapGaps (f g : Text → Text) (m : Marked α) :
    mapGaps f (mapGaps g m) = mapGaps (f ∘ g) m := by
  induction m using gap_induction with
  | gap s => simp [mapGaps_ofText]
  | hit s h m ih => simp [mapGaps_ofText_append_hit, ih]

/-- The gaps of a marked text whose gaps have been rewritten. -/
theorem gaps_mapGaps (f : Text → Text) (m : Marked α) :
    (cut (mapGaps f m)).gaps = (cut m).gaps.map f := by
  rw [mapGaps, cut_symbols]
  simp [Cut.gaps, Function.comp_def]

/-- Rewriting the gaps leaves the hits alone. -/
theorem hits_mapGaps (f : Text → Text) (m : Marked α) : hits (mapGaps f m) = hits m := by
  induction m using gap_induction with
  | gap s => simp [mapGaps_ofText]
  | hit s h m ih => simp [mapGaps_ofText_append_hit, hits, ih]

/-- A hit separates what is rewritten on its two sides. -/
theorem mapGaps_append_hit (f : Text → Text) (m n : Marked α) (h : Hit α) :
    mapGaps f (m ++ .hit h :: n) = mapGaps f m ++ .hit h :: mapGaps f n := by
  induction m using gap_induction with
  | gap s => rw [mapGaps_ofText_append_hit, mapGaps_ofText]
  | hit s x m ih =>
    rw [List.append_assoc, List.cons_append, mapGaps_ofText_append_hit, ih,
      mapGaps_ofText_append_hit, List.append_assoc, List.cons_append]

/-- Where `f` leaves a character alone and works on both of its sides separately, so does rewriting
the gaps. -/
theorem mapGaps_append_char {f : Text → Text} {c : Char}
    (hf : ∀ x y, f (x ++ c :: y) = f x ++ c :: f y) (m n : Marked α) :
    mapGaps f (m ++ .char c :: n) = mapGaps f m ++ .char c :: mapGaps f n := by
  induction m using gap_induction with
  | gap s =>
    -- the gap goes on into `n`, up to its first hit
    have hsplit : ∀ g : Text,
        (ofText s ++ .char c :: ofText g : Marked α) = ofText (s ++ c :: g) := by
      intro g
      simp
    induction n using gap_induction with
    | gap g =>
      rw [hsplit, mapGaps_ofText, hf, mapGaps_ofText, mapGaps_ofText, ofText_append, ofText_cons]
    | hit g h n _ =>
      rw [← List.cons_append, ← List.append_assoc, hsplit, mapGaps_ofText_append_hit, hf,
        mapGaps_ofText_append_hit, mapGaps_ofText]
      simp
  | hit s h m ih =>
    rw [List.append_assoc, List.cons_append, mapGaps_ofText_append_hit, ih,
      mapGaps_ofText_append_hit, List.append_assoc, List.cons_append]

end Marked

/-! ### Rows of characters -/

/-- A list without `s` lies on one side of every `s`. -/
theorem infix_append_cons_iff {σ : Type} {x a b : List σ} {s : σ} (hs : s ∉ x) :
    x <:+: a ++ s :: b ↔ x <:+: a ∨ x <:+: b := by
  constructor
  · rintro ⟨u, v, huv⟩
    -- the row ends before the symbol, or the symbol comes before the end of the row
    rcases List.append_eq_append_iff.1 huv with ⟨d, rfl, rfl⟩ | ⟨d, hd, hb⟩
    · exact .inl ⟨u, d, rfl⟩
    · rcases d with _ | ⟨s', d⟩
      · exact .inl ⟨u, [], by simpa using hd⟩
      · obtain ⟨rfl, rfl⟩ : s = s' ∧ b = d ++ v := by simpa using hb
        -- then the row begins after the symbol, since the symbol is not in it
        rcases List.append_eq_append_iff.1 hd with ⟨e, rfl, rfl⟩ | ⟨e, rfl, he⟩
        · exact (hs (by simp)).elim
        · rcases e with _ | ⟨s', e⟩
          · rw [List.nil_append] at he
            exact (hs (he ▸ List.mem_cons_self)).elim
          · obtain ⟨rfl, rfl⟩ : s = s' ∧ d = e ++ x := by simpa using he
            exact .inr ⟨e, v, rfl⟩
  · rintro (h | h)
    · exact h.trans (List.prefix_append a _).isInfix
    · exact h.trans ((List.suffix_cons s b).trans (List.suffix_append a _)).isInfix

/-- A run ends before the first symbol that does not belong to it, so that nothing after such a
symbol matters. -/
theorem takeWhile_append_cons_of_neg {σ : Type} {p : σ → Bool} {s : σ} (hs : p s = false)
    (a b : List σ) : (a ++ s :: b).takeWhile p = a.takeWhile p := by
  induction a with
  | nil => simp [hs]
  | cons d a ih => simp [List.takeWhile_cons, ih]

/-- What comes after a run does not change with it either. -/
theorem dropWhile_append_cons_of_neg {σ : Type} {p : σ → Bool} {s : σ} (hs : p s = false)
    (a b : List σ) : (a ++ s :: b).dropWhile p = a.dropWhile p ++ s :: b := by
  induction a with
  | nil => simp [hs]
  | cons d a ih =>
    rw [List.cons_append, List.dropWhile_cons, List.dropWhile_cons, ih]
    split <;> rfl

/-- A row of characters in a marked text lies in one of its gaps. -/
theorem Cut.infix_gap_of_infix_symbols {k : Cut α} {x : Text}
    (h : (Marked.ofText x : Marked α) <:+: k.symbols) : ∃ g ∈ k.gaps, x <:+: g := by
  -- within one gap, symbols are characters
  have hchars : ∀ g : Text, (Marked.ofText x : Marked α) <:+: Marked.ofText g → x <:+: g := by
    rintro g ⟨u, v, huv⟩
    have := congrArg (Marked.spell fun _ => []) huv
    simp only [Marked.spell_append, Marked.spell_ofText] at this
    exact ⟨_, _, this⟩
  obtain ⟨ps, s⟩ := k
  induction ps with
  | nil => exact ⟨s, by simp [Cut.gaps], hchars s h⟩
  | cons p ps ih =>
    rw [symbols_cons, infix_append_cons_iff (Marked.hit_notMem_ofText _ _)] at h
    rcases h with h | h
    · exact ⟨p.1, by simp [Cut.gaps], hchars _ h⟩
    · obtain ⟨g, hg, hx⟩ := ih h
      exact ⟨g, by simpa [Cut.gaps] using Or.inr hg, hx⟩

/-- A character of a marked text stands in one of its gaps. -/
theorem Cut.mem_gap_of_mem_symbols {k : Cut α} {c : Char} (h : Symbol.char c ∈ k.symbols) :
    ∃ g ∈ k.gaps, c ∈ g := by
  obtain ⟨g, hg, hc⟩ := Cut.infix_gap_of_infix_symbols (k := k) (x := [c])
    (List.singleton_infix_iff _ _ |>.2 h)
  exact ⟨g, hg, List.singleton_infix_iff _ _ |>.1 hc⟩

/-! ### Scanning -/

namespace Recogniser

variable (R : Recogniser α)

/-- Read from the left, the text of a marked text shows the recogniser its hits and no other.  Every
character is looked at in front of what follows, so that a match which begins in a gap and runs into
a hit is excluded too. -/
def Scans : Marked α → Prop
  | [] => True
  | .char c :: m => R.read (c :: Marked.text m) = none ∧ Scans m
  | .hit h :: m => R.read (h.text ++ Marked.text m) = some (h.tag, h.text.length) ∧ Scans m

/-- What is scanned right is scanned right from any symbol on. -/
theorem Scans.of_append {R : Recogniser α} {m n : Marked α} (h : R.Scans (m ++ n)) : R.Scans n := by
  induction m with
  | nil => exact h
  | cons a m ih =>
    cases a with
    | char c => exact ih h.2
    | hit x => exact ih h.2

/-- A marked text that is scanned right is the cut of its own text.  This is how a cut is found
without running the scan: guess it, and check every symbol. -/
theorem cut_text_of_scans {m : Marked α} (h : R.Scans m) : R.cut (Marked.text m) = m.cut := by
  induction m with
  | nil => rw [Marked.text, Marked.spell_nil, cut_nil]; rfl
  | cons a m ih =>
    cases a with
    | char c => rw [Marked.text, Marked.spell_char, R.cut_of_read_eq_none h.1, ih h.2]; rfl
    | hit x =>
      -- the match is not empty, and the scan goes on right after it
      obtain ⟨hread, hm⟩ := h
      have hpos := R.pos hread
      obtain ⟨c, r, hx⟩ : ∃ c r, x.text = c :: r := by
        cases hx : x.text with
        | nil => simp [hx] at hpos
        | cons c r => exact ⟨c, r, rfl⟩
      rw [hx, List.cons_append] at hread
      rw [Marked.text, Marked.spell_hit, hx, List.cons_append, R.cut_of_read_eq_some hread,
        ← List.cons_append, List.drop_left, List.take_left, ih hm, ← hx]
      rfl

/-- The cut of a text is scanned right, if no match goes beyond the end of the text. -/
theorem scans_symbols_cut (hle : ∀ {s a n}, R.read s = some (a, n) → n ≤ s.length) (s : Text) :
    R.Scans (R.cut s).symbols := by
  fun_induction cut R s with
  | case1 => exact trivial
  | case2 c r a n h hpos ih =>
    rw [Cut.symbols_pushHit]
    refine ⟨?_, ih⟩
    rw [← Cut.join_eq_text, join_cut, List.take_append_drop, h, List.length_take,
      Nat.min_eq_left (hle h)]
  | case3 c r h ih =>
    rw [Cut.symbols_push]
    refine ⟨?_, ih⟩
    rw [← Cut.join_eq_text, join_cut, h]

end Recogniser
end SqlTidy
