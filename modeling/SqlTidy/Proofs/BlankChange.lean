import SqlTidy.Proofs.Absorption
import SqlTidy.Proofs.LetterCase
import SqlTidy.Proofs.OpenQuote
import SqlTidy.Proofs.RoundTrip
import SqlTidy.Proofs.TokenForm

/-!
# Blanks that do not matter

Blanks between words and marks say where a word ends and nothing else.  A run of blanks may become
another one, next to a punctuation mark and at both ends of a text blanks may come and go, and the
formatter does not notice: it is given the same tokens.  This holds for every text without open
quotes, also if its gaps look like placeholders.

## Main definitions

* `BlankStep first last g g'` — the gap `g'` is the gap `g` with other blanks in one place; `first`
  and `last` say whether the gap begins and ends the text.

## Main results

* `recase_append_stop` — a stop parts a text into two that are recased separately, whatever looks
  like a placeholder.
* `tokens_ready_of_quoteFree` — the tokens of a text without open quotes are those of the marked
  text, each of them recased.
* `BlankStep.tokens_eq`, `Cut.tokens_symbols_eq` — one step keeps the tokens, and so do steps in
  every gap.
* `format_of_blankSteps` — texts that differ in such blanks only are formatted to one text.
-/

namespace SqlTidy

open Literal (Kind)
open Relation (ReflTransGen)

/-! ### Placeholders and stops -/

namespace Placeholder

/-- No placeholder goes beyond a stop. -/
theorem read_append_stop {c : Char} (hc : isPlain c = false) (x y : Text) :
    read (x ++ c :: y) = read x := by
  have hiff : ∀ tag n, read (x ++ c :: y) = some (tag, n) ↔ read x = some (tag, n) := by
    intro tag n
    rw [read_eq_some_iff, read_eq_some_iff]
    constructor
    · rintro ⟨d, r, hd, heq, rfl⟩
      rcases List.append_eq_append_iff.1 heq with ⟨z, hz, hzr⟩ | ⟨z, rfl, -⟩
      · cases z with
        | nil => exact ⟨d, [], hd, by rw [hz, List.append_nil, List.append_nil], rfl⟩
        | cons e z =>
          -- the placeholder would hold the stop
          obtain rfl := (List.cons.inj hzr).1
          have := isPlain_of_mem_make (c := c) hd (by rw [hz]; simp)
          rw [hc] at this
          cases this
      · exact ⟨d, z, hd, rfl, rfl⟩
    · rintro ⟨d, r, hd, rfl, rfl⟩
      exact ⟨d, r ++ c :: y, hd, List.append_assoc _ _ _, rfl⟩
  cases hread : read x with
  | none =>
    rw [Option.eq_none_iff_forall_ne_some]
    rintro ⟨tag, n⟩ h
    rw [hiff, hread] at h
    cases h
  | some p => exact (hiff p.1 p.2).2 hread

/-- The placeholders of a text lie on both sides of a stop. -/
theorem symbols_cut_append_stop {c : Char} (hc : isPlain c = false) (x y : Text) :
    (cut (x ++ c :: y)).symbols = (cut x).symbols ++ .char c :: (cut y).symbols := by
  induction x using cut_induction with
  | nil =>
    rw [List.nil_append, cut_char, Cut.symbols_push, cut_nil]
    · rfl
    · exact read_append_stop hc [] y
  | placeholder tag d r hd ih =>
    rw [List.append_assoc, cut_make tag hd, cut_make tag hd, Cut.symbols_pushHit,
      Cut.symbols_pushHit, ih, List.cons_append]
  | char e r hread ih =>
    have hread' : read (e :: (r ++ c :: y)) = none := by
      rw [← List.cons_append, read_append_stop hc, hread]
    rw [List.cons_append, cut_char hread', cut_char hread, Cut.symbols_push, Cut.symbols_push, ih,
      List.cons_append]

end Placeholder

/-! ### Recasing between stops -/

/-- A stop parts a text into two that are recased separately. -/
theorem recase_append_stop (o : Options) {c : Char} (hc : isPlain c = false) (x y : Text) :
    recase o (x ++ c :: y) = recase o x ++ c :: recase o y := by
  rw [recase_eq_spell, Placeholder.symbols_cut_append_stop hc,
    Marked.recase_append_stop o _ _ (isPlain_eq_false_iff.1 hc), Marked.text, Marked.spell_append,
    Marked.spell_char, ← Marked.text, ← Marked.text, ← recase_eq_spell, ← recase_eq_spell]

/-- Nothing is recased to nothing. -/
theorem recase_nil (o : Options) : recase o [] = [] :=
  List.map_eq_nil_iff.1 (map_toLower_recase o [])

/-- A stop in front stays, and the rest is recased as if it stood alone. -/
theorem recase_cons_stop (o : Options) {c : Char} (hc : isPlain c = false) (y : Text) :
    recase o (c :: y) = c :: recase o y := by
  have := recase_append_stop o hc [] y
  rwa [List.nil_append, recase_nil, List.nil_append] at this

/-- A word with placeholders in it is still a word when it is recased. -/
theorem isPlain_of_mem_recase_spell {α : Type} {f : Hit α → Text} (hf : Wordlike f) (o : Options)
    {w : Marked α} (hw : w.IsWord) :
    recase o (w.spell f) ≠ [] ∧ ∀ c ∈ recase o (w.spell f), isPlain c = true := by
  have hlower := map_toLower_recase o (w.spell f)
  have hplain : ∀ c ∈ w.spell f, isPlain c = true := by
    intro c hc
    obtain ⟨a, ha, hca⟩ := List.mem_flatMap.1 hc
    cases a with
    | char d =>
      obtain rfl : c = d := List.mem_singleton.1 hca
      exact hw.2 _ ha
    | hit h => exact hf.plain h c hca
  constructor
  · intro hnil
    rw [hnil] at hlower
    have hspell : w.spell f = [] := List.map_eq_nil_iff.1 hlower.symm
    obtain ⟨a, w, rfl⟩ := List.exists_cons_of_ne_nil hw.1
    cases a with
    | char c => cases hspell
    | hit h => exact hf.ne_nil h (List.append_eq_nil_iff.1 hspell).1
  · exact forall_class_of_map_toLower_eq isPlain_case hlower.symm hplain

/-- Recasing a text with placeholders recases its tokens, whatever looks like a placeholder. -/
theorem tokenize_recase_spell {α : Type} {f : Hit α → Text} (hf : Wordlike f) (o : Options)
    {m : Marked α} (hm : m.QuoteFree) :
    tokenize (recase o (m.spell f)) = m.tokens.map fun t => recase o (t.spell f) := by
  induction m using Marked.token_induction with
  | nil => rw [Marked.tokens_nil, Marked.spell_nil, recase_nil, tokenize_nil, List.map_nil]
  | quote c m hc =>
    have := hm _ List.mem_cons_self
    simp [hc] at this
  | blank c m hc ih =>
    rw [Marked.spell_char, recase_cons_stop o (isPlain_of_isBlank hc),
      tokenize_blank _ (isQuote_of_isBlank hc) hc, ih (List.forall_mem_cons.1 hm).2,
      Marked.tokens_blank hc]
  | mark c m hc ih =>
    have hplain := isPlain_of_isPunctuation hc
    rw [Marked.spell_char, recase_cons_stop o hplain, tokenize_mark_cons hc,
      ih (List.forall_mem_cons.1 hm).2, Marked.tokens_mark hc, List.map_cons, Marked.spell_char,
      recase_cons_stop o hplain, Marked.spell_nil, recase_nil]
  | word w m hw hstop ih =>
    obtain ⟨hne, hplain⟩ := isPlain_of_mem_recase_spell hf o hw
    rw [Marked.tokens_word hw hstop, List.map_cons, ← ih hm.of_append.2]
    cases m with
    | nil =>
      have := tokenize_word_append hne hplain (r := []) (by simp)
      simpa [recase_nil] using this
    | cons a m =>
      cases a with
      | hit h => cases hstop _ rfl
      | char c =>
        -- the word ends at a stop, which separates it from the rest also when they are recased
        have hc : isPlain c = false := hstop _ rfl
        rw [Marked.spell_append, Marked.spell_char, recase_append_stop o hc, recase_cons_stop o hc,
          tokenize_word_append hne hplain (by simpa using hc)]

/-- The tokens of a text without open quotes are those of the marked text, each of them recased. -/
theorem tokens_ready_of_quoteFree (o : Options) {s : Text} (hs : (marked s).QuoteFree) :
    (ready o s).tokens = (marked s).tokens.map fun t => recase o (t.spell Draft.placeholder) := by
  have hcollapse := (Draft.represents_preserve s).collapse.text_eq
  have hfree : (marked s).collapse.QuoteFree :=
    (hs.squeezeFrom false).of_isInfix (Marked.collapse_isInfix _)
  have htokens : (ready o s).tokens =
      tokenize (recase o ((marked s).collapse.spell Draft.placeholder)) := by
    rw [← hcollapse]
    rfl
  rw [htokens, tokenize_recase_spell Draft.wordlike_placeholder o hfree, Marked.tokens_collapse hs]

/-! ### Steps in a gap -/

/-- The gap `g'` is the gap `g` with other blanks in one place.  Where the text begins or ends with
the gap, blanks may come and go at its ends. -/
inductive BlankStep (first last : Prop) : Text → Text → Prop
  /-- A run of blanks becomes another one. -/
  | run {w w' : Text} (a b : Text) : w ≠ [] → w' ≠ [] → Text.isAllBlank w = true →
    Text.isAllBlank w' = true → BlankStep first last (a ++ (w ++ b)) (a ++ (w' ++ b))
  /-- Blanks change after a punctuation mark. -/
  | afterMark {c : Char} {w w' : Text} (a b : Text) : isPunctuation c = true →
    Text.isAllBlank w = true → Text.isAllBlank w' = true →
    BlankStep first last (a ++ c :: (w ++ b)) (a ++ c :: (w' ++ b))
  /-- Blanks change before a punctuation mark. -/
  | beforeMark {c : Char} {w w' : Text} (a b : Text) : isPunctuation c = true →
    Text.isAllBlank w = true → Text.isAllBlank w' = true →
    BlankStep first last (a ++ (w ++ c :: b)) (a ++ (w' ++ c :: b))
  /-- Blanks change at the beginning of the text. -/
  | start {w w' : Text} (b : Text) : first → Text.isAllBlank w = true →
    Text.isAllBlank w' = true → BlankStep first last (w ++ b) (w' ++ b)
  /-- Blanks change at the end of the text. -/
  | stop {w w' : Text} (a : Text) : last → Text.isAllBlank w = true →
    Text.isAllBlank w' = true → BlankStep first last (a ++ w) (a ++ w')

variable {α : Type} {first last : Prop} {g g' : Text} {m n : Marked α}

namespace Marked

/-- A text without hits has no quotes if none of its characters is one. -/
theorem quoteFree_ofText_iff :
    (ofText g : Marked α).QuoteFree ↔ ∀ c ∈ g, Text.isQuote c = false := by
  simp [QuoteFree, ofText]

/-- At the end of a text no word goes on. -/
theorem stopped_nil : Stopped ([] : Marked α) := by simp [Stopped]

/-- No word goes on with a mark. -/
theorem stopped_mark {c : Char} (hc : isPunctuation c = true) (n : Marked α) :
    Stopped (.char c :: n) := by
  simpa [Stopped] using isPlain_of_isPunctuation hc

/-- Blanks that do not go on with a word add no token. -/
theorem tokens_append_blanks (hm : m.QuoteFree) {w : Text} (hw : Text.isAllBlank w = true)
    (hstop : w ≠ [] ∨ n.Stopped) : tokens (m ++ (ofText w ++ n)) = tokens m ++ tokens n := by
  have hstopped : Stopped (ofText w ++ n) := by
    cases w with
    | nil => exact hstop.resolve_left fun h => h rfl
    | cons c w =>
      have hc := (Bool.and_eq_true_iff.1 hw).1
      simpa [Stopped] using isPlain_of_isBlank hc
  rw [tokens_append hm hstopped, tokens_blank_append (isBlank_of_mem_ofText hw)]

end Marked

namespace BlankStep

/-- A step brings nothing but blanks. -/
theorem mem_or_isBlank (h : BlankStep first last g g') {c : Char} (hc : c ∈ g') :
    c ∈ g ∨ Text.isBlank c = true := by
  have hblank : ∀ w : Text, Text.isAllBlank w = true → c ∈ w → Text.isBlank c = true :=
    fun w hw hc => List.all_eq_true.1 hw c hc
  -- in each of the five cases, what is new are the blanks that are put in
  cases h <;> grind

/-- A step brings no quotes. -/
theorem isQuote_of_mem (h : BlankStep first last g g') (hg : ∀ c ∈ g, Text.isQuote c = false) :
    ∀ c ∈ g', Text.isQuote c = false := by
  intro c hc
  rcases h.mem_or_isBlank hc with hc | hc
  · exact hg c hc
  · exact isQuote_of_isBlank hc

/-- A step in a gap keeps the tokens of the text around it. -/
theorem tokens_eq (h : BlankStep first last g g') (hm : m.QuoteFree)
    (hg : ∀ c ∈ g, Text.isQuote c = false) (hfirst : first → m = []) (hlast : last → n = []) :
    (m ++ (.ofText g ++ n)).tokens = (m ++ (.ofText g' ++ n)).tokens := by
  -- the text before the place of the change has no quotes
  have hfree : ∀ {a b : Text}, g = a ++ b → (m ++ .ofText a).QuoteFree := by
    rintro a b rfl
    refine List.forall_mem_append.2 ⟨hm, Marked.quoteFree_ofText_iff.2 fun c hc => ?_⟩
    exact hg c (List.mem_append_left b hc)
  -- the blanks stand after something that a word does not go on from, or before it, so that they
  -- set nothing apart
  cases h with
  | run a b hw hw' hblank hblank' =>
    have hbefore := hfree rfl
    simp only [Marked.ofText_append, List.append_assoc]
    rw [← List.append_assoc m, ← List.append_assoc m,
      Marked.tokens_append_blanks hbefore hblank (.inl hw),
      Marked.tokens_append_blanks hbefore hblank' (.inl hw')]
  | afterMark a b hc hblank hblank' =>
    have hbefore := hfree rfl
    simp only [Marked.ofText_append, Marked.ofText_cons, List.append_assoc, List.cons_append]
    rw [← List.append_assoc m, ← List.append_assoc m,
      Marked.tokens_append hbefore (Marked.stopped_mark hc _),
      Marked.tokens_append hbefore (Marked.stopped_mark hc _), Marked.tokens_mark hc,
      Marked.tokens_mark hc, Marked.tokens_blank_append (Marked.isBlank_of_mem_ofText hblank),
      Marked.tokens_blank_append (Marked.isBlank_of_mem_ofText hblank')]
  | beforeMark a b hc hblank hblank' =>
    have hbefore := hfree rfl
    simp only [Marked.ofText_append, Marked.ofText_cons, List.append_assoc, List.cons_append]
    rw [← List.append_assoc m, ← List.append_assoc m,
      Marked.tokens_append_blanks hbefore hblank (.inr (Marked.stopped_mark hc _)),
      Marked.tokens_append_blanks hbefore hblank' (.inr (Marked.stopped_mark hc _))]
  | start b hbegins hblank hblank' =>
    rw [hfirst hbegins, List.nil_append, List.nil_append, Marked.ofText_append,
      Marked.ofText_append, List.append_assoc, List.append_assoc,
      Marked.tokens_blank_append (Marked.isBlank_of_mem_ofText hblank),
      Marked.tokens_blank_append (Marked.isBlank_of_mem_ofText hblank')]
  | stop a hends hblank hblank' =>
    have hbefore := hfree rfl
    rw [hlast hends]
    simp only [Marked.ofText_append, List.append_assoc]
    rw [← List.append_assoc m, ← List.append_assoc m,
      Marked.tokens_append_blanks hbefore hblank (.inr Marked.stopped_nil),
      Marked.tokens_append_blanks hbefore hblank' (.inr Marked.stopped_nil)]

/-- Any number of steps in a gap keep the tokens of the text around it, and bring no quotes. -/
theorem tokens_eq_of_steps (h : ReflTransGen (BlankStep first last) g g') (hm : m.QuoteFree)
    (hg : ∀ c ∈ g, Text.isQuote c = false) (hfirst : first → m = []) (hlast : last → n = []) :
    (m ++ (.ofText g ++ n)).tokens = (m ++ (.ofText g' ++ n)).tokens ∧
      ∀ c ∈ g', Text.isQuote c = false := by
  induction h with
  | refl => exact ⟨rfl, hg⟩
  | tail _ hstep ih =>
    exact ⟨ih.1.trans (hstep.tokens_eq hm ih.2 hfirst hlast), hstep.isQuote_of_mem ih.2⟩

end BlankStep

/-! ### Steps in every gap -/

/-- Cuts with the same hits and steps from gap to gap have the same tokens, and no quotes.  The gaps
are numbered from `j` on, and `m` is what comes before them. -/
theorem Cut.tokens_symbols_eq {k k' : Cut α} (hhits : k.hits = k'.hits)
    (hquote : ∀ g ∈ k.gaps, ∀ c ∈ g, Text.isQuote c = false) {j : Nat} (hm : m.QuoteFree)
    (hj : j = 0 → m = [])
    (hgaps : ∀ i g g', k.gaps[i]? = some g → k'.gaps[i]? = some g' →
      ReflTransGen (BlankStep (j + i = 0) (i = k.hits.length)) g g') :
    (m ++ k.symbols).tokens = (m ++ k'.symbols).tokens ∧ k'.symbols.QuoteFree := by
  obtain ⟨ps, rest⟩ := k
  obtain ⟨ps', rest'⟩ := k'
  -- gap by gap from the left; the gaps that are done are part of `m`, and only the first one of all
  -- may lose its blanks in front
  induction ps generalizing j m ps' with
  | nil =>
    obtain rfl : ps' = [] := by simpa [Cut.hits] using hhits.symm
    have hrest := hquote rest (by simp [Cut.gaps])
    obtain ⟨heq, hrest'⟩ := BlankStep.tokens_eq_of_steps (n := []) (hgaps 0 rest rest' rfl rfl) hm
      hrest hj fun _ => rfl
    rw [List.append_nil, List.append_nil] at heq
    exact ⟨heq, Marked.quoteFree_ofText_iff.2 hrest'⟩
  | cons p ps ih =>
    cases ps' with
    | nil => simp [Cut.hits] at hhits
    | cons p' ps' =>
      obtain ⟨g, h⟩ := p
      obtain ⟨g', h'⟩ := p'
      obtain ⟨rfl, htail⟩ : h = h' ∧ (⟨ps, rest⟩ : Cut α).hits = (⟨ps', rest'⟩ : Cut α).hits := by
        simpa [Cut.hits] using hhits
      obtain ⟨heq, hg'⟩ := BlankStep.tokens_eq_of_steps (n := .hit h :: symbols ⟨ps, rest⟩)
        (hgaps 0 g g' rfl rfl) hm (hquote g (by simp [Cut.gaps])) hj (by simp [Cut.hits])
      -- the gap and its hit now belong to what comes before
      have hgap : Marked.QuoteFree (Marked.ofText g' ++ [.hit h]) :=
        List.forall_mem_append.2 ⟨Marked.quoteFree_ofText_iff.2 hg', by simp⟩
      have hbefore : Marked.QuoteFree (m ++ (Marked.ofText g' ++ [.hit h])) :=
        List.forall_mem_append.2 ⟨hm, hgap⟩
      have hquote' : ∀ x ∈ (⟨ps, rest⟩ : Cut α).gaps, ∀ c ∈ x, Text.isQuote c = false :=
        fun x hx => hquote x (List.mem_cons_of_mem g hx)
      have hsteps : ∀ i x x', (⟨ps, rest⟩ : Cut α).gaps[i]? = some x →
          (⟨ps', rest'⟩ : Cut α).gaps[i]? = some x' →
          ReflTransGen (BlankStep (j + 1 + i = 0) (i = (⟨ps, rest⟩ : Cut α).hits.length)) x x' := by
        intro i x x' hx hx'
        simpa [Cut.hits] using hgaps (i + 1) x x' hx hx'
      obtain ⟨hrest, hfree⟩ := ih hbefore (by simp) hquote' ps' htail hsteps
      constructor
      · rw [symbols_cons, symbols_cons, heq]
        simpa using hrest
      · rw [symbols_cons, List.append_cons]
        exact List.forall_mem_append.2 ⟨hgap, hfree⟩

/-- Numbered hits, written out. -/
theorem Marked.hits_number (j : Nat) (m : Marked α) :
    hits (number j m) = ((hits m).zipIdx j).map fun p => ⟨(p.1.tag, p.2), p.1.text⟩ := by
  induction m generalizing j with
  | nil => rfl
  | cons a m ih =>
    cases a with
    | char c => exact ih j
    | hit h => rw [number, hits, hits, ih, List.zipIdx_cons, List.map_cons]

section TwoRuns

variable {o : Options} {s s' : Text}

/-- Texts with the same literals have the same numbered literals. -/
theorem hits_marked_eq (hhits : (Literal.cut s).hits = (Literal.cut s').hits) :
    (marked s).hits = (marked s').hits := by
  rw [marked, marked, Marked.hits_number, Marked.hits_number, Cut.hits_symbols, Cut.hits_symbols,
    hhits]

/-- Texts with the same literals have the same tables of literals. -/
theorem literals_ready_eq (hhits : (Literal.cut s).hits = (Literal.cut s').hits) :
    (ready o s).literals = (ready o s').literals := by
  have hliterals : ∀ s, (ready o s).literals =
      (marked s).hits.map fun h => (Draft.placeholder h, h.text) := fun s =>
    (Draft.represents_preserve s).literals_eq
  rw [hliterals, hliterals, hits_marked_eq hhits]

/-- Texts with the same literals have the same line comments. -/
theorem lineComments_ready_eq (hhits : (Literal.cut s).hits = (Literal.cut s').hits) :
    (ready o s).lineComments = (ready o s').lineComments := by
  have hcomments : ∀ s, (ready o s).lineComments =
      (((marked s).hits.filter Hit.isLine).map Draft.placeholder).reverse := fun s =>
    (Draft.represents_preserve s).lineComments_eq
  rw [hcomments, hcomments, hits_marked_eq hhits]

/-- Numbers do not change the gaps. -/
theorem gaps_cut_marked (s : Text) : (marked s).cut.gaps = (Literal.cut s).gaps := by
  rw [cut_eq_marked, Marked.gaps_cut_mapHits]

/-- Texts with the same literals and steps from gap to gap have the same tokens. -/
theorem tokens_marked_eq (hhits : (Literal.cut s).hits = (Literal.cut s').hits)
    (hquote : ∀ g ∈ (Literal.cut s).gaps, ∀ c ∈ g, Text.isQuote c = false)
    (hgaps : ∀ i g g', (Literal.cut s).gaps[i]? = some g → (Literal.cut s').gaps[i]? = some g' →
      ReflTransGen (BlankStep (i = 0) (i = (Literal.cut s).hits.length)) g g') :
    (marked s).tokens = (marked s').tokens ∧ (marked s').QuoteFree := by
  have hlength : (marked s).cut.hits.length = (Literal.cut s).hits.length := by
    rw [Marked.hits_cut, marked, Marked.hits_number, List.length_map, List.length_zipIdx,
      Cut.hits_symbols]
  have hsteps : ∀ i g g', (marked s).cut.gaps[i]? = some g → (marked s').cut.gaps[i]? = some g' →
      ReflTransGen (BlankStep (0 + i = 0) (i = (marked s).cut.hits.length)) g g' := by
    intro i g g'
    rw [gaps_cut_marked, gaps_cut_marked, hlength, Nat.zero_add]
    exact hgaps i g g'
  have := Cut.tokens_symbols_eq (m := []) (by rw [Marked.hits_cut, Marked.hits_cut,
    hits_marked_eq hhits]) (by rwa [gaps_cut_marked]) (by simp [Marked.QuoteFree]) (fun _ => rfl)
    hsteps
  rwa [List.nil_append, List.nil_append, Marked.symbols_cut, Marked.symbols_cut] at this

/-- Blanks that set nothing apart do not matter: texts with the same literals and without open
quotes, whose gaps differ in such blanks only, have the same tokens and are formatted to one
text. -/
theorem format_of_blankSteps (hs : Text.isAllBlank s = false) (hs' : Text.isAllBlank s' = false)
    (hhits : (Literal.cut s).hits.map Hit.text = (Literal.cut s').hits.map Hit.text)
    (hquote : ∀ g ∈ (Literal.cut s).gaps, ∀ c ∈ g, Text.isQuote c = false)
    (hgaps : ∀ i g g', (Literal.cut s).gaps[i]? = some g → (Literal.cut s').gaps[i]? = some g' →
      ReflTransGen (BlankStep (i = 0) (i = (Literal.cut s).hits.length)) g g') :
    (ready o s).tokens = (ready o s').tokens ∧
    (formatReport o s).fault = (formatReport o s').fault ∧
    ((formatReport o s).fault = none → format o s = format o s') := by
  have hsame := hits_cut_eq hhits
  obtain ⟨hmarked, hfree'⟩ := tokens_marked_eq hsame hquote hgaps
  have htokens : (ready o s).tokens = (ready o s').tokens := by
    rw [tokens_ready_of_quoteFree o (quoteFree_marked hquote), tokens_ready_of_quoteFree o hfree',
      hmarked]
  have hlaid : laidOut o s = laidOut o s' := by
    rw [laidOut, laidOut]
    exact Draft.layout_congr htokens (literals_ready_eq hsame) (lineComments_ready_eq hsame)
  refine ⟨htokens, ?_⟩
  cases hd : laidOut o s with
  | error e =>
    have hfault := (formatReport_of_laidOut_error hs hd).2
    have hfault' := (formatReport_of_laidOut_error hs' (hlaid.symm.trans hd)).2
    exact ⟨hfault.trans hfault'.symm, fun h => by rw [hfault] at h; cases h⟩
  | ok d =>
    obtain ⟨htext, hfault⟩ := formatReport_of_laidOut_ok hs hd
    obtain ⟨htext', hfault'⟩ := formatReport_of_laidOut_ok hs' (hlaid.symm.trans hd)
    exact ⟨hfault.trans hfault'.symm, fun _ => htext.trans htext'.symm⟩

/-- Blanks change in all five ways, and a gap holds the placeholder of a literal. -/
theorem format_of_blankSteps_gaps :
    let s := "a,'x' from t___STRING_0___--c\n(b)".toList
    let s' := " a ,'x'\tfrom t___STRING_0___--c\n( b)\n".toList
    (ready {} s).tokens = (ready {} s').tokens ∧ (formatReport {} s).fault = none ∧
    format {} s = format {} s' ∧ format {} s = "a, 'x'\nFROM t'x'--c\n    (b)".toList := by
  intro s s'
  let table := "from t___STRING_0___".toList
  have hgaps : (Literal.cut s).gaps = [['a', ','], ' ' :: table, ['\n', '(', 'b', ')']] := by
    decide +kernel
  have hgaps' : (Literal.cut s').gaps =
      [[' ', 'a', ' ', ','], '\t' :: table, ['\n', '(', ' ', 'b', ')', '\n']] := by
    decide +kernel
  have hhits : (Literal.cut s).hits.map Hit.text = (Literal.cut s').hits.map Hit.text := by
    decide +kernel
  have hlength : (Literal.cut s).hits.length = 2 := by decide +kernel
  have hquote : ∀ g ∈ (Literal.cut s).gaps, ∀ c ∈ g, Text.isQuote c = false := by
    have hall : (Literal.cut s).gaps.all (fun g => g.all fun c => !Text.isQuote c) = true := by
      decide +kernel
    simpa only [List.all_eq_true, Bool.not_eq_true'] using hall
  have hsteps : ∀ i g g', (Literal.cut s).gaps[i]? = some g → (Literal.cut s').gaps[i]? = some g' →
      ReflTransGen (BlankStep (i = 0) (i = (Literal.cut s).hits.length)) g g' := by
    rw [hgaps, hgaps', hlength]
    intro i g g' hg hg'
    match i, hg, hg' with
    | 0, rfl, rfl =>
      have hstart : BlankStep (0 = 0) (0 = 2) ([] ++ ['a', ',']) ([' '] ++ ['a', ',']) :=
        .start _ rfl rfl rfl
      have hmark : BlankStep (0 = 0) (0 = 2) ([' ', 'a'] ++ ([] ++ [',']))
          ([' ', 'a'] ++ ([' '] ++ [','])) := .beforeMark _ [] rfl rfl rfl
      exact .tail (.single hstart) hmark
    | 1, rfl, rfl =>
      have hrun : BlankStep (1 = 0) (1 = 2) ([] ++ ([' '] ++ table)) ([] ++ (['\t'] ++ table)) :=
        .run _ _ (by simp) (by simp) rfl rfl
      exact .single hrun
    | 2, rfl, rfl =>
      have hmark : BlankStep (2 = 0) (2 = 2) (['\n'] ++ '(' :: ([] ++ ['b', ')']))
          (['\n'] ++ '(' :: ([' '] ++ ['b', ')'])) := .afterMark _ _ rfl rfl rfl
      have hstop : BlankStep (2 = 0) (2 = 2) (['\n', '(', ' ', 'b', ')'] ++ [])
          (['\n', '(', ' ', 'b', ')'] ++ ['\n']) := .stop _ rfl rfl rfl
      exact .tail (.single hmark) hstop
  have hfault : (formatReport {} s).fault = none := by decide +kernel
  obtain ⟨htokens, -, hformat⟩ :=
    format_of_blankSteps (o := {}) (by decide) (by decide) hhits hquote hsteps
  exact ⟨htokens, hfault, hformat hfault, by decide +kernel⟩

end TwoRuns

end SqlTidy
