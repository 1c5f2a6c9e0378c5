import SqlTidy.Proofs.Draft

/-!
# Literals do not show in the layout

While a text is being laid out, placeholders stand for its literals, and a placeholder has nothing
of its literal but the kind and the number.  Two texts that differ in the contents of their literals
only are therefore one and the same text from the time their literals are set aside until they are
put back, and what is put around the literals is the same in both.

## Main definitions

* `Hit.bare h` — the hit `h` without its text.
* `Interchangeable s s'` — `s` and `s'` are the same but for the contents of their literals.

## Main results

* `interchangeable_of_gaps_eq` — texts with the same gaps and kinds of literals are interchangeable.
* `Interchangeable.tokens_ready`, `Interchangeable.lineComments_ready` — the layout is given the
  same for both.
* `Interchangeable.gaps_formatted` — both runs end in the same gaps.
* `format_interchange` — the contents of literals have no influence on anything else.
-/

namespace SqlTidy

open Literal (Kind)

/-! ### Hits without their texts -/

section Bare

variable {α : Type}

/-- A hit without its text. -/
def Hit.bare (h : Hit α) : Hit α := ⟨h.tag, []⟩

/-- Changing the hits of a cut is changing those of its marked text. -/
theorem Cut.symbols_mapHits {β : Type} (f : Hit α → Hit β) (k : Cut α) :
    (k.mapHits f).symbols = k.symbols.mapHits f := by
  rw [← Marked.symbols_cut (k.symbols.mapHits f), Marked.cut_mapHits, Marked.cut_symbols]

/-- Cuts with the same gaps and tags are the same but for the texts of their hits. -/
theorem Cut.mapHits_bare_eq {k k' : Cut α} (hgaps : k.gaps = k'.gaps)
    (htags : k.hits.map Hit.tag = k'.hits.map Hit.tag) :
    k.mapHits Hit.bare = k'.mapHits Hit.bare := by
  have hhits : ∀ k : Cut α, (k.mapHits Hit.bare).hits = (k.hits.map Hit.tag).map (⟨·, []⟩) := by
    intro k
    simp [Cut.mapHits, Cut.hits, Hit.bare, Function.comp_def]
  refine Cut.eq_of_gaps_eq ?_ ?_
  · rw [gaps_mapHits, gaps_mapHits, hgaps]
  · rw [hhits, hhits, htags]

/-- Numbers do not depend on the texts of hits. -/
theorem Marked.mapHits_bare_number (n : Nat) (m : Marked α) :
    mapHits Hit.bare (number n m) = number n (mapHits Hit.bare m) := by
  induction m generalizing n with
  | nil => rfl
  | cons a m ih =>
    cases a with
    | char c => rw [number, mapHits_char, mapHits_char, number, ih]
    | hit h =>
      rw [number, mapHits_hit, mapHits_hit, number, ih]
      rfl

end Bare

section TwoRuns

variable {o : Options} {s s' : Text}

/-- Two texts are the same but for the contents of their literals. -/
def Interchangeable (s s' : Text) : Prop :=
  (marked s).mapHits Hit.bare = (marked s').mapHits Hit.bare

/-- Texts with the same gaps and the same kinds of literals are interchangeable. -/
theorem interchangeable_of_gaps_eq (hgaps : (Literal.cut s).gaps = (Literal.cut s').gaps)
    (hkinds : (Literal.cut s).hits.map Hit.tag = (Literal.cut s').hits.map Hit.tag) :
    Interchangeable s s' := by
  rw [Interchangeable, marked, marked, Marked.mapHits_bare_number, Marked.mapHits_bare_number,
    ← Cut.symbols_mapHits, ← Cut.symbols_mapHits, Cut.mapHits_bare_eq hgaps hkinds]

/-! ### Before the layout -/

/-- A placeholder does not depend on the text of its literal. -/
theorem spell_mapHits_bare (m : Marked (Kind × Nat)) :
    (m.mapHits Hit.bare).spell Draft.placeholder = m.spell Draft.placeholder :=
  Marked.spell_mapHits _ _ m

/-- With placeholders for their literals, the two texts are the same. -/
theorem Interchangeable.text_preserve (h : Interchangeable s s') :
    ({ text := s } : Draft).preserve.text = ({ text := s' } : Draft).preserve.text := by
  rw [(Draft.represents_preserve s).text_eq, (Draft.represents_preserve s').text_eq,
    ← spell_mapHits_bare, h, spell_mapHits_bare]

/-- The layout is given the same tokens. -/
theorem Interchangeable.tokens_ready (h : Interchangeable s s') :
    (ready o s).tokens = (ready o s').tokens := by
  simp only [ready, Draft.tokenize, Draft.recase, Draft.collapse, h.text_preserve]

/-- The layout is given the same line comments. -/
theorem Interchangeable.lineComments_ready (h : Interchangeable s s') :
    (ready o s).lineComments = (ready o s').lineComments := by
  have hbare : ∀ m : Marked (Kind × Nat), (m.hits.filter Hit.isLine).map Draft.placeholder =
      ((m.mapHits Hit.bare).hits.filter Hit.isLine).map Draft.placeholder := by
    intro m
    rw [Marked.hits_mapHits, List.filter_map, List.map_map]
    rfl
  change ({ text := s } : Draft).preserve.lineComments =
    ({ text := s' } : Draft).preserve.lineComments
  rw [(Draft.represents_preserve s).lineComments_eq,
    (Draft.represents_preserve s').lineComments_eq, hbare, h, ← hbare]

/-- Whether a text is blank does not depend on the contents of its literals. -/
theorem isAllBlank_iff_marked (s : Text) :
    Text.isAllBlank s = true ↔ ∀ a ∈ (marked s).mapHits Hit.bare, Symbol.isBlank a = true := by
  have hblank : ∀ a : Symbol (Kind × Nat), (a.mapHit Hit.bare).isBlank = a.isBlank := by
    intro a
    cases a <;> rfl
  have htext := isAllBlank_text_iff (m := marked s) fun _ => exists_solid_of_mem_hits
  rw [text_marked] at htext
  rw [htext, Marked.mapHits, List.forall_mem_map]
  simp only [hblank]

/-- Both texts are left alone, or none is. -/
theorem Interchangeable.leftAlone_iff (h : Interchangeable s s') :
    LeftAlone o s ↔ LeftAlone o s' := by
  rw [LeftAlone, LeftAlone, h.tokens_ready, h.lineComments_ready,
    isAllBlank_iff_marked, h, ← isAllBlank_iff_marked]

/-! ### After the layout -/

/-- The layout makes the same text of both. -/
theorem Interchangeable.text_laidOut (h : Interchangeable s s')
    {d d' : Draft} (hd : laidOut o s = .ok d) (hd' : laidOut o s' = .ok d') :
    d.text = d'.text := by
  obtain ⟨text, htext, rfl⟩ := Draft.exists_text_of_layout hd
  obtain ⟨text', htext', rfl⟩ := Draft.exists_text_of_layout hd'
  rw [h.tokens_ready, h.lineComments_ready] at htext
  exact Except.ok.inj (htext.symm.trans htext')

/-- The gaps of a marked text can be read off the text with placeholders. -/
theorem gaps_cut_of_represents {d : Draft} {m : Marked (Kind × Nat)} (h : d.Represents m)
    (hm : m.Unfenced) : m.cut.gaps = (Placeholder.cut d.text).gaps := by
  rw [h.text_eq, Marked.cut_spell_placeholder hm, Marked.gaps_cut_mapHits]

/-- Both runs end in the same gaps. -/
theorem Interchangeable.gaps_formatted (h : Interchangeable s s')
    (ho : Text.isAllBlank o.indentText = true) (hs : (marked s).Unfenced)
    (hs' : (marked s').Unfenced) :
    (formatted o s).cut.gaps = (formatted o s').cut.gaps := by
  unfold formatted
  by_cases hleft : LeftAlone o s
  · rw [if_pos hleft, if_pos (h.leftAlone_iff.1 hleft), ← Marked.gaps_cut_mapHits Hit.bare, h,
      Marked.gaps_cut_mapHits]
  -- both are laid out, to the same text with placeholders, and the gaps are read off that text
  · have hleft' := mt h.leftAlone_iff.2 hleft
    obtain ⟨-, d, hd⟩ := not_leftAlone_iff.1 hleft
    obtain ⟨-, d', hd'⟩ := not_leftAlone_iff.1 hleft'
    rw [if_neg hleft, if_neg hleft',
      gaps_cut_of_represents (represents_arranged ho hs hd) (laidTokens_arranged ho hs).unfenced,
      gaps_cut_of_represents (represents_arranged ho hs' hd') (laidTokens_arranged ho hs').unfenced,
      h.text_laidOut hd hd']

/-- The contents of literals have no influence on anything else: two texts with the same gaps and
kinds of literals are formatted to texts with the same gaps again, each with its own literals
between them. -/
theorem format_interchange (ho : Text.isAllBlank o.indentText = true)
    (hgaps : (Literal.cut s).gaps = (Literal.cut s').gaps)
    (hkinds : (Literal.cut s).hits.map Hit.tag = (Literal.cut s').hits.map Hit.tag)
    (hfence : ∀ g ∈ (Literal.cut s).gaps, ¬Placeholder.fence <:+: g) :
    ∃ k k' : Cut Kind, k.join = format o s ∧ k'.join = format o s' ∧
      k.hits = (Literal.cut s).hits ∧ k'.hits = (Literal.cut s').hits ∧ k.gaps = k'.gaps := by
  have hs := unfenced_marked hfence
  have hs' := unfenced_marked (hgaps ▸ hfence)
  have hsame := interchangeable_of_gaps_eq hgaps hkinds
  refine ⟨formattedCut o s, formattedCut o s', join_formattedCut ho hs, join_formattedCut ho hs',
    hits_formattedCut ho hs, hits_formattedCut ho hs', ?_⟩
  rw [formattedCut, formattedCut, Marked.gaps_cut_mapHits, Marked.gaps_cut_mapHits]
  exact hsame.gaps_formatted ho hs hs'

/-- Keywords, parentheses, commas, line feeds, quotes and a placeholder inside the literals. -/
theorem format_interchange_contents :
    let s := "select 'a',/*x*/ b -- c\nfrom \"t\"".toList
    let s' := "select 'from (''a, ',/*\n___STRING_0___*/ b -- d'\nfrom \"u;\\\"\"".toList
    (Literal.cut s).gaps = (Literal.cut s').gaps ∧
    (Literal.cut s).hits.map Hit.tag = (Literal.cut s').hits.map Hit.tag ∧
    (∀ g ∈ (Literal.cut s).gaps, ¬Placeholder.fence <:+: g) ∧
    ∃ k k' : Cut Kind, k.join = format {} s ∧ k'.join = format {} s' ∧
      k.hits = (Literal.cut s).hits ∧ k'.hits = (Literal.cut s').hits ∧ k.gaps = k'.gaps := by
  intro s s'
  have hgaps : (Literal.cut s).gaps = (Literal.cut s').gaps := by decide +kernel
  have hkinds : (Literal.cut s).hits.map Hit.tag = (Literal.cut s').hits.map Hit.tag := by
    decide +kernel
  have hfence : ∀ g ∈ (Literal.cut s).gaps, ¬Placeholder.fence <:+: g := by decide +kernel
  exact ⟨hgaps, hkinds, hfence, format_interchange (by decide) hgaps hkinds hfence⟩

end TwoRuns

end SqlTidy
