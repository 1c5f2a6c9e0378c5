import SqlTidy.Proofs.Content

/-!
# Line comments in a formatted text

Whatever follows a line comment on its line is commented out.  Formatting starts a line after the
token that a line comment ends, so that nothing follows it there.  The exception is a line comment
after an unclosed quote: it lies inside the token that the quote begins, and what follows it in the
text follows it on the same line.

## Main definitions

* `Cut.after k i` — the text after hit number `i` of a cut.
* `Draft.restored d` — the text of a draft with its literals put back, cut where they stand.
* `EndsLine s` — in front of `s`, a line ends.

## Main results

* `Marked.exists_weave_eq_of_quoteFree` — without an unclosed quote before it, a line comment ends
  its line.
* `Marked.exists_weave_eq_of_not_quoteFree` — after an unclosed quote, a hit is followed by what
  follows it in the text.
* `endsLine_restored_iff` — when a line comment ends its line in the formatted text.
-/

namespace SqlTidy

open Literal (Kind)

variable {α β : Type}

/-- In front of a text, a line ends: the text is empty or begins with a line feed. -/
def EndsLine (s : Text) : Prop := ∀ c ∈ s.head?, c = '\n'

namespace Cut

/-- The text after hit number `i`. -/
def after (k : Cut α) (i : Nat) : Text := (⟨k.pieces.drop (i + 1), k.rest⟩ : Cut α).join

end Cut

/-- The text of a draft with its literals put back, cut where they stand. -/
def Draft.restored (d : Draft) : Cut Placeholder.Tag :=
  (Placeholder.cut d.text).mapHits fun hit =>
    { hit with text := (d.literals.lookup hit.text).getD hit.text }

/-- The text of a draft with its literals put back is the text that `restore` gives. -/
theorem Draft.join_restored (d : Draft) : d.restored.join = d.restore.text := by
  rw [restore_text, Cut.join, restored]
  simp [Cut.joinWith, Cut.mapHits, List.flatMap_map]

/-! ### Hits and what follows them -/

namespace Marked

/-- The cut of a marked text at one of its hits. -/
theorem cut_append_hit (m n : Marked α) (h : Hit α) :
    cut (m ++ .hit h :: n) =
      ⟨(cut m).pieces ++ ((cut m).rest, h) :: (cut n).pieces, (cut n).rest⟩ := by
  induction m using gap_induction with
  | gap g => rw [cut_ofText_append_hit, cut_ofText]; rfl
  | hit g x m ih =>
    rw [List.append_assoc, List.cons_append, cut_ofText_append_hit, ih, cut_ofText_append_hit]
    rfl

/-- A hit splits a marked text at the place that its number says. -/
theorem exists_eq_append_hit {m : Marked α} {i : Nat} {h : Hit α} (hi : (hits m)[i]? = some h) :
    ∃ x y : Marked α, m = x ++ .hit h :: y ∧ (hits x).length = i := by
  induction m generalizing i with
  | nil => simp [hits] at hi
  | cons a m ih =>
    cases a with
    | char c =>
      obtain ⟨x, y, rfl, hx⟩ := ih hi
      exact ⟨.char c :: x, y, rfl, hx⟩
    | hit k =>
      -- the hit is the first one, or has a lower number in the rest
      cases i with
      | zero =>
        obtain rfl : k = h := by simpa [hits] using hi
        exact ⟨[], m, rfl, rfl⟩
      | succ i =>
        obtain ⟨x, y, rfl, hx⟩ := ih (by simpa [hits] using hi)
        exact ⟨.hit k :: x, y, rfl, by rw [hits, List.length_cons, hx]⟩

/-- A cut has one piece for every hit. -/
theorem length_pieces_cut (m : Marked α) : (cut m).pieces.length = (hits m).length := by
  rw [← hits_cut, Cut.hits, List.length_map]

/-- The text after a hit, where the marked text is split at the hit. -/
theorem after_cut {x y : Marked α} {h : Hit α} {i : Nat} (hx : (hits x).length = i) :
    (cut (x ++ .hit h :: y)).after i = text y := by
  have hlength := (length_pieces_cut x).trans hx
  have hdrop : ((cut x).pieces ++ ((cut x).rest, h) :: (cut y).pieces).drop (i + 1) =
      (cut y).pieces := by
    rw [← hlength, ← List.drop_drop, List.drop_left]
    rfl
  rw [Cut.after, cut_append_hit, hdrop, Cut.join_eq_text]
  exact congrArg text (symbols_cut y)

/-- The gaps up to a hit, where the marked text is split at the hit. -/
theorem gaps_take_cut {x y : Marked α} {h : Hit α} {i : Nat} (hx : (hits x).length = i) :
    (cut (x ++ .hit h :: y)).gaps.take (i + 1) = (cut x).gaps := by
  have hlength := (length_pieces_cut x).trans hx
  rw [Cut.gaps, cut_append_hit, List.map_append, List.map_cons, Cut.gaps, List.append_assoc,
    List.cons_append, ← List.singleton_append, ← List.append_assoc]
  refine List.take_left' ?_
  simp [hlength]

/-! ### What stays the same when a text is collapsed and recased -/

/-- Whether a text goes on with a word depends on its first symbol only. -/
theorem Stopped.of_isPrefix {m n : Marked α} (hn : Stopped n) (h : m <+: n) : Stopped m := by
  obtain ⟨r, rfl⟩ := h
  cases m with
  | nil => simp [Stopped]
  | cons a m => exact hn

/-! ### Where a hit stands among the tokens -/

/-- A quote in a gap has a first one. -/
theorem exists_first_quote {m : Marked α} (hm : ¬QuoteFree m) :
    ∃ x q r, m = x ++ .char q :: r ∧ QuoteFree x ∧ Text.isQuote q = true := by
  induction m with
  | nil => exact absurd (by simp [QuoteFree]) hm
  | cons a m ih =>
    by_cases ha : a.isQuote = true
    · cases a with
      | char c => exact ⟨[], c, m, rfl, by simp [QuoteFree], ha⟩
      | hit h => cases ha
    · have hm' : ¬QuoteFree m := fun h => hm (List.forall_mem_cons.2 ⟨by simpa using ha, h⟩)
      obtain ⟨x, q, r, rfl, hx, hq⟩ := ih hm'
      exact ⟨a :: x, q, r, rfl, List.forall_mem_cons.2 ⟨by simpa using ha, hx⟩, hq⟩

/-- Without an unclosed quote before it, a line comment ends its line. -/
theorem exists_weave_eq_of_quoteFree {isLine : Hit α → Prop} {ps : List (Text × Marked α)}
    {m n : Marked α} {h : Hit α} (hm : QuoteFree m) (hn : Stopped n) (hline : isLine h)
    (htokens : ps.map Prod.snd = tokens (m ++ .hit h :: n)) (hchain : ps.IsChain (Follows isLine)) :
    ∃ x y, weave ps = x ++ .hit h :: y ∧ ∀ f : Hit α → Text, EndsLine (spell f y) := by
  -- the hit is the last symbol of its token
  obtain ⟨ts, t, ht⟩ := exists_tokens_concat hm (a := .hit h) rfl
  have hfree : QuoteFree (m ++ [.hit h]) := by
    simpa [QuoteFree, or_imp, forall_and] using hm
  rw [← List.singleton_append, ← List.append_assoc, tokens_append hfree hn, ht] at htokens
  obtain ⟨ps₁, ps₂, rfl, hps₁, hps₂⟩ := List.map_eq_append_iff.1 htokens
  obtain ⟨ps₀, ps₁, rfl, -, hps₁⟩ := List.map_eq_append_iff.1 hps₁
  obtain ⟨⟨sep, u⟩, rfl, rfl⟩ : ∃ p : Text × Marked α, ps₁ = [p] ∧ p.2 = t ++ [.hit h] := by
    simpa using List.map_eq_singleton_iff.1 hps₁
  refine ⟨weave ps₀ ++ (ofText sep ++ t), weave ps₂, by simp, fun f c hc => ?_⟩
  cases ps₂ with
  | nil => simp at hc
  | cons q ps₂ =>
    -- the next token comes after a line feed
    rw [List.append_assoc, List.singleton_append, List.isChain_append,
      List.isChain_cons_cons] at hchain
    have hfeed := hchain.2.1.1.2 h (by simp) hline
    obtain ⟨r, hr⟩ := List.head?_eq_some_iff.1 hfeed
    rw [weave_cons, hr] at hc
    simpa using hc.symm

/-- After an unclosed quote, a hit is followed by what follows it in the text. -/
theorem exists_weave_eq_of_not_quoteFree {ps : List (Text × Marked α)} {m n : Marked α} {h : Hit α}
    (hm : ¬QuoteFree m) (htokens : ps.map Prod.snd = tokens (m ++ .hit h :: n)) :
    ∃ x, weave ps = x ++ .hit h :: n := by
  obtain ⟨x, q, r, rfl, hx, hq⟩ := exists_first_quote hm
  -- the first quote begins a token that takes the hit and everything after it
  have hstop : Stopped (.char q :: (r ++ .hit h :: n)) := by
    simpa [Stopped] using isPlain_of_isQuote hq
  rw [List.append_assoc, List.cons_append, tokens_append hx hstop, tokens_quote hq] at htokens
  obtain ⟨ps₀, ps₁, rfl, -, hps₁⟩ := List.map_eq_append_iff.1 htokens
  obtain ⟨⟨sep, u⟩, rfl, rfl⟩ : ∃ p : Text × Marked α,
      ps₁ = [p] ∧ p.2 = .char q :: (r ++ .hit h :: n) := by
    simpa using List.map_eq_singleton_iff.1 hps₁
  exact ⟨weave ps₀ ++ (ofText sep ++ .char q :: r), by simp⟩

/-- A hit separates what is recased on its two sides. -/
theorem recase_append_hit (o : Options) (m n : Marked α) (h : Hit α) :
    recase o (m ++ .hit h :: n) = recase o m ++ .hit h :: recase o n :=
  mapGaps_append_hit _ m n h

end Marked

/-- A collapsed and recased text begins with no line feed, so that a line ends in front of it only
if nothing but blanks was there. -/
theorem endsLine_collapsed_iff (o : Options) {m : Marked (Kind × Nat)}
    (hm : ∀ h ∈ m.hits, ∃ c b, h.text = c :: b ∧ Text.isBlank c = false) :
    EndsLine (((m.squeezeFrom false).trimEnd.recase o).text) ↔
      ∀ a ∈ m, Symbol.isBlank a = true := by
  have hcontent : Marked.fold (Marked.strip ((m.squeezeFrom false).trimEnd.recase o)) =
      Marked.fold m.strip := by
    rw [Marked.fold_strip_recase, Marked.strip_trimEnd, Marked.strip_squeezeFrom]
  have hhits : Marked.hits ((m.squeezeFrom false).trimEnd.recase o) = m.hits := by
    rw [Marked.recase, Marked.hits_mapGaps, ← Marked.hits_strip, Marked.strip_trimEnd,
      Marked.strip_squeezeFrom, Marked.hits_strip]
  rw [← Marked.strip_eq_nil_iff]
  constructor
  · intro hend
    cases hm' : (m.squeezeFrom false).trimEnd.recase o with
    | nil =>
      rw [hm'] at hcontent
      exact List.map_eq_nil_iff.1 hcontent.symm
    | cons a r =>
      rw [hm'] at hend
      cases a with
      | char c =>
        obtain rfl : c = '\n' := hend c rfl
        -- recasing makes no line feeds, and collapsing leaves none
        have hfeed : [.char '\n'] <:+: (m.squeezeFrom false).trimEnd :=
          Marked.infix_of_fold_eq (x := ['\n']) (Marked.fold_recase o _) (by simp) (by
            rw [hm']
            exact (List.prefix_append [_] r).isInfix)
        have hmem := (List.rdropWhile_prefix _ _).subset (List.singleton_infix_iff _ _ |>.1 hfeed)
        cases Marked.eq_space_of_mem_squeezeFrom rfl hmem
      | hit x =>
        have hx : x ∈ m.hits := by
          rw [← hhits, hm']
          exact List.mem_cons_self
        obtain ⟨c, b, hcb, hc⟩ := hm x hx
        obtain rfl : c = '\n' := hend c (by simp [hcb])
        cases hc
  · intro hnil
    have hblank : ∀ a ∈ m.squeezeFrom false, Symbol.isBlank a = true := by
      rw [← Marked.strip_eq_nil_iff, Marked.strip_squeezeFrom, hnil]
    have htrim : (m.squeezeFrom false).trimEnd = [] := List.rdropWhile_eq_nil_iff.2 hblank
    rw [htrim, Marked.recase_nil]
    simp [EndsLine]

/-! ### Line comments -/

/-- A hit with the tag of its placeholder. -/
def restoredHit (h : Hit (Kind × Nat)) : Hit Placeholder.Tag := ⟨Placeholder.tagOf h.tag.1, h.text⟩

/-- With its literals put back, a draft is the marked text that it stands for, with the tags of the
placeholders. -/
theorem Draft.Represents.restored_eq {d : Draft} {m : Marked (Kind × Nat)} (h : d.Represents m)
    (hm : m.Unfenced) : d.restored = (m.mapHits restoredHit).cut := by
  rw [restored, h.text_eq, Marked.cut_spell_placeholder hm, ← Marked.cut_mapHits,
    Marked.mapHits_mapHits]
  refine congrArg Marked.cut (Marked.mapHits_congr fun x hx => ?_)
  simp only [Function.comp_apply, Marked.placeholderHit, h.literals_eq,
    Table.lookup_of_mem h.nodup hx, Option.getD_some, restoredHit]

/-- A hit has the same number in two marked texts with the hits of a text. -/
theorem length_hits_eq {s : Text} {k : Hit (Kind × Nat)} {a b x y : Marked (Kind × Nat)}
    (hs : marked s = a ++ .hit k :: b) (h : (x ++ .hit k :: y).hits = (marked s).hits) :
    x.hits.length = a.hits.length := by
  have hnodup : (marked s).hits.Nodup := by
    refine List.Nodup.of_map (·.tag.2) ?_
    rw [numbers_marked]
    exact List.nodup_range' 1
  rw [hs, Marked.hits_append, Marked.hits, List.nodup_append_comm] at hnodup
  -- no other hit is the same, so that the hits before it are as many in both
  have hb : k ∉ b.hits := fun hmem => (List.nodup_cons.1 hnodup).1 (by simp [hmem])
  have ha : k ∉ a.hits := fun hmem => (List.nodup_cons.1 hnodup).1 (by simp [hmem])
  rw [hs, Marked.hits_append, Marked.hits_append, Marked.hits, Marked.hits] at h
  have := (List.append_cons_inj_of_notMem ha hb).1 h.symm
  rw [this.1]

/-- What follows a line comment of a marked text does not go on with a word. -/
theorem stopped_of_marked {s : Text} {k : Hit (Kind × Nat)} {a b : Marked (Kind × Nat)}
    (hs : marked s = a ++ .hit k :: b) (hk : k.isLine = true) : b.Stopped := by
  have hscans := Literal.scans_cut s
  rw [← mapHits_marked, hs, Marked.mapHits_append, Marked.mapHits_hit] at hscans
  have hend := Marked.head?_of_scans_lineComment hscans.of_append
    (by simpa [Hit.isLine, Hit.unnumbered] using hk)
  cases b with
  | nil => simp [Marked.Stopped]
  | cons c b =>
    -- what follows a line comment is the end of its line, which is a blank
    obtain ⟨d, hd, hline⟩ := hend _ rfl
    cases c with
    | hit x => cases hd
    | char c =>
      cases hd
      simpa [Marked.Stopped] using isPlain_of_isBlank (Literal.isBlank_of_isLineEnd hline)

/-- What follows a line comment among the tokens of a text. -/
theorem exists_weave_endsLine_iff {o : Options} {s : Text} {k : Hit (Kind × Nat)}
    {a b : Marked (Kind × Nat)} (hs : marked s = a ++ .hit k :: b) (hk : k.isLine = true)
    {ps : List (Text × Marked (Kind × Nat))} (hps : LaidTokens o s ps) :
    ∃ x y : Marked (Kind × Nat), Marked.weave ps = x ++ .hit k :: y ∧
      (EndsLine y.text ↔ a.QuoteFree ∨ ∀ c ∈ b, Symbol.isBlank c = true) := by
  have hmem : k ∈ (marked s).hits := by rw [hs]; simp [Marked.hits]
  have hb : ∀ h ∈ b.hits, ∃ c r, h.text = c :: r ∧ Text.isBlank c = false := by
    intro h hh
    refine exists_solid_of_mem_hits (s := s) ?_
    rw [hs]
    simp [Marked.hits, hh]
  have htokens := hps.tokens_eq
  rw [hs, Marked.collapse_append_cons _ _ rfl, Marked.recase_append_hit] at htokens
  -- quotes before the comment are neither added nor taken away
  have hcontent : Marked.fold (Marked.strip ((a.squeezeFrom false).trimStart.recase o)) =
      Marked.fold a.strip := by
    rw [Marked.fold_strip_recase, Marked.strip_trimStart, Marked.strip_squeezeFrom]
  -- with a quote before it, the comment lies inside the last token; without, it ends a token of its
  -- own
  by_cases hquote : a.QuoteFree
  · have hstop : Marked.Stopped ((b.squeezeFrom false).trimEnd.recase o) :=
      ((stopped_of_marked hs hk).squeezeFrom.of_isPrefix (List.rdropWhile_prefix _ _)).of_fold_eq
        (Marked.fold_recase o _).symm
    obtain ⟨x, y, hxy, hend⟩ := Marked.exists_weave_eq_of_quoteFree
      (Marked.quoteFree_of_fold_strip_eq hcontent.symm hquote) hstop ⟨hk, hmem⟩ htokens hps.follows
    exact ⟨x, y, hxy, iff_of_true (hend _) (.inl hquote)⟩
  · obtain ⟨x, hx⟩ := Marked.exists_weave_eq_of_not_quoteFree
      (fun h => hquote (Marked.quoteFree_of_fold_strip_eq hcontent h)) htokens
    refine ⟨x, _, hx, ?_⟩
    rw [endsLine_collapsed_iff o hb, or_iff_right hquote]

/-- A line comment ends its line in the formatted text if and only if no quote is left in a gap
before it, or nothing but blanks follows it in the text. -/
theorem endsLine_restored_iff {o : Options} (ho : Text.isAllBlank o.indentText = true) {s : Text}
    (hs : ∀ g ∈ (Literal.cut s).gaps, ¬Placeholder.fence <:+: g)
    (hfault : (formatReport o s).fault = none) {i : Nat} {h : Hit Kind}
    (hi : (Literal.cut s).hits[i]? = some h) (hline : h.tag = .lineComment) :
    ∃ d, laidOut o s = .ok d ∧ d.restored.join = format o s ∧
      d.restored.hits[i]?.map Hit.text = some h.text ∧
      (EndsLine (d.restored.after i) ↔
        (∀ g ∈ (Literal.cut s).gaps.take (i + 1), ∀ c ∈ g, Text.isQuote c = false) ∨
          Text.isAllBlank ((Literal.cut s).after i) = true) := by
  -- the comment with its number, and what stands on both sides of it
  obtain ⟨k, hk, rfl⟩ : ∃ k, (marked s).hits[i]? = some k ∧ k.unnumbered = h := by
    rw [← Cut.hits_symbols, ← mapHits_marked, Marked.hits_mapHits, List.getElem?_map] at hi
    exact Option.map_eq_some_iff.1 hi
  obtain ⟨a, b, hab, ha⟩ := Marked.exists_eq_append_hit hk
  have hkline : k.isLine = true := by simpa [Hit.isLine, Hit.unnumbered] using hline
  have hsolid : ∀ h ∈ (marked s).hits, ∃ c r, h.text = c :: r ∧ Text.isBlank c = false :=
    fun h => exists_solid_of_mem_hits
  have hblank : Text.isAllBlank s = false := by
    rw [← Bool.not_eq_true, ← text_marked s, isAllBlank_text_iff hsolid, hab]
    intro hall
    cases hall (.hit k) (by simp)
  obtain ⟨d, hd⟩ : ∃ d, laidOut o s = .ok d := by
    cases hd : laidOut o s with
    | error e => simp [(formatReport_of_laidOut_error hblank hd).2] at hfault
    | ok d => exact ⟨d, rfl⟩
  obtain ⟨ps, hps, hrep⟩ := exists_weave_of_laidOut ho (unfenced_marked hs) hd
  obtain ⟨x, y, hxy, hiff⟩ := exists_weave_endsLine_iff hab hkline hps
  have hx : x.hits.length = i := (length_hits_eq hab (by rw [← hxy, hps.hits_eq])).trans ha
  refine ⟨d, hd, ?_, ?_, ?_⟩
  · rw [Draft.join_restored, format, (formatReport_of_laidOut_ok hblank hd).1]
  · rw [hrep.restored_eq hps.unfenced, Marked.hits_cut, Marked.hits_mapHits, hps.hits_eq,
      List.getElem?_map, hk]
    rfl
  · -- both texts are split at the comment
    have hafter : d.restored.after i = y.text := by
      rw [hrep.restored_eq hps.unfenced, hxy, Marked.mapHits_append, Marked.mapHits_hit,
        Marked.after_cut (by rw [Marked.hits_mapHits, List.length_map, hx])]
      exact Marked.spell_mapHits _ _ y
    have ha' : (a.mapHits Hit.unnumbered).hits.length = i := by
      rw [Marked.hits_mapHits, List.length_map, ha]
    have hb : ∀ h ∈ b.hits, ∃ c r, h.text = c :: r ∧ Text.isBlank c = false :=
      fun h hh => hsolid h (by rw [hab]; simp [Marked.hits, hh])
    rw [hafter, hiff, cut_eq_marked, hab, Marked.mapHits_append, Marked.mapHits_hit,
      Marked.gaps_take_cut ha', Marked.after_cut ha', Marked.text_mapHits_unnumbered,
      ← Marked.quoteFree_iff_gaps, Marked.quoteFree_mapHits, isAllBlank_text_iff hb]

/-- A line comment after a parenthesis, with an unclosed quote after it. -/
theorem endsLine_restored_before_quote :
    let s := "a(--b\n,'c".toList
    (∀ g ∈ (Literal.cut s).gaps, ¬Placeholder.fence <:+: g) ∧
    (formatReport {} s).fault = none ∧
    (Literal.cut s).hits[0]? = some ⟨.lineComment, "--b".toList⟩ ∧
    ∃ d, laidOut {} s = .ok d ∧ d.restored.join = format {} s ∧
      d.restored.hits[0]?.map Hit.text = some "--b".toList ∧
      (EndsLine (d.restored.after 0) ↔
        (∀ g ∈ (Literal.cut s).gaps.take 1, ∀ c ∈ g, Text.isQuote c = false) ∨
          Text.isAllBlank ((Literal.cut s).after 0) = true) := by
  intro s
  refine ⟨?fence, ?fault, ?hit, endsLine_restored_iff (by decide) ?fence ?fault ?hit rfl⟩
  all_goals decide +kernel

/-- After an unclosed quote, a line comment takes in what follows it. -/
theorem not_endsLine_after_quote :
    let s := "select 'abc -- note\nfrom t".toList
    (∀ g ∈ (Literal.cut s).gaps, ¬Placeholder.fence <:+: g) ∧
    (formatReport {} s).fault = none ∧
    (Literal.cut s).hits[0]? = some ⟨.lineComment, "-- note".toList⟩ ∧
    (laidOut {} s).toOption.map (fun d => d.restored.after 0) = some " FROM t".toList ∧
    ¬EndsLine " FROM t".toList := by
  intro s
  exact ⟨by decide +kernel, by decide +kernel, by decide +kernel, by decide +kernel,
    by simp [EndsLine]⟩

end SqlTidy
