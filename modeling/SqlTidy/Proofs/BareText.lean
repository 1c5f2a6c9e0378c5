import SqlTidy.Proofs.LiteralTable
import SqlTidy.Proofs.QuotedSpan

/-!
# Texts without literals

A text is bare if no literal begins anywhere in it.  Setting literals aside leaves a bare text.  A
literal could only begin in a gap, and what it needs to be complete would have to come from the gaps
too, since a placeholder has neither quotes nor backslashes nor the characters that comments are
made of; but then it would have been complete before.  So there is nothing left to set aside.

## Main definitions

* `Literal.Complete kind t` — the text `t` is a literal of the given kind from its first character
  to its last.
* `Literal.Bare s` — no literal begins anywhere in `s`.

## Main results

* `Marked.bare_spell` — what the recogniser of literals leaves over is bare when placeholders stand
  for the hits.
* `Draft.preserve_of_bare` — in a bare text there is nothing to set aside.
* `run_preserve_run_preserve` — setting literals aside twice is setting them aside once.
-/

namespace SqlTidy

open Literal (Kind)

/-! ### Complete literals and bare texts -/

/-- A cut has no hits if no match begins anywhere. -/
theorem Recogniser.cut_of_forall_suffix {α : Type} (R : Recogniser α) {s : Text}
    (h : ∀ v, v <:+ s → R.read v = none) : R.cut s = ⟨[], s⟩ := by
  induction s with
  | nil => exact R.cut_nil
  | cons c s ih =>
    have hs : ∀ v, v <:+ s → R.read v = none := by
      intro v hv
      exact h v (hv.trans (List.suffix_cons c s))
    rw [R.cut_of_read_eq_none (h _ List.suffix_rfl), ih hs]
    rfl

namespace Literal

/-- The whole text is a literal of the given kind: a quote, units of a quoted span and the quote
again, a comment that takes no end of a line, or one between `/*` and `*/`. -/
inductive Complete : Kind → Text → Prop
  /-- A string or a quoted identifier. -/
  | quoted {kind : Kind} {q : Char} {us : List Text.SpanUnit} :
    kind.quote? = some q → (∀ u ∈ us, u.Fits q) → Complete kind (q :: (Text.ofUnits q us ++ [q]))
  /-- A comment to the end of a line. -/
  | line {b : Text} : (∀ c ∈ b, isLineEnd c = false) → Complete .lineComment ('-' :: '-' :: b)
  /-- A comment that is closed. -/
  | block (b : Text) : Complete .blockComment ('/' :: '*' :: (b ++ ['*', '/']))

/-- No literal begins anywhere in the text. -/
def Bare (s : Text) : Prop := ∀ v, v <:+ s → read v = none

/-- Where a complete literal stands, a literal is read, whatever comes after it. -/
theorem Complete.read_append_ne_none {kind : Kind} {t : Text} (h : Complete kind t) (r : Text) :
    read (t ++ r) ≠ none := by
  cases h with
  | @quoted _ q us hkind hus =>
    have hq := ne_backslash_of_isQuote (Kind.isQuote_of_quote? hkind)
    -- the span can be completed where `t` ends, so that it is completed there or later
    have hcompletes : Text.Completes q (Text.ofUnits q us ++ q :: r) _ :=
      (Text.completes_ofUnits_append_iff hq hus).2 (.inr ⟨1, .quote r, rfl⟩)
    obtain ⟨n, hn, -⟩ := Text.exists_closing_of_completes hq hcompletes
    rw [List.cons_append, List.append_assoc, List.singleton_append, read_quote hkind, hn]
    simp
  | line =>
    rw [List.cons_append, List.cons_append, read_line]
    simp
  | block b =>
    rw [List.cons_append, List.cons_append, read_block]
    intro hnone
    rw [Option.map_eq_none_iff, blockLength_eq_none_iff, List.append_assoc] at hnone
    exact hnone ⟨b, r, by simp⟩

/-- A bare text has no complete literal in it. -/
theorem Bare.not_complete {s t : Text} (h : Bare s) (ht : t <:+: s) (kind : Kind) :
    ¬Complete kind t := by
  obtain ⟨u, v, rfl⟩ := ht
  intro hcomplete
  refine hcomplete.read_append_ne_none v (h (t ++ v) ⟨u, ?_⟩)
  rw [List.append_assoc]

/-- A bare text is one gap. -/
theorem cut_of_bare {s : Text} (h : Bare s) : cut s = ⟨[], s⟩ :=
  recogniser.cut_of_forall_suffix h

end Literal

/-! ### Placeholders in the place of literals -/

/-- A placeholder has none of the characters that comments begin and end with. -/
theorem Draft.notMem_placeholder {c : Char} (hc : c ∈ ['-', '/', '*']) (h : Hit (Kind × Nat)) :
    c ∉ placeholder h := by
  -- a placeholder is made of underscores, the word of its tag and digits
  have hother : ∀ tag : Placeholder.Tag,
      c ≠ '_' ∧ c ∉ tag.word ∧ Text.isDecimalDigit c = false := by
    intro tag
    simp only [List.mem_cons, List.not_mem_nil, or_false] at hc
    rcases hc with rfl | rfl | rfl <;> cases tag <;> decide
  obtain ⟨hunderscore, hword, hdigit⟩ := hother (Placeholder.tagOf h.tag.1)
  intro hmem
  rcases Placeholder.mem_make (Placeholder.isNumber_ofNat h.tag.2) hmem with hmem | hmem | hmem
  · exact hunderscore hmem
  · exact hword hmem
  · simp [hdigit] at hmem

namespace Marked

section Spell

variable {α : Type} {f : Hit α → Text} {m : Marked α}

/-- A character that no hit is written with stands in a gap. -/
theorem exists_cons_of_spell_eq (hf : Wordlike f) {c : Char} (hc : ∀ h, c ∉ f h) {r : Text}
    (h : spell f m = c :: r) : ∃ n, m = .char c :: n ∧ spell f n = r := by
  cases m with
  | nil => simp at h
  | cons a m =>
    cases a with
    | char d =>
      obtain ⟨rfl, hr⟩ := List.cons.inj h
      exact ⟨m, rfl, hr⟩
    | hit x =>
      -- the first character of a hit is another one
      obtain ⟨d, w, hw⟩ := List.exists_cons_of_ne_nil (hf.ne_nil x)
      rw [spell_hit, hw, List.cons_append] at h
      obtain ⟨rfl, -⟩ := List.cons.inj h
      exact absurd (hw ▸ List.mem_cons_self) (hc x)

/-- Where a block comment is closed, it is closed in a gap. -/
theorem infix_text_of_infix_spell (hf : Wordlike f) (hstar : ∀ h, '*' ∉ f h)
    (hslash : ∀ h, '/' ∉ f h) (h : ['*', '/'] <:+: spell f m) : ['*', '/'] <:+: text m := by
  induction m with
  | nil => simp at h
  | cons a m ih =>
    cases a with
    | char c =>
      rw [spell_char, List.infix_cons_iff] at h
      rcases h with h | h
      · obtain ⟨rfl, hnext⟩ := List.cons_prefix_cons.1 h
        obtain ⟨r, hr⟩ := hnext
        obtain ⟨n, rfl, -⟩ := exists_cons_of_spell_eq hf hslash hr.symm
        exact ⟨[], text n, rfl⟩
      · exact (ih h).trans (List.suffix_cons c (text m)).isInfix
    | hit x =>
      -- no hit is written with one of the two characters, so that it is passed over as a whole
      have hdisjoint : ∀ c ∈ f x, c ∉ ['*', '/'] := by
        intro c hc
        simp only [List.mem_cons, List.not_mem_nil, or_false, not_or]
        exact ⟨fun h => hstar x (h ▸ hc), fun h => hslash x (h ▸ hc)⟩
      have hrest := infix_of_infix_append (by simp) hdisjoint h
      exact (ih hrest).trans (List.suffix_append x.text (text m)).isInfix

end Spell

variable {m : Marked (Kind × Nat)}

/-- No literal begins at a character of a gap, with placeholders for the literals after it. -/
theorem read_char_spell {c : Char}
    (hm : Literal.recogniser.Scans (mapHits Hit.unnumbered (.char c :: m))) :
    Literal.read (c :: spell Draft.placeholder m) = none := by
  have hf := Draft.wordlike_placeholder
  obtain ⟨hquote, hline, hblock⟩ := Literal.read_eq_none_iff.1 hm.1
  refine Literal.read_eq_none_iff.2 ⟨fun hc => ?_, fun hc hhead => ?_, fun hc r hr => ?_⟩
  · -- a quote that is exposed among the placeholders is exposed in the text
    rw [Text.closing_eq_none_iff, exposes_spell hf hc, ← exposes_mapHits Hit.unnumbered]
    have hclosing := Text.closing_eq_none_iff.1 (hquote hc)
    by_contra hexposes
    rw [Bool.not_eq_false] at hexposes
    rw [exposes_text_of_exposes hc hm.2 (.inl rfl) hexposes] at hclosing
    cases hclosing
  · obtain ⟨r, hr⟩ := List.head?_eq_some_iff.1 hhead
    obtain ⟨n, rfl, -⟩ := exists_cons_of_spell_eq hf (Draft.notMem_placeholder (by simp)) hr
    exact hline hc rfl
  -- a block comment that is closed among the placeholders is closed in the text
  · obtain ⟨n, rfl, rfl⟩ := exists_cons_of_spell_eq hf (Draft.notMem_placeholder (by simp)) hr
    intro hclosed
    refine hblock hc (text (mapHits Hit.unnumbered n)) rfl ?_
    rw [text_mapHits_unnumbered]
    exact infix_text_of_infix_spell hf (Draft.notMem_placeholder (by simp))
      (Draft.notMem_placeholder (by simp)) hclosed

/-- No literal begins inside a placeholder. -/
theorem read_placeholder_append {h : Hit (Kind × Nat)} {w : Text} (hne : w ≠ [])
    (hw : w <:+ Draft.placeholder h) (r : Text) : Literal.read (w ++ r) = none := by
  obtain ⟨c, w, rfl⟩ := List.exists_cons_of_ne_nil hne
  have hmem : c ∈ Draft.placeholder h := hw.subset List.mem_cons_self
  rw [List.cons_append, Literal.read_eq_none_iff]
  refine ⟨fun hc => ?_, fun hc => ?_, fun hc => ?_⟩
  · rw [isQuote_of_isPlain (Draft.wordlike_placeholder.plain h c hmem)] at hc
    cases hc
  · exact absurd hmem (Draft.notMem_placeholder (by simp [hc]) h)
  · exact absurd hmem (Draft.notMem_placeholder (by simp [hc]) h)

/-- What the recogniser of literals leaves over is bare when placeholders stand for the hits. -/
theorem bare_spell (hm : Literal.recogniser.Scans (mapHits Hit.unnumbered m)) :
    Literal.Bare (spell Draft.placeholder m) := by
  induction m with
  | nil =>
    intro v hv
    rw [List.suffix_nil.1 hv]
    rfl
  | cons a m ih =>
    intro v hv
    cases a with
    | char c =>
      rcases List.suffix_cons_iff.1 hv with rfl | hv
      · exact read_char_spell hm
      · exact ih hm.2 v hv
    | hit x =>
      rw [spell_hit] at hv
      obtain ⟨u, hu⟩ := hv
      -- the suffix begins in the placeholder or after it
      rcases List.append_eq_append_iff.1 hu with ⟨w, hw, rfl⟩ | ⟨w, -, hw⟩
      · by_cases hnil : w = []
        · rw [hnil]
          exact ih hm.2 _ List.suffix_rfl
        · exact read_placeholder_append hnil ⟨u, hw.symm⟩ _
      · exact ih hm.2 v ⟨w, hw.symm⟩

end Marked

/-! ### Setting literals aside twice -/

namespace Draft

/-- Setting literals aside leaves a bare text. -/
theorem bare_preserve (d : Draft) : Literal.Bare d.preserve.text := by
  have htext : d.preserve.text = Marked.spell placeholder
      (Marked.number d.literals.length (Literal.cut d.text).symbols) := by
    rw [← Cut.symbols_numbered, ← Cut.joinWith_id]
    rfl
  rw [htext]
  refine Marked.bare_spell ?_
  -- numbers aside, the hits are those that the recogniser found
  rw [Marked.mapHits_number]
  exact Literal.scans_cut d.text

/-- Nothing is found in a bare text. -/
theorem found_of_bare {d : Draft} (h : Literal.Bare d.text) : d.found = ⟨[], d.text⟩ := by
  rw [found, Literal.cut_of_bare h]
  rfl

/-- In a bare text there is nothing to set aside. -/
theorem preserve_of_bare {d : Draft} (h : Literal.Bare d.text) : d.preserve = d := by
  rw [preserve, found_of_bare h]
  rfl

end Draft

/-- Setting literals aside leaves nothing to set aside: done a second time it finds no literal and
changes nothing, and no part of the text is a complete literal, whether placeholders stand in it or
not. -/
theorem run_preserve_run_preserve (o o' : Options) (d : Draft) :
    let d' := (Pass.run o .preserve d).draft
    (Literal.cut d'.text).hits = [] ∧
    Pass.run o' .preserve d' = { draft := d', notes := [.preserved 0] } ∧
    ∀ kind t, t <:+: d'.text → ¬Literal.Complete kind t := by
  intro d'
  have hbare : Literal.Bare d'.text := d.bare_preserve
  refine ⟨?_, ?_, fun kind t ht => hbare.not_complete ht kind⟩
  · rw [Literal.cut_of_bare hbare]
    rfl
  · rw [Pass.run, Draft.preserve_of_bare hbare, Draft.found_of_bare hbare]
    rfl

/-- A quote that is not closed, and after it a string behind a backslash, a comment that ends in a
backslash, a comment with a quote in it, and one more quote. -/
theorem run_preserve_run_preserve_open :
    let s := "\"a \\'b''c' --\\\n/*'*/ 'd".toList
    let d' := (Pass.run {} .preserve { text := s }).draft
    d'.text = "\"a \\___STRING_0___ ___COMMENT_1___\n___COMMENT_2___ 'd".toList ∧
    (Literal.cut d'.text).hits = [] ∧
    Pass.run {} .preserve d' = { draft := d', notes := [.preserved 0] } ∧
    Literal.Complete .string "'b''c'".toList ∧ "'d".toList <:+: d'.text ∧
    ¬Literal.Complete .string "'d".toList := by
  intro s d'
  have htext : d'.text = "\"a \\___STRING_0___ ___COMMENT_1___\n___COMMENT_2___ 'd".toList := by
    decide +kernel
  obtain ⟨hhits, hrun, hnone⟩ := run_preserve_run_preserve {} {} { text := s }
  have hinfix : "'d".toList <:+: d'.text :=
    ⟨"\"a \\___STRING_0___ ___COMMENT_1___\n___COMMENT_2___ ".toList, [], htext.symm⟩
  have hcomplete : Literal.Complete .string "'b''c'".toList := by
    have hfits : ∀ u ∈ [Text.SpanUnit.single 'b', .doubled, .single 'c'],
        u.Fits Text.singleQuote := by
      simp [Text.SpanUnit.Fits, Text.singleQuote]
    exact .quoted rfl hfits
  exact ⟨htext, hhits, hrun, hcomplete, hinfix, hnone .string _ hinfix⟩

end SqlTidy
