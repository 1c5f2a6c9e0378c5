import SqlTidy.Proofs.Draft
import SqlTidy.Proofs.Respacing

/-!
# Formatting a formatted text

A formatted text has the literals of the text and, between them, its words and marks.  Formatting it
again therefore starts from the same tokens, whatever the options of the first time were, and comes
to what formatting the text itself comes to.

## Main results

* `LaidTokens.marked_text` — the literals of a laid-out text stand where they stood.
* `LaidTokens.laidOut_eq` — a laid-out text is laid out as the text is.
* `format_format` — formatting absorbs an earlier formatting.
-/

namespace SqlTidy

open Literal (Kind)

variable {o : Options} {s : Text} {ps : List (Text × Marked (Kind × Nat))}

/-- A text without quotes outside its literals is marked so. -/
theorem quoteFree_marked (hs : ∀ g ∈ (Literal.cut s).gaps, ∀ c ∈ g, Text.isQuote c = false) :
    (marked s).QuoteFree := by
  rw [← Marked.quoteFree_mapHits Hit.unnumbered, Marked.quoteFree_iff_gaps, ← cut_eq_marked]
  exact hs

/-- The tokens of a text without quotes in its gaps do not depend on how it is collapsed. -/
theorem tokens_collapse_recase (o : Options) {m : Marked (Kind × Nat)} (hm : m.QuoteFree) :
    (m.collapse.recase o).tokens = m.tokens.map (Marked.recase o) := by
  rw [Marked.tokens_recase, Marked.tokens_collapse hm]

/-- Laying a text out respaces it. -/
theorem LaidTokens.respaces (h : LaidTokens o s ps) (hs : (marked s).QuoteFree) :
    Marked.Respaces (fun h => h.isLine = true ∧ h ∈ (marked s).hits) (marked s) ps where
  blank := h.blank
  follows := h.follows
  tokens_eq := by
    have := congrArg (List.map Marked.fold) h.tokens_eq
    simpa [tokens_collapse_recase o hs, Marked.fold_recase, Function.comp_def] using this

/-- The literals of a laid-out text stand where they stood. -/
theorem LaidTokens.marked_text (h : LaidTokens o s ps) (hs : (marked s).QuoteFree) :
    marked (Marked.weave ps).text = Marked.weave ps := by
  have hrespaces : Marked.Respaces (·.tag = .lineComment) ((marked s).mapHits Hit.unnumbered)
      (ps.map fun p => (p.1, p.2.mapHits Hit.unnumbered)) :=
    (h.respaces hs).mapHits Hit.unnumbered fun x hx hline =>
      ⟨by simpa [Hit.isLine, Hit.unnumbered] using hline, hx⟩
  have hscans := hrespaces.scans (by rw [mapHits_marked]; exact Literal.scans_cut s)
    ((Marked.quoteFree_mapHits _ _).2 hs)
  rw [← Marked.mapHits_weave] at hscans
  -- what is scanned right is what the recogniser finds
  have hcut := Literal.recogniser.cut_text_of_scans hscans
  rw [Marked.text_mapHits_unnumbered] at hcut
  rw [marked, Literal.cut, hcut, Marked.symbols_cut]
  exact Marked.number_mapHits (by rw [h.hits_eq, numbers_marked])

/-- The layout of a draft does not look at its text, but at its tokens. -/
theorem Draft.layout_congr {d d' : Draft} (htokens : d.tokens = d'.tokens)
    (hliterals : d.literals = d'.literals) (hcomments : d.lineComments = d'.lineComments) :
    d.layout o = d'.layout o := by
  obtain ⟨text, literals, comments, tokens⟩ := d
  obtain ⟨text', literals', comments', tokens'⟩ := d'
  obtain rfl := htokens
  obtain rfl := hliterals
  obtain rfl := hcomments
  rfl

/-- A laid-out text is laid out as the text is. -/
theorem LaidTokens.laidOut_eq {o' : Options} (h : LaidTokens o' s ps) (hs : (marked s).QuoteFree)
    (hfence : (marked s).Unfenced) : laidOut o (Marked.weave ps).text = laidOut o s := by
  have hmarked := h.marked_text hs
  have hfence' : (marked (Marked.weave ps).text).Unfenced := by
    rw [hmarked]
    exact h.unfenced
  obtain ⟨hold, hrep⟩ := tokens_ready o hfence
  obtain ⟨hnew, hrep'⟩ := tokens_ready o hfence'
  rw [hmarked] at hnew hrep'
  have hhits : ((Marked.weave ps).collapse.recase o).hits =
      ((marked s).collapse.recase o).hits := by
    rw [hits_collapse_recase, hits_collapse_recase, h.hits_eq]
  -- the tokens are the same, since recasing twice is recasing the second time
  have htokens : ((Marked.weave ps).collapse.recase o).tokens =
      ((marked s).collapse.recase o).tokens := by
    have hrespaces := h.respaces hs
    calc ((Marked.weave ps).collapse.recase o).tokens
        = (ps.map Prod.snd).map (Marked.recase o) := by
          rw [tokens_collapse_recase o (hrespaces.quoteFree hs), hrespaces.tokens_weave hs]
      _ = (marked s).tokens.map (Marked.recase o) := by
          simp [h.tokens_eq, tokens_collapse_recase o' hs, Function.comp_def, Marked.recase_recase]
      _ = ((marked s).collapse.recase o).tokens := (tokens_collapse_recase o hs).symm
  -- the drafts agree in all that the layout looks at
  refine Draft.layout_congr ?_ ?_ ?_
  · rw [hnew, hold, htokens]
  · rw [hrep'.literals_eq, hrep.literals_eq, hhits]
  · rw [hrep'.lineComments_eq, hrep.lineComments_eq, hhits]

/-- A laid-out text is blank only if the text is. -/
theorem LaidTokens.isAllBlank_of_text (h : LaidTokens o s ps)
    (hblank : Text.isAllBlank (Marked.weave ps).text = true) : Text.isAllBlank s = true := by
  have hsolid : ∀ x ∈ (marked s).hits, ∃ c b, x.text = c :: b ∧ Text.isBlank c = false :=
    fun x hx => exists_solid_of_mem_hits hx
  rw [isAllBlank_text_iff (by rw [h.hits_eq]; exact hsolid), ← Marked.strip_eq_nil_iff] at hblank
  have hstrip := h.fold_strip
  rw [hblank] at hstrip
  have hnil : (marked s).strip = [] := List.map_eq_nil_iff.1 hstrip.symm
  rw [← text_marked s, isAllBlank_text_iff hsolid, ← Marked.strip_eq_nil_iff, hnil]

/-- Formatting absorbs an earlier formatting, whatever its options were. -/
theorem format_format {o₁ o₂ : Options} (ho : Text.isAllBlank o₁.indentText = true)
    (hquote : ∀ g ∈ (Literal.cut s).gaps, ∀ c ∈ g, Text.isQuote c = false)
    (hfence : ∀ g ∈ (Literal.cut s).gaps, ¬Placeholder.fence <:+: g)
    (hfault : (formatReport o₂ s).fault = none) :
    format o₂ (format o₁ s) = format o₂ s := by
  -- where the first formatting changes nothing, there is nothing to absorb
  have hsame : format o₁ s = s → format o₂ (format o₁ s) = format o₂ s := congrArg (format o₂)
  cases hblank : Text.isAllBlank s with
  | true => exact hsame (by rw [format, formatReport_of_isAllBlank o₁ hblank])
  | false =>
    cases hd : laidOut o₁ s with
    | error e => exact hsame (formatReport_of_laidOut_error hblank hd).1
    | ok d =>
      obtain ⟨ps, hps, hrep⟩ := exists_weave_of_laidOut ho (unfenced_marked hfence) hd
      have hformat : format o₁ s = (Marked.weave ps).text := by
        rw [format, (formatReport_of_laidOut_ok hblank hd).1, hrep.restore_text hps.unfenced]
      have hsolid : Text.isAllBlank (Marked.weave ps).text = false := by
        by_contra h
        rw [hps.isAllBlank_of_text (Bool.not_eq_false _ ▸ h)] at hblank
        cases hblank
      have hlaid : laidOut o₂ (Marked.weave ps).text = laidOut o₂ s :=
        hps.laidOut_eq (quoteFree_marked hquote) (unfenced_marked hfence)
      rw [hformat, format, format]
      cases hd₂ : laidOut o₂ s with
      | error e =>
        rw [(formatReport_of_laidOut_error hblank hd₂).2] at hfault
        cases hfault
      | ok d₂ =>
        rw [(formatReport_of_laidOut_ok hsolid (hlaid.trans hd₂)).1,
          (formatReport_of_laidOut_ok hblank hd₂).1]

/-- A text with literals of all kinds, parentheses that do not match and a block comment that is not
closed, formatted with tabs and small letters first. -/
theorem format_format_tabs :
    let s := "sElect 'It''s\n',\"X\" --(\nT) /* a\nb */(x,/*".toList
    let o : Options := { reservedCase := .lowercase, indentText := ['\t'] }
    (∀ g ∈ (Literal.cut s).gaps, ∀ c ∈ g, Text.isQuote c = false) ∧
    (∀ g ∈ (Literal.cut s).gaps, ¬Placeholder.fence <:+: g) ∧
    (formatReport {} s).fault = none ∧ format {} (format o s) = format {} s := by
  intro s o
  refine ⟨?quote, ?fence, ?fault, format_format (by decide) ?quote ?fence ?fault⟩
  case quote =>
    have hall : (Literal.cut s).gaps.all (fun g => g.all fun c => !Text.isQuote c) = true := by
      decide +kernel
    simpa only [List.all_eq_true, Bool.not_eq_true'] using hall
  case fence => decide +kernel
  case fault => decide +kernel

end SqlTidy
