import SqlTidy.Proofs.Draft

/-!
# Formatting keeps the content of a text

Formatting may change the blanks between the literals of a text and the case of its ASCII letters
there, and nothing else.

## Main definitions

* `Text.content s` — what is left of `s` when blanks and the case of ASCII letters do not count.

## Main results

* `format_content` — the formatted text has the literals of the text in order, and between them gaps
  with the same content.
-/

namespace SqlTidy

open Literal (Kind)

/-- What is left of a text when blanks and the case of ASCII letters do not count. -/
def Text.content (s : Text) : Text := (s.filter fun c => !Text.isBlank c).map Char.toLower

namespace Marked

variable {α : Type}

/-- Taking the content of every gap is leaving out blanks and making letters small. -/
theorem mapGaps_content (m : Marked α) : mapGaps Text.content m = fold (strip m) := by
  have hgap : ∀ g : Text, fold (strip (ofText g : Marked α)) = ofText g.content := by
    intro g
    rw [Text.content, ← fold_ofText, ofText, ofText, strip, List.filter_map]
    rfl
  induction m using gap_induction with
  | gap g => rw [mapGaps_ofText, hgap]
  | hit g h m ih =>
    rw [mapGaps_ofText_append_hit, ih, strip_append, fold_append, hgap, strip_cons_solid rfl,
      fold_hit]

end Marked

/-- The formatted text has the literals of the text in order, and between them gaps with the same
content. -/
theorem format_content {o : Options} (ho : Text.isAllBlank o.indentText = true) {s : Text}
    (hs : ∀ g ∈ (Literal.cut s).gaps, ¬Placeholder.fence <:+: g) :
    ∃ k : Cut Kind, k.join = format o s ∧ k.hits = (Literal.cut s).hits ∧
      k.gaps.map Text.content = (Literal.cut s).gaps.map Text.content := by
  -- where nothing changes, the literals stay where they are
  have hsame : format o s = s → ∃ k : Cut Kind, k.join = format o s ∧
      k.hits = (Literal.cut s).hits ∧
      k.gaps.map Text.content = (Literal.cut s).gaps.map Text.content := by
    intro h
    exact ⟨Literal.cut s, by rw [h]; exact Recogniser.join_cut _ s, rfl, rfl⟩
  cases hblank : Text.isAllBlank s with
  | true => exact hsame (by rw [format, formatReport_of_isAllBlank o hblank])
  | false =>
    cases hd : laidOut o s with
    | error e => exact hsame (formatReport_of_laidOut_error hblank hd).1
    | ok d =>
      obtain ⟨ps, hps, hrep⟩ := exists_weave_of_laidOut ho (unfenced_marked hs) hd
      -- the layout and the stages before it touch blanks and case only
      have hcontent : (Marked.weave ps).mapGaps Text.content = (marked s).mapGaps Text.content := by
        rw [Marked.mapGaps_content, Marked.mapGaps_content, hps.fold_strip]
      refine ⟨((Marked.weave ps).mapHits Hit.unnumbered).cut, ?_, ?_, ?_⟩
      · rw [Cut.join_eq_text, Marked.symbols_cut, Marked.text_mapHits_unnumbered, format,
          (formatReport_of_laidOut_ok hblank hd).1, hrep.restore_text hps.unfenced]
      · rw [Marked.hits_cut, Marked.hits_mapHits, hps.hits_eq, ← Marked.hits_mapHits,
          mapHits_marked, Cut.hits_symbols]
      · rw [← Marked.gaps_mapGaps, Marked.mapGaps_mapHits, hcontent, ← Marked.mapGaps_mapHits,
          Marked.gaps_mapGaps, mapHits_marked, Marked.cut_symbols]

/-- Literals that look like placeholders, twice the same, and a quote that is not closed. -/
theorem format_content_placeholders :
    let s := "a '___STRING_0___','___STRING_0___') --B\n'C".toList
    (∀ g ∈ (Literal.cut s).gaps, ¬Placeholder.fence <:+: g) ∧
    ∃ k : Cut Kind, k.join = format {} s ∧ k.hits = (Literal.cut s).hits ∧
      k.gaps.map Text.content = (Literal.cut s).gaps.map Text.content := by
  intro s
  refine ⟨?fence, format_content (by decide) ?fence⟩
  decide +kernel

end SqlTidy
