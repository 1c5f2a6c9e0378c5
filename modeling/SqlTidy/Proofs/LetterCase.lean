import SqlTidy.Proofs.Outline
import SqlTidy.Proofs.Respacing

/-!
# Layout and letter case

Two texts that differ in nothing but the case of ASCII letters outside their literals are laid out
alike, whatever case styles are asked for.  Every stage of formatting keeps the two runs in step: up
to case they have the same marked text after each of them, and the layout only looks at the outlines
of the tokens.

## Main results

* `Marked.fold_collapse_eq`, `Marked.fold_tokens_eq` — collapsing and splitting into tokens do not
  depend on case.
* `fold_marked_eq` — up to case, texts with the same literals and gaps are the same marked text.
* `fold_formatted_eq` — up to case, the two runs end in the same marked text.
* `format_letterCase` — the layout does not depend on letter case.
-/

namespace SqlTidy

open Literal (Kind)

namespace Marked

variable {α : Type} {m n : Marked α}

/-! ### Stages up to case -/

/-- Squeezing runs of blanks does not depend on case. -/
theorem fold_squeezeFrom_eq (h : fold m = fold n) (inRun : Bool) :
    fold (squeezeFrom inRun m) = fold (squeezeFrom inRun n) := by
  induction h using fold_induction generalizing inRun with
  | nil => rfl
  | char c d m n hcd _ ih =>
    have hblank : Text.isBlank c = Text.isBlank d := eq_of_toLower_eq isBlank_case hcd
    cases hc : Text.isBlank c with
    | true =>
      rw [squeezeFrom_blank (by simpa using hc), squeezeFrom_blank (by simpa [hblank] using hc)]
      split
      · exact ih true
      · rw [fold_char, fold_char, ih true]
    | false =>
      rw [squeezeFrom_solid (by simpa using hc), squeezeFrom_solid (by simpa [hblank] using hc),
        fold_char, fold_char, hcd, ih false]
  | hit h m n _ ih =>
    rw [squeezeFrom_solid rfl, squeezeFrom_solid rfl, fold_hit, fold_hit, ih false]

/-- Trimming at the beginning does not depend on case. -/
theorem fold_trimStart_eq (h : fold m = fold n) : fold (trimStart m) = fold (trimStart n) := by
  induction h using fold_induction with
  | nil => rfl
  | char c d m n hcd hmn ih =>
    have hblank : Text.isBlank c = Text.isBlank d := eq_of_toLower_eq isBlank_case hcd
    cases hc : Text.isBlank c with
    | true => simpa [trimStart, hc, ← hblank] using ih
    | false => simp [trimStart, hc, ← hblank, hcd, hmn]
  | hit h m n hmn _ => simp [trimStart, hmn]

/-- Making letters small can be done from either end. -/
theorem fold_reverse (m : Marked α) : fold m.reverse = (fold m).reverse := List.map_reverse

/-- Trimming at the end does not depend on case. -/
theorem fold_trimEnd_eq (h : fold m = fold n) : fold (trimEnd m) = fold (trimEnd n) := by
  have hreverse : fold m.reverse = fold n.reverse := by rw [fold_reverse, fold_reverse, h]
  have := congrArg List.reverse (fold_trimStart_eq hreverse)
  rwa [← fold_reverse, ← fold_reverse] at this

/-- Collapsing does not depend on case. -/
theorem fold_collapse_eq (h : fold m = fold n) : fold (collapse m) = fold (collapse n) :=
  fold_trimEnd_eq (fold_trimStart_eq (fold_squeezeFrom_eq h false))

/-- A marked text that begins with a character up to case begins with one. -/
theorem exists_char_of_fold_eq {c : Char} (h : fold (.char c :: m) = fold n) :
    ∃ d n', n = .char d :: n' ∧ c.toLower = d.toLower ∧ fold m = fold n' := by
  rcases n with _ | ⟨⟨d⟩ | ⟨k⟩, n⟩
  · simp at h
  · obtain ⟨hcd, hmn⟩ : c.toLower = d.toLower ∧ fold m = fold n := by simpa using h
    exact ⟨d, n, rfl, hcd, hmn⟩
  · simp at h

/-- Splitting into tokens does not depend on case. -/
theorem fold_tokens_eq (h : fold m = fold n) : (tokens m).map fold = (tokens n).map fold := by
  induction m using token_induction generalizing n with
  | nil => rw [List.map_eq_nil_iff.1 h.symm]
  | quote c m hc =>
    obtain ⟨d, n, rfl, hcd, -⟩ := exists_char_of_fold_eq h
    have hd : Text.isQuote d = true := eq_of_toLower_eq isQuote_case hcd ▸ hc
    rw [tokens_quote hc, tokens_quote hd, List.map_singleton, List.map_singleton, h]
  | blank c m hc ih =>
    obtain ⟨d, n, rfl, hcd, hmn⟩ := exists_char_of_fold_eq h
    have hd : Text.isBlank d = true := eq_of_toLower_eq isBlank_case hcd ▸ hc
    rw [tokens_blank hc, tokens_blank hd, ih hmn]
  | mark c m hc ih =>
    obtain ⟨d, n, rfl, hcd, hmn⟩ := exists_char_of_fold_eq h
    -- a mark is no letter
    have hletter := isAlpha_of_isPlain (isPlain_of_isPunctuation hc)
    obtain rfl : d = c := (eq_char_iff_of_toLower_eq hletter hcd).1 rfl
    rw [tokens_mark hc, tokens_mark hc, List.map_cons, List.map_cons, ih hmn]
  | word w m hw hstop ih =>
    -- the word has a counterpart at the same place
    obtain ⟨w', n, rfl, hw', hn⟩ := List.map_eq_append_iff.1 ((fold_append w m).symm.trans h).symm
    have hword := isWord_of_fold_eq hw hw'.symm
    rw [tokens_word hw hstop, tokens_word hword (hstop.of_fold_eq hn.symm), List.map_cons,
      List.map_cons, ih hn.symm]
    exact congrArg (· :: _) hw'.symm

/-- Making letters small in every gap. -/
theorem mapGaps_toLower (m : Marked α) : mapGaps (List.map Char.toLower) m = fold m := by
  induction m using gap_induction with
  | gap g => rw [mapGaps_ofText, fold_ofText]
  | hit g h m ih => rw [mapGaps_ofText_append_hit, fold_append, fold_ofText, fold_hit, ih]

/-- Numbers do not depend on case. -/
theorem fold_number {β : Type} (n : Nat) (m : Marked β) :
    fold (number n m) = number n (fold m) := by
  induction m generalizing n with
  | nil => rfl
  | cons a m ih =>
    cases a with
    | char c => rw [number, fold_char, fold_char, number, ih]
    | hit h => rw [number, fold_hit, fold_hit, number, ih]

end Marked

/-! ### Texts with the same literals -/

/-- Cuts with the same hits and, up to case, the same gaps are the same marked text up to case. -/
theorem Cut.fold_symbols_eq {α : Type} {k k' : Cut α}
    (hgaps : k.gaps.map (List.map Char.toLower) = k'.gaps.map (List.map Char.toLower))
    (hhits : k.hits = k'.hits) : k.symbols.fold = k'.symbols.fold := by
  -- with small letters, the two have the same gaps and the same hits
  have hcut : k.symbols.fold.cut = k'.symbols.fold.cut := by
    rw [← Marked.mapGaps_toLower, ← Marked.mapGaps_toLower]
    refine Cut.eq_of_gaps_eq ?_ ?_
    · rw [Marked.gaps_mapGaps, Marked.gaps_mapGaps, Marked.cut_symbols, Marked.cut_symbols, hgaps]
    · rw [Marked.hits_cut, Marked.hits_cut, Marked.hits_mapGaps, Marked.hits_mapGaps,
        Cut.hits_symbols, Cut.hits_symbols, hhits]
  rw [← Marked.symbols_cut k.symbols.fold, hcut, Marked.symbols_cut]

namespace Literal

/-- The quote tells strings from quoted identifiers. -/
theorem Kind.eq_of_quote?_eq {kind kind' : Kind} {q : Char} (h : kind.quote? = some q)
    (h' : kind'.quote? = some q) : kind = kind' := by
  have hsame : kind.quote? = kind'.quote? := h.trans h'.symm
  have hsome : kind.quote? ≠ none := by simp [h]
  revert hsame hsome
  cases kind <;> cases kind' <;> decide

/-- The kind of a literal is known from its text. -/
theorem Stands.kind_eq {kind kind' : Kind} {t r r' : Text} (h : Stands kind t r)
    (h' : Stands kind' t r') : kind = kind' := by
  -- the first character of a literal tells its kind
  cases h with
  | quoted hq _ =>
    cases h' with
    | quoted hq' _ => exact Kind.eq_of_quote?_eq hq hq'
    | line => cases Kind.isQuote_of_quote? hq
    | block => cases Kind.isQuote_of_quote? hq
  | line =>
    cases h' with
    | quoted hq' _ => cases Kind.isQuote_of_quote? hq'
    | line => rfl
  | block =>
    cases h' with
    | quoted hq' _ => cases Kind.isQuote_of_quote? hq'
    | block => rfl

/-- Literals are known from their texts. -/
theorem eq_of_map_text_eq {l l' : List (Hit Kind)} (hl : ∀ h ∈ l, ∃ r, Stands h.tag h.text r)
    (hl' : ∀ h ∈ l', ∃ r, Stands h.tag h.text r) (h : l.map Hit.text = l'.map Hit.text) :
    l = l' := by
  induction l generalizing l' with
  | nil => rw [List.map_eq_nil_iff.1 h.symm]
  | cons x l ih =>
    cases l' with
    | nil => simp at h
    | cons x' l' =>
      obtain ⟨kind, t⟩ := x
      obtain ⟨kind', t'⟩ := x'
      obtain ⟨⟨r, hx⟩, htail⟩ := List.forall_mem_cons.1 hl
      obtain ⟨⟨r', hx'⟩, htail'⟩ := List.forall_mem_cons.1 hl'
      obtain ⟨rfl, hrest⟩ : t = t' ∧ l.map Hit.text = l'.map Hit.text := by simpa using h
      obtain rfl : kind = kind' := hx.kind_eq hx'
      rw [ih htail htail' hrest]

end Literal

/-- Texts whose literals have the same texts have the same literals. -/
theorem hits_cut_eq {s₁ s₂ : Text}
    (h : (Literal.cut s₁).hits.map Hit.text = (Literal.cut s₂).hits.map Hit.text) :
    (Literal.cut s₁).hits = (Literal.cut s₂).hits := by
  exact Literal.eq_of_map_text_eq (exists_stands_of_mem_hits_cut s₁)
    (exists_stands_of_mem_hits_cut s₂) h

/-- Texts with the same literals and, up to case, the same gaps are the same up to case. -/
theorem fold_marked_eq {s₁ s₂ : Text} (hhits : (Literal.cut s₁).hits = (Literal.cut s₂).hits)
    (hgaps : (Literal.cut s₁).gaps.map (List.map Char.toLower) =
      (Literal.cut s₂).gaps.map (List.map Char.toLower)) :
    (marked s₁).fold = (marked s₂).fold := by
  rw [marked, marked, Marked.fold_number, Marked.fold_number, Cut.fold_symbols_eq hgaps hhits]

/-! ### Two runs -/

section TwoRuns

variable {o₁ o₂ : Options} {s₁ s₂ : Text}

/-- Tokens that differ in case only, with the same separators. -/
theorem Marked.fold_weave_zip {α : Type} {ts us : List (Marked α)} (h : ts.map fold = us.map fold)
    (es : List Text) : fold (weave (es.zip ts)) = fold (weave (es.zip us)) := by
  induction es generalizing ts us with
  | nil => rfl
  | cons e es ih =>
    cases ts with
    | nil => rw [List.map_eq_nil_iff.1 h.symm]
    | cons t ts =>
      cases us with
      | nil => simp at h
      | cons u us =>
        obtain ⟨htu, hrest⟩ := List.cons.inj h
        rw [List.zip_cons_cons, List.zip_cons_cons, weave_cons, weave_cons, fold_append,
          fold_append, fold_append, fold_append, ih hrest]
        exact congrArg (fun x => _ ++ (x ++ _)) htu

/-- Up to case, the two runs have the same tokens. -/
theorem fold_tokens_recase_eq (o₁ o₂ : Options) (h : (marked s₁).fold = (marked s₂).fold) :
    ((marked s₁).collapse.recase o₁).tokens.map Marked.fold =
      ((marked s₂).collapse.recase o₂).tokens.map Marked.fold := by
  refine Marked.fold_tokens_eq ?_
  rw [Marked.fold_recase, Marked.fold_recase]
  exact Marked.fold_collapse_eq h

/-- The layout does not tell the two runs apart. -/
theorem forall₂_alike_ready (o₁ o₂ : Options) (hs₁ : (marked s₁).Unfenced)
    (hs₂ : (marked s₂).Unfenced) (h : (marked s₁).fold = (marked s₂).fold) :
    List.Forall₂ (Layout.Alike (ready o₁ s₁).lineComments (ready o₂ s₂).lineComments)
      (ready o₁ s₁).tokens (ready o₂ s₂).tokens := by
  rw [(tokens_ready o₁ hs₁).1, (tokens_ready o₂ hs₂).1]
  refine Marked.forall₂_alike_spell (known_of_mem_tokens o₁ hs₁) (known_of_mem_tokens o₂ hs₂) ?_
  have := congrArg (List.map Marked.outline) (fold_tokens_recase_eq o₁ o₂ h)
  simpa [Function.comp_def, Marked.outline_fold] using this

/-- Whether a text is blank does not depend on case. -/
theorem isAllBlank_eq_of_map_toLower_eq {x y : Text}
    (h : x.map Char.toLower = y.map Char.toLower) : Text.isAllBlank x = Text.isAllBlank y := by
  rw [Bool.eq_iff_iff, Text.isAllBlank, Text.isAllBlank, List.all_eq_true, List.all_eq_true]
  exact ⟨forall_class_of_map_toLower_eq isBlank_case h,
    forall_class_of_map_toLower_eq isBlank_case h.symm⟩

/-- Up to case, the two runs end in the same text, with the literals in the same places. -/
theorem fold_formatted_eq (hsize : o₁.indentSize = o₂.indentSize)
    (hbase : o₁.baseIndent = o₂.baseIndent) (htext : o₁.indentText = o₂.indentText)
    (hs₁ : (marked s₁).Unfenced) (hs₂ : (marked s₂).Unfenced)
    (h : (marked s₁).fold = (marked s₂).fold) :
    (formatted o₁ s₁).fold = (formatted o₂ s₂).fold := by
  have hwidth : o₁.indentWidth = o₂.indentWidth := by
    funext k
    rw [Options.indentWidth, Options.indentWidth, hsize, hbase]
  have hmargin : o₁.margin = o₂.margin := by
    funext k
    rw [Options.margin, Options.margin, hwidth, htext]
  have hfits : ∀ k, o₁.Fits k ↔ o₂.Fits k := by
    intro k
    rw [Options.Fits, Options.Fits, hwidth, htext]
  have hblank : Text.isAllBlank s₁ = Text.isAllBlank s₂ := by
    refine isAllBlank_eq_of_map_toLower_eq ?_
    rw [← text_marked s₁, ← text_marked s₂]
    exact Marked.map_toLower_spell _ h
  have halike := forall₂_alike_ready o₁ o₂ hs₁ hs₂ h
  -- the runs ask for the same levels, so that both are laid out or none is
  have hleft : LeftAlone o₁ s₁ ↔ LeftAlone o₂ s₂ := by
    simp only [LeftAlone, hblank, hfits, Layout.allLevels_congr halike]
  unfold formatted
  by_cases hleft₁ : LeftAlone o₁ s₁
  · rw [if_pos hleft₁, if_pos (hleft.1 hleft₁), h]
  · rw [if_neg hleft₁, if_neg (mt hleft.2 hleft₁), arranged, arranged,
      Layout.separators_congr halike hmargin]
    exact Marked.fold_weave_zip (fold_tokens_recase_eq o₁ o₂ h) _

/-- The gaps of a formatted text, with small letters. -/
theorem gaps_formattedCut (o : Options) (s : Text) :
    (formattedCut o s).gaps.map (List.map Char.toLower) =
      ((formatted o s).fold.mapHits Hit.unnumbered).cut.gaps := by
  rw [formattedCut, ← Marked.gaps_mapGaps, Marked.mapGaps_toLower, Marked.fold_mapHits]

/-- The layout does not depend on letter case: two texts that differ in the case of ASCII letters
outside their literals are formatted, with whatever case styles, to texts of the same length with
the same literals in the same places that differ in case only. -/
theorem format_letterCase (hsize : o₁.indentSize = o₂.indentSize)
    (hbase : o₁.baseIndent = o₂.baseIndent) (htext : o₁.indentText = o₂.indentText)
    (ho : Text.isAllBlank o₁.indentText = true)
    (hhits : (Literal.cut s₁).hits.map Hit.text = (Literal.cut s₂).hits.map Hit.text)
    (hgaps : (Literal.cut s₁).gaps.map (List.map Char.toLower) =
      (Literal.cut s₂).gaps.map (List.map Char.toLower))
    (hfence : ∀ g ∈ (Literal.cut s₁).gaps, ¬Placeholder.fence <:+: g) :
    (format o₁ s₁).length = (format o₂ s₂).length ∧
    ∃ k₁ k₂ : Cut Kind, k₁.join = format o₁ s₁ ∧ k₂.join = format o₂ s₂ ∧
      k₁.hits = (Literal.cut s₁).hits ∧ k₂.hits = (Literal.cut s₁).hits ∧
      k₁.gaps.map (List.map Char.toLower) = k₂.gaps.map (List.map Char.toLower) := by
  have hsame := hits_cut_eq hhits
  have hfold := fold_marked_eq hsame hgaps
  have hs₁ := unfenced_marked hfence
  have hs₂ := hs₁.of_fold_eq hfold
  have ho₂ := htext ▸ ho
  have hformatted := fold_formatted_eq hsize hbase htext hs₁ hs₂ hfold
  refine ⟨?_, formattedCut o₁ s₁, formattedCut o₂ s₂, join_formattedCut ho hs₁,
    join_formattedCut ho₂ hs₂, hits_formattedCut ho hs₁, ?_, ?_⟩
  -- making letters small keeps the length
  · have hlower := Marked.map_toLower_spell Hit.text hformatted
    rw [← Marked.text, ← Marked.text, text_formatted ho hs₁, text_formatted ho₂ hs₂] at hlower
    simpa using congrArg List.length hlower
  · rw [hits_formattedCut ho₂ hs₂, hsame]
  · rw [gaps_formattedCut, gaps_formattedCut, hformatted]

/-- Words in other styles, a literal that holds a keyword, a comment, and a letter whose upper-case
form is ASCII. -/
theorem format_letterCase_styles :
    let o₁ : Options := {}
    let o₂ : Options :=
      { reservedCase := .lowercase, objectCase := .uppercase, functionCase := .capitalize }
    let s₁ := "Select a_B, 'From' fROM T\u0131 -- C\njoin u On x".toList
    let s₂ := "sELECT A_b, 'From' From t\u0131 -- C\nJoin U oN X".toList
    (Literal.cut s₁).hits.map Hit.text = (Literal.cut s₂).hits.map Hit.text ∧
    (Literal.cut s₁).gaps.map (List.map Char.toLower) =
      (Literal.cut s₂).gaps.map (List.map Char.toLower) ∧
    (∀ g ∈ (Literal.cut s₁).gaps, ¬Placeholder.fence <:+: g) ∧
    (format o₁ s₁).length = (format o₂ s₂).length ∧
    ∃ k₁ k₂ : Cut Kind, k₁.join = format o₁ s₁ ∧ k₂.join = format o₂ s₂ ∧
      k₁.hits = (Literal.cut s₁).hits ∧ k₂.hits = (Literal.cut s₁).hits ∧
      k₁.gaps.map (List.map Char.toLower) = k₂.gaps.map (List.map Char.toLower) := by
  intro o₁ o₂ s₁ s₂
  have hhits : (Literal.cut s₁).hits.map Hit.text = (Literal.cut s₂).hits.map Hit.text := by
    decide +kernel
  have hgaps : (Literal.cut s₁).gaps.map (List.map Char.toLower) =
      (Literal.cut s₂).gaps.map (List.map Char.toLower) := by
    decide +kernel
  have hfence : ∀ g ∈ (Literal.cut s₁).gaps, ¬Placeholder.fence <:+: g := by decide +kernel
  exact ⟨hhits, hgaps, hfence, format_letterCase rfl rfl rfl (by decide) hhits hgaps hfence⟩

end TwoRuns

end SqlTidy
