import SqlTidy.Proofs.Draft
import SqlTidy.Proofs.Respacing

/-!
# Quotes among the tokens

Literals are recognised in the text as it was given, and quoted spans again when the text is split
into tokens.  In between, literals have given way to placeholders, blanks were collapsed and words
recased.  Still the second scan finds no span that it could close: a quote that is left over begins
the last token, and that token goes on to the end of the text.

## Main results

* `Marked.quoteFree_of_mem_dropLast_tokens`, `Marked.exists_quote_of_mem_tokens` — where quotes
  stand among the tokens of a text whose quotes are not closed.
* `unclosed_ready` — what is left of a text before its layout has no quotes that are closed,
  whatever the text looks like.
* `quote_of_mem_tokens_ready` — where quotes stand among the tokens of a text.
-/

namespace SqlTidy

open Literal (Kind)

namespace Marked

variable {α : Type}

/-- Tokens but for the last have no quote. -/
theorem quoteFree_of_mem_dropLast_tokens {m t : Marked α} (ht : t ∈ (tokens m).dropLast) :
    QuoteFree t := by
  -- what comes before other tokens is no quote
  have hcons : ∀ {u : Marked α} {us : List (Marked α)}, QuoteFree u → t ∈ (u :: us).dropLast →
      (t ∈ us.dropLast → QuoteFree t) → QuoteFree t := by
    intro u us hu ht ih
    cases us with
    | nil => simp at ht
    | cons v us =>
      rcases List.mem_cons.1 ht with rfl | ht
      · exact hu
      · exact ih ht
  induction m using token_induction with
  | nil => simp at ht
  | quote c m hc => simp [tokens_quote hc] at ht
  | blank c m hc ih =>
    rw [tokens_blank hc] at ht
    exact ih ht
  | mark c m hc ih =>
    rw [tokens_mark hc] at ht
    exact hcons (by simpa [QuoteFree] using isQuote_of_isPunctuation hc) ht ih
  | word w m hw hstop ih =>
    rw [tokens_word hw hstop] at ht
    exact hcons (fun a ha => Symbol.isQuote_of_isPlain (hw.2 a ha)) ht ih

/-- A token with a quote begins with one that is not closed, and goes on to the end. -/
theorem exists_quote_of_mem_tokens {m t : Marked α} (hm : Unclosed m) (ht : t ∈ tokens m)
    (hquote : ¬QuoteFree t) :
    ∃ q r, t = .char q :: r ∧ Text.isQuote q = true ∧ t <:+ m ∧ exposes q false r = false := by
  -- the only token with a quote is the last one, which the quote begins
  induction m using token_induction with
  | nil => simp at ht
  | quote c m hc =>
    rw [tokens_quote hc, List.mem_singleton] at ht
    rw [Unclosed, if_pos hc] at hm
    exact ⟨c, m, ht, hc, ht ▸ List.suffix_rfl, hm⟩
  | blank c m hc ih =>
    rw [tokens_blank hc] at ht
    rw [Unclosed, if_neg (by simp [isQuote_of_isBlank hc])] at hm
    obtain ⟨q, r, hqr, hq, hsuffix, hexposes⟩ := ih hm ht
    exact ⟨q, r, hqr, hq, hsuffix.trans (List.suffix_cons _ m), hexposes⟩
  | mark c m hc ih =>
    rw [tokens_mark hc, List.mem_cons] at ht
    rw [Unclosed, if_neg (by simp [isQuote_of_isPunctuation hc])] at hm
    rcases ht with rfl | ht
    · exact absurd (by simpa [QuoteFree] using isQuote_of_isPunctuation hc) hquote
    · obtain ⟨q, r, hqr, hq, hsuffix, hexposes⟩ := ih hm ht
      exact ⟨q, r, hqr, hq, hsuffix.trans (List.suffix_cons _ m), hexposes⟩
  | word w m hw hstop ih =>
    have hfree : QuoteFree w := fun a ha => Symbol.isQuote_of_isPlain (hw.2 a ha)
    rw [tokens_word hw hstop, List.mem_cons] at ht
    rw [unclosed_append hfree] at hm
    rcases ht with rfl | ht
    · exact absurd hfree hquote
    · obtain ⟨q, r, hqr, hq, hsuffix, hexposes⟩ := ih hm ht
      exact ⟨q, r, hqr, hq, hsuffix.trans (List.suffix_append w m), hexposes⟩

/-- Where no quote stands in a gap, none is written. -/
theorem isQuote_of_mem_spell {f : Hit α → Text} (hf : Wordlike f) {m : Marked α}
    (hm : QuoteFree m) : ∀ c ∈ spell f m, Text.isQuote c = false := by
  intro c hc
  obtain ⟨a, ha, hca⟩ := List.mem_flatMap.1 hc
  cases a with
  | char d =>
    obtain rfl : c = d := List.mem_singleton.1 hca
    exact hm _ ha
  | hit h => exact isQuote_of_isPlain (hf.plain h c hca)

/-- Writing hits as words closes no quote. -/
theorem Unclosed.ofText_spell {f : Hit α → Text} (hf : Wordlike f) {m : Marked α}
    (hm : Unclosed m) : Unclosed (ofText (spell f m) : Marked α) := by
  induction m with
  | nil => trivial
  | cons a m ih =>
    cases a with
    | char c =>
      rw [spell_char, ofText_cons, Unclosed]
      rw [Unclosed] at hm
      split
      · next hc =>
        rw [if_pos hc] at hm
        -- whether a quote is exposed is the same in the text as between the hits
        rw [← exposes_spell hf hc, spell_ofText, exposes_spell hf hc, hm]
      · next hc =>
        rw [if_neg hc] at hm
        exact ih hm
    | hit h =>
      rw [spell_hit, ofText_append, unclosed_append]
      · exact ih hm
      · intro a ha
        obtain ⟨c, hc, rfl⟩ := List.mem_map.1 ha
        exact isQuote_of_isPlain (hf.plain h c hc)

end Marked

/-- Recasing keeps a text but for the case of its ASCII letters, whatever it takes for
placeholders. -/
theorem map_toLower_recase (o : Options) (s : Text) :
    (recase o s).map Char.toLower = s.map Char.toLower := by
  have hfold := Marked.fold_mapGaps (map_toLower_recaseWords o) (Placeholder.cut s).symbols
  have hlower := Marked.map_toLower_spell Hit.text hfold
  rw [← Marked.joinWith_cut, Marked.cut_symbols, ← Marked.text, ← Cut.join_eq_text] at hlower
  -- put together again, the cut is the text itself
  rw [Placeholder.cut, Recogniser.join_cut] at hlower
  exact hlower

/-- What is left of a text before its layout has no quote that is closed.  Nothing is asked of the
text: even what only looks like a placeholder is recased without a quote being touched. -/
theorem unclosed_ready (o : Options) (s : Text) :
    (Marked.ofText (ready o s).text : Marked (Kind × Nat)).Unclosed := by
  have htext := (unclosed_marked s).collapse.ofText_spell Draft.wordlike_placeholder
  rw [← (Draft.represents_preserve s).collapse.text_eq] at htext
  refine htext.of_fold_eq ?_
  rw [Marked.fold_ofText, Marked.fold_ofText]
  exact congrArg _ (map_toLower_recase o _).symm

/-- The tokens of a text before its layout, as those of a text whose quotes are not closed. -/
theorem tokens_ready_eq (o : Options) (s : Text) :
    (ready o s).tokens = (Marked.ofText (ready o s).text : Marked (Kind × Nat)).tokens.map
      (Marked.spell Draft.placeholder) := by
  have := Marked.tokenize_spell Draft.wordlike_placeholder (unclosed_ready o s)
  rwa [Marked.spell_ofText] at this

/-- No token but the last has a quote, and if the last one has, then it begins with a quote that
nothing closes up to the end of the text. -/
theorem quote_of_mem_tokens_ready (o : Options) (s : Text) :
    (∀ t ∈ (ready o s).tokens.dropLast, ∀ c ∈ t, Text.isQuote c = false) ∧
    ∀ t ∈ (ready o s).tokens.getLast?, (∃ c ∈ t, Text.isQuote c = true) →
      ∃ q r, t = q :: r ∧ Text.isQuote q = true ∧ t <:+ (ready o s).text ∧
        Text.closing q r = none := by
  rw [tokens_ready_eq]
  constructor
  · intro t ht
    rw [← List.map_dropLast] at ht
    obtain ⟨u, hu, rfl⟩ := List.mem_map.1 ht
    exact Marked.isQuote_of_mem_spell Draft.wordlike_placeholder
      (Marked.quoteFree_of_mem_dropLast_tokens hu)
  · rintro t ht ⟨c, hc, hquote⟩
    -- the token comes from one of the marked text, which begins with a quote that is not closed
    obtain ⟨u, hu, rfl⟩ := List.mem_map.1 (List.mem_of_getLast? ht)
    have hfree : ¬u.QuoteFree := fun hfree => by
      simp [Marked.isQuote_of_mem_spell Draft.wordlike_placeholder hfree c hc] at hquote
    obtain ⟨q, r, rfl, hq, ⟨v, hv⟩, hexposes⟩ :=
      Marked.exists_quote_of_mem_tokens (unclosed_ready o s) hu hfree
    refine ⟨q, Marked.spell Draft.placeholder r, rfl, hq,
      ⟨Marked.spell Draft.placeholder v, ?_⟩, ?_⟩
    · rw [← Marked.spell_append, hv, Marked.spell_ofText]
    · rw [Text.closing_eq_none_iff, Marked.exposes_spell Draft.wordlike_placeholder hq, hexposes]

/-- A string with a doubled quote, and a quoted identifier that is not closed, with a string and a
comment that ends in a backslash inside. -/
theorem quote_of_mem_tokens_ready_nested :
    let s := "select 'it''s', \"x 'y'  --\\\n Z".toList
    let t := "\"x ___STRING_1___ ___COMMENT_2___ z".toList
    (ready {} s).tokens.getLast? = some t ∧ (∃ c ∈ t, Text.isQuote c = true) ∧
      ∃ q r, t = q :: r ∧ Text.isQuote q = true ∧ t <:+ (ready {} s).text ∧
        Text.closing q r = none := by
  intro s t
  have hlast : (ready {} s).tokens.getLast? = some t := by decide +kernel
  have hquote : ∃ c ∈ t, Text.isQuote c = true := ⟨'"', List.mem_cons_self, rfl⟩
  exact ⟨hlast, hquote, (quote_of_mem_tokens_ready {} s).2 t hlast hquote⟩

end SqlTidy
