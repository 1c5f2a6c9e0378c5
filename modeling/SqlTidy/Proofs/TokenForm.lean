import SqlTidy.Proofs.QuotedSpan
import SqlTidy.Proofs.Weave

/-!
# Forms of tokens

A token is a punctuation mark, a word, or a quoted span with its units.  A quoted span that is not
closed can only be the last token, since it takes all the rest of the text.  Every other token is
found again whatever comes after it, as long as that is neither part of a word nor a quote; so
tokens that are written with blanks between them are found again.

## Main definitions

* `Token.Complete t` — the token `t` is a mark, a word or a closed quoted span.
* `Token.Open t` — the token `t` is a quoted span that is not closed.

## Main results

* `Text.token_induction` — a text is empty, or begins with a blank or a complete token, or is a
  quoted span that is not closed.
* `complete_or_open_of_tokenize` — which forms the tokens of a text have.
* `solid_of_mem_tokenize` — no token ends in a blank, unless the text does.
* `tokenize_weave` — tokens with blanks between them are found again.
-/

namespace SqlTidy

open Text

/-- A token that goes no further, whatever comes after it. -/
inductive Token.Complete : Token → Prop
  /-- A punctuation mark. -/
  | mark {c : Char} : isPunctuation c = true → Complete [c]
  /-- A word. -/
  | word {w : Text} : w ≠ [] → (∀ c ∈ w, isPlain c = true) → Complete w
  /-- A quoted span up to the quote that closes it. -/
  | quoted {q : Char} {us : List SpanUnit} :
    isQuote q = true → (∀ u ∈ us, u.Fits q) → Complete (q :: (ofUnits q us ++ [q]))

/-- A quoted span that is not closed.  A backslash at its end escapes nothing. -/
def Token.Open (t : Token) : Prop :=
  ∃ q us rest, isQuote q = true ∧ (∀ u ∈ us, SpanUnit.Fits q u) ∧ (rest = [] ∨ rest = ['\\']) ∧
    t = q :: (ofUnits q us ++ rest)

/-! ### Reading a token -/

variable {s r : Text} {t : Token}

/-- Blanks in front are skipped. -/
theorem tokenize_blank_append {e : Text} (he : isAllBlank e = true) (r : Text) :
    tokenize (e ++ r) = tokenize r := by
  induction e with
  | nil => rfl
  | cons c e ih =>
    obtain ⟨hc, he⟩ := Bool.and_eq_true_iff.1 he
    rw [List.cons_append, tokenize_blank _ (isQuote_of_isBlank hc) hc, ih he]

/-- A mark in front is a token. -/
theorem tokenize_mark_cons {c : Char} (hc : isPunctuation c = true) (r : Text) :
    tokenize (c :: r) = [c] :: tokenize r :=
  tokenize_mark r (isQuote_of_isPunctuation hc) (isBlank_of_isPunctuation hc) hc

/-- A word in front is a token if the text does not go on with it. -/
theorem tokenize_word_append {w : Text} (hne : w ≠ []) (hw : ∀ c ∈ w, isPlain c = true)
    (hr : ∀ c ∈ r.head?, isPlain c = false) : tokenize (w ++ r) = w :: tokenize r := by
  obtain ⟨c, w, rfl⟩ := List.exists_cons_of_ne_nil hne
  obtain ⟨hc, hw⟩ := List.forall_mem_cons.1 hw
  have hstop : r.takeWhile isPlain = [] ∧ r.dropWhile isPlain = r := by
    cases r with
    | nil => exact ⟨rfl, rfl⟩
    | cons d r => simp [hr d rfl]
  rw [List.cons_append, tokenize_word _ hc, List.takeWhile_append_of_pos hw,
    List.dropWhile_append_of_pos hw, hstop.1, hstop.2, List.append_nil]

/-- A closed span ends with its quote, unless the same quote comes after it. -/
theorem tokenize_quoted_append {q : Char} {us : List SpanUnit} (hq : isQuote q = true)
    (hus : ∀ u ∈ us, u.Fits q) (hr : r.head? ≠ some q) :
    tokenize (q :: (ofUnits q us ++ q :: r)) = (q :: (ofUnits q us ++ [q])) :: tokenize r := by
  have hne := ne_backslash_of_isQuote hq
  have hlength : spanLength q (ofUnits q us ++ q :: r) = (ofUnits q us ++ [q]).length := by
    rw [spanLength_ofUnits_append hne hus, spanLength_quote hne hr, List.length_append]
    rfl
  rw [tokenize_quote _ hq, hlength, List.append_cons _ q r, List.take_left, List.drop_left]

/-- A span that is not closed takes the whole text. -/
theorem Token.Open.tokenize_eq (ht : t.Open) : tokenize t = [t] := by
  obtain ⟨q, us, rest, hq, hus, hrest, rfl⟩ := ht
  have hlength : spanLength q (ofUnits q us ++ rest) = (ofUnits q us ++ rest).length := by
    rw [spanLength_ofUnits_append (ne_backslash_of_isQuote hq) hus, List.length_append]
    rcases hrest with rfl | rfl <;> rfl
  rw [tokenize_quote _ hq, hlength, List.take_length, List.drop_length, tokenize_nil]

/-- A complete token is found again if neither more of a word nor a quote comes after it. -/
theorem Token.Complete.tokenize_append (ht : t.Complete)
    (hr : ∀ c ∈ r.head?, isPlain c = false ∧ isQuote c = false) :
    tokenize (t ++ r) = t :: tokenize r := by
  cases ht with
  | mark hc => exact tokenize_mark_cons hc r
  | word hne hw => exact tokenize_word_append hne hw fun c hc => (hr c hc).1
  | @quoted q us hq hus =>
    -- a second quote would be read as part of the span
    have hne : r.head? ≠ some q := by
      intro h
      have := (hr q h).2
      simp [hq] at this
    rw [List.cons_append, List.append_assoc, List.singleton_append]
    exact tokenize_quoted_append hq hus hne

/-! ### Tokens of a text -/

/-- A text is empty, or begins with a blank or with a complete token that is read as such, or is a
quoted span that is not closed. -/
@[elab_as_elim] theorem Text.token_induction {motive : Text → Prop} (nil : motive [])
    (blank : ∀ c r, isBlank c = true → motive r → motive (c :: r))
    (complete : ∀ t r, Token.Complete t → tokenize (t ++ r) = t :: tokenize r → motive r →
      motive (t ++ r))
    (unclosed : ∀ t, Token.Open t → motive t) (s : Text) : motive s := by
  fun_induction tokenize s with
  | case1 => exact nil
  | case2 q s hq ih =>
    -- a quote opens a span, and the scan of its units says whether it is closed
    obtain ⟨us, rest, hscan⟩ : ∃ us rest, Scanned q s us rest := ⟨_, _, scanned_scan q s⟩
    have heq := hscan.eq_append
    rcases hscan.stops with hrest | hrest | ⟨r, rfl, hr⟩
    · exact unclosed _ ⟨q, us, rest, hq, hscan.fits, .inl hrest, by rw [heq]⟩
    · exact unclosed _ ⟨q, us, rest, hq, hscan.fits, .inr hrest, by rw [heq]⟩
    · -- the scan found the quote that closes the span
      have hdrop : s.drop (spanLength q s) = r := by
        rw [hscan.spanLength_of_head?_eq (ne_backslash_of_isQuote hq) rfl, heq, ← List.drop_drop,
          List.drop_left]
        rfl
      rw [hdrop] at ih
      have happend : q :: s = (q :: (ofUnits q us ++ [q])) ++ r := by simp [heq]
      rw [happend]
      refine complete _ r (.quoted hq hscan.fits) ?_ ih
      rw [← happend, heq]
      exact tokenize_quoted_append hq hscan.fits hr
  | case3 c s _ hc ih => exact blank c s hc ih
  | case4 c s _ _ hc ih => exact complete [c] s (.mark hc) (tokenize_mark_cons hc s) ih
  | case5 c s hquote hblank hmark ih =>
    have hc : isPlain c = true := by simp [isPlain, hquote, hblank, hmark]
    have hw : ∀ d ∈ c :: s.takeWhile isPlain, isPlain d = true :=
      List.forall_mem_cons.2 ⟨hc, fun d hd => List.mem_takeWhile_imp hd⟩
    have heq : c :: s = (c :: s.takeWhile isPlain) ++ s.dropWhile isPlain := by
      rw [List.cons_append, List.takeWhile_append_dropWhile]
    rw [heq]
    refine complete _ _ (.word (List.cons_ne_nil _ _) hw) ?_ ih
    rw [← heq, tokenize_word s hc]

/-- The tokens of a text are complete, but for a quoted span at its end that is not closed. -/
theorem complete_or_open_of_tokenize {before rest : List Token}
    (h : tokenize s = before ++ t :: rest) : t.Complete ∨ (t.Open ∧ rest = []) := by
  induction s using Text.token_induction generalizing before with
  | nil => simp at h
  | blank c r hc ih =>
    rw [tokenize_blank r (isQuote_of_isBlank hc) hc] at h
    exact ih h
  | complete u r hu hread ih =>
    rw [hread] at h
    -- the token is this one or among those of the rest
    cases before with
    | nil =>
      obtain ⟨rfl, -⟩ := List.cons.inj h
      exact .inl hu
    | cons v before => exact ih (List.cons.inj h).2
  | unclosed u hu =>
    rw [hu.tokenize_eq] at h
    obtain ⟨rfl, rfl, rfl⟩ : before = [] ∧ u = t ∧ [] = rest := by
      cases before with
      | nil => exact ⟨rfl, List.cons.inj h⟩
      | cons v before => simp at h
    exact .inr ⟨hu, rfl⟩

/-- A token that another one follows is complete. -/
theorem complete_getLast?_of_tokenize {before rest : List Token}
    (h : tokenize s = before ++ t :: rest) : ∀ u ∈ before.getLast?, u.Complete := by
  intro u hu
  obtain ⟨us, rfl⟩ := List.getLast?_eq_some_iff.1 hu
  rw [List.append_assoc, List.singleton_append] at h
  rcases complete_or_open_of_tokenize h with hcomplete | ⟨-, hnil⟩
  · exact hcomplete
  · cases hnil

/-- A complete token does not end in a blank. -/
theorem Token.Complete.solid (ht : t.Complete) : t.Solid := by
  cases ht with
  | @mark c hc => exact ⟨[], c, rfl, isBlank_of_isPunctuation hc⟩
  | word hne hw =>
    exact ⟨t.dropLast, t.getLast hne, (List.dropLast_append_getLast hne).symm,
      isBlank_of_isPlain (hw _ (List.getLast_mem hne))⟩
  | @quoted q us hq hus => exact ⟨q :: ofUnits q us, q, rfl, isBlank_of_isQuote hq⟩

/-- A complete token that ends in an opening parenthesis is nothing else. -/
theorem Token.Complete.eq_open_of_suffix (ht : t.Complete) (h : ['('] <:+ t) : t = ['('] := by
  obtain ⟨x, rfl⟩ := h
  generalize hu : x ++ ['('] = u at ht
  -- a word holds no parenthesis, and a quoted span ends in its quote
  cases ht with
  | @mark c hc =>
    have hlast : x ++ ['('] = [] ++ [c] := hu
    exact (List.append_inj' hlast rfl).2.symm
  | word hne hw =>
    have := hw '(' (by simp [← hu])
    cases this
  | @quoted q us hq hus =>
    have hlast : x ++ ['('] = (q :: ofUnits q us) ++ [q] := hu
    obtain rfl := (List.cons.inj (List.append_inj' hlast rfl).2).1
    cases hq

/-- No token ends in a blank, unless the text does. -/
theorem solid_of_mem_tokenize (hs : ∀ c ∈ s.getLast?, isBlank c = false) (ht : t ∈ tokenize s) :
    t.Solid := by
  induction s using Text.token_induction with
  | nil => simp at ht
  | blank c r hc ih =>
    rw [tokenize_blank r (isQuote_of_isBlank hc) hc] at ht
    refine ih (fun d hd => hs d ?_) ht
    rw [List.getLast?_cons, Option.mem_def.1 hd]
    rfl
  | complete u r hu hread ih =>
    rw [hread, List.mem_cons] at ht
    rcases ht with rfl | ht
    · exact hu.solid
    · refine ih (fun c hc => hs c ?_) ht
      rw [List.getLast?_append, hc]
      rfl
  | unclosed u hu =>
    rw [hu.tokenize_eq, List.mem_singleton] at ht
    subst ht
    obtain ⟨q, us, rest, -, -, -, rfl⟩ := hu
    exact ⟨_, _, (List.dropLast_append_getLast (List.cons_ne_nil _ _)).symm,
      hs _ (List.getLast?_eq_getLast_of_ne_nil _)⟩

/-- A text that does not end in a blank has tokens. -/
theorem tokenize_ne_nil (hs : Token.Solid s) : tokenize s ≠ [] := by
  induction s using Text.token_induction with
  | nil => exact absurd rfl hs.ne_nil
  | blank c r hc ih =>
    rw [tokenize_blank r (isQuote_of_isBlank hc) hc]
    apply ih
    obtain ⟨x, d, hx, hd⟩ := hs
    cases x with
    | nil =>
      obtain rfl := (List.cons.inj hx).1
      simp [hc] at hd
    | cons e x => exact ⟨x, d, (List.cons.inj hx).2, hd⟩
  | complete u r hu hread ih =>
    rw [hread]
    exact List.cons_ne_nil _ _
  | unclosed u hu =>
    rw [hu.tokenize_eq]
    exact List.cons_ne_nil _ _

/-- Every token is a part of its text. -/
theorem infix_of_mem_tokenize (ht : t ∈ tokenize s) : t <:+: s := by
  induction s using Text.token_induction with
  | nil => simp at ht
  | blank c r hc ih =>
    rw [tokenize_blank r (isQuote_of_isBlank hc) hc] at ht
    exact (ih ht).trans (List.suffix_cons c r).isInfix
  | complete u r hu hread ih =>
    rw [hread, List.mem_cons] at ht
    rcases ht with rfl | ht
    · exact (List.prefix_append t r).isInfix
    · exact (ih ht).trans (List.suffix_append u r).isInfix
  | unclosed u hu =>
    rw [hu.tokenize_eq, List.mem_singleton] at ht
    rw [ht]

/-! ### Tokens with blanks between them -/

/-- A mark is one character. -/
theorem Token.exists_eq_of_isMark (ht : t.isMark = true) :
    ∃ c, t = [c] ∧ isPunctuation c = true := by
  match t, ht with
  | [c], hc => exact ⟨c, rfl, hc⟩

/-- The marks are the parentheses, the comma and the semicolon. -/
theorem Token.isMark_iff :
    t.isMark = true ↔ t = ['('] ∨ t = [')'] ∨ t = [','] ∨ t = [';'] := by
  constructor
  · intro h
    obtain ⟨c, rfl, hc⟩ := Token.exists_eq_of_isMark h
    simpa [isPunctuation, or_assoc] using hc
  · rintro (rfl | rfl | rfl | rfl) <;> rfl

/-- Tokens with blanks between them are found again.  No blank is needed after an opening
parenthesis and before a punctuation mark. -/
theorem tokenize_weave {ps : List (Text × Token)} (hblank : ∀ p ∈ ps, isAllBlank p.1 = true)
    (hform : ∀ before t rest, ps.map Prod.snd = before ++ t :: rest →
      t.Complete ∨ (t.Open ∧ rest = []))
    (hchain : ps.IsChain fun p q => q.1 = [] → ['('] <:+ p.2 ∨ q.2.isMark = true) :
    tokenize (weave ps) = ps.map Prod.snd := by
  induction ps with
  | nil => exact tokenize_nil
  | cons p ps ih =>
    obtain ⟨e, t⟩ := p
    obtain ⟨he, hblank⟩ := List.forall_mem_cons.1 hblank
    obtain ⟨hnext, hchain⟩ := List.isChain_cons.1 hchain
    have hps : tokenize (weave ps) = ps.map Prod.snd :=
      ih hblank (fun before u rest h => hform (t :: before) u rest (by simp [h])) hchain
    rw [weave_cons, tokenize_blank_append he, List.map_cons]
    -- an open span comes last and takes nothing that is not its own
    rcases hform [] t (ps.map Prod.snd) rfl with ht | ⟨ht, hnil⟩
    · rw [← hps]
      by_cases hopen : t = ['(']
      · rw [hopen]
        exact tokenize_mark_cons rfl _
      · refine ht.tokenize_append fun c hc => ?_
        -- what comes next is a blank or a punctuation mark
        cases ps with
        | nil => simp at hc
        | cons q ps =>
          obtain ⟨f, u⟩ := q
          rw [weave_cons] at hc
          cases f with
          | nil =>
            rcases hnext _ rfl rfl with hsuffix | hmark
            · exact absurd (ht.eq_open_of_suffix hsuffix) hopen
            · obtain ⟨d, rfl, hd⟩ := Token.exists_eq_of_isMark hmark
              obtain rfl : d = c := by simpa using hc
              exact ⟨isPlain_of_isPunctuation hd, isQuote_of_isPunctuation hd⟩
          | cons d f =>
            obtain rfl : d = c := by simpa using hc
            have hd := (Bool.and_eq_true_iff.1 (hblank _ List.mem_cons_self)).1
            exact ⟨isPlain_of_isBlank hd, isQuote_of_isBlank hd⟩
    · obtain rfl : ps = [] := List.map_eq_nil_iff.1 hnil
      rw [weave_nil, List.append_nil, ht.tokenize_eq]
      rfl

end SqlTidy
