import SqlTidy.Proofs.Unclosed
import SqlTidy.Proofs.Weave

/-!
# Tokens of marked texts

The tokens of a text whose literals are set aside are the tokens of the marked text, with
placeholders for the hits.  A quote that is left outside the literals is never closed, so that
everything from it on is one token.

## Main definitions

* `Marked.tokens m` — the tokens of a marked text; the first quote takes all the rest.
* `Marked.IsWord`, `Marked.IsMark` — the two kinds of token that are no quote.

## Main results

* `Marked.tokenize_spell` — splitting into tokens can be done on the marked text.
* `Marked.strip_tokens` — tokens leave out nothing but blanks.
* `Marked.tokens_append` — the tokens of two texts, the second of which does not go on with a word.
* `Marked.tokens_recase`, `Marked.tokens_collapse` — recasing a text recases its tokens, and blanks
  between tokens do not matter.
* `Marked.tokens_weave` — tokens set apart by blanks are found again.
-/

namespace SqlTidy

variable {α : Type}

namespace Symbol

/-- Whether a symbol can stand in a word; a hit can. -/
def isPlain : Symbol α → Bool
  | .char c => SqlTidy.isPlain c
  | .hit _ => true

@[simp] theorem isPlain_char (c : Char) : (Symbol.char c : Symbol α).isPlain = SqlTidy.isPlain c :=
  rfl

@[simp] theorem isPlain_hit (h : Hit α) : (Symbol.hit h).isPlain = true := rfl

/-- What can stand in a word is neither a quote nor a blank. -/
theorem isQuote_of_isPlain {a : Symbol α} (h : a.isPlain = true) : a.isQuote = false := by
  cases a with
  | char c => exact SqlTidy.isQuote_of_isPlain h
  | hit => rfl

theorem isBlank_of_isPlain {a : Symbol α} (h : a.isPlain = true) : a.isBlank = false := by
  cases a with
  | char c => exact SqlTidy.isBlank_of_isPlain h
  | hit => rfl

/-- The classes of symbols do not depend on case. -/
theorem isBlank_of_fold_eq {a b : Symbol α} (h : a.fold = b.fold) : a.isBlank = b.isBlank := by
  cases a <;> cases b <;> simp only [fold, char.injEq, hit.injEq, reduceCtorEq] at h
  · exact eq_of_toLower_eq isBlank_case h
  · rfl

theorem isPlain_of_fold_eq {a b : Symbol α} (h : a.fold = b.fold) : a.isPlain = b.isPlain := by
  cases a <;> cases b <;> simp only [fold, char.injEq, hit.injEq, reduceCtorEq] at h
  · exact eq_of_toLower_eq isPlain_case h
  · rfl

end Symbol

namespace Marked

/-- The tokens of a marked text.  A quote takes all that follows it. -/
def tokens (m : Marked α) : List (Marked α) :=
  match m with
  | [] => []
  | a :: r =>
    if a.isQuote then [a :: r]
    else if a.isBlank then tokens r
    else if a.isPlain then (a :: r.takeWhile Symbol.isPlain) :: tokens (r.dropWhile Symbol.isPlain)
    else [a] :: tokens r
termination_by m.length
decreasing_by
  · simp
  · exact Nat.lt_succ_of_le (List.dropWhile_suffix Symbol.isPlain).length_le
  · simp

/-- A word: hits and characters that are neither blank nor quote nor mark, at least one of them. -/
def IsWord (t : Marked α) : Prop := t ≠ [] ∧ ∀ a ∈ t, Symbol.isPlain a = true

/-- A punctuation mark. -/
def IsMark (t : Marked α) : Prop := ∃ c, isPunctuation c = true ∧ t = [.char c]

/-- A marked text does not go on with a word. -/
def Stopped (m : Marked α) : Prop := ∀ a ∈ m.head?, Symbol.isPlain a = false

@[simp] theorem tokens_nil : tokens ([] : Marked α) = [] := by rw [tokens]

/-- A quote begins the last token. -/
theorem tokens_quote {c : Char} (hc : Text.isQuote c = true) (m : Marked α) :
    tokens (.char c :: m) = [.char c :: m] := by
  rw [tokens, if_pos (by simpa using hc)]

/-- A blank is skipped. -/
theorem tokens_blank {c : Char} (hc : Text.isBlank c = true) (m : Marked α) :
    tokens (.char c :: m) = tokens m := by
  rw [tokens, if_neg (by simp [isQuote_of_isBlank hc]), if_pos (by simpa using hc)]

/-- A mark is a token. -/
theorem tokens_mark {c : Char} (hc : isPunctuation c = true) (m : Marked α) :
    tokens (.char c :: m) = [.char c] :: tokens m := by
  rw [tokens, if_neg (by simp [isQuote_of_isPunctuation hc]),
    if_neg (by simp [isBlank_of_isPunctuation hc]), if_neg (by simp [isPlain_of_isPunctuation hc])]

/-- A word ends where it is stopped. -/
theorem takeWhile_word {w : Marked α} (hw : IsWord w) {m : Marked α} (hm : Stopped m) :
    (w ++ m).takeWhile Symbol.isPlain = w ∧ (w ++ m).dropWhile Symbol.isPlain = m := by
  rw [List.takeWhile_append_of_pos hw.2, List.dropWhile_append_of_pos hw.2]
  cases m with
  | nil => simp
  | cons a m => simp [hm a rfl]

/-- A word that is stopped is a token.  With the three lemmas before, this says what the tokens of
every marked text are. -/
theorem tokens_word {w : Marked α} (hw : IsWord w) {m : Marked α} (hm : Stopped m) :
    tokens (w ++ m) = w :: tokens m := by
  obtain ⟨htake, hdrop⟩ := takeWhile_word hw hm
  obtain ⟨a, w, rfl⟩ := List.exists_cons_of_ne_nil hw.1
  have ha := hw.2 a List.mem_cons_self
  rw [List.cons_append] at htake hdrop ⊢
  rw [List.takeWhile_cons_of_pos ha] at htake
  rw [List.dropWhile_cons_of_pos ha] at hdrop
  rw [tokens, if_neg (by simp [Symbol.isQuote_of_isPlain ha]),
    if_neg (by simp [Symbol.isBlank_of_isPlain ha]), if_pos ha, htake, hdrop]

/-- A marked text is empty, or begins with a quote, a blank, a mark or a word.  This is the
induction along the tokens; after a quote nothing is left to do. -/
@[elab_as_elim] theorem token_induction {motive : Marked α → Prop} (nil : motive [])
    (quote : ∀ c m, Text.isQuote c = true → motive (.char c :: m))
    (blank : ∀ c m, Text.isBlank c = true → motive m → motive (.char c :: m))
    (mark : ∀ c m, isPunctuation c = true → motive m → motive (.char c :: m))
    (word : ∀ w m, IsWord w → Stopped m → motive m → motive (w ++ m))
    (m : Marked α) : motive m := by
  fun_induction tokens m with
  | case1 => exact nil
  | case2 a r ha =>
    cases a with
    | char c => exact quote c r ha
    | hit h => cases ha
  | case3 a r _ ha ih =>
    cases a with
    | char c => exact blank c r ha ih
    | hit h => cases ha
  | case4 a r _ _ ha ih =>
    have hword : IsWord (a :: r.takeWhile Symbol.isPlain) := by
      refine ⟨List.cons_ne_nil _ _, List.forall_mem_cons.2 ⟨ha, fun b hb => ?_⟩⟩
      exact List.mem_takeWhile_imp hb
    have hstop : Stopped (r.dropWhile Symbol.isPlain) := by
      intro b hb
      simpa [Option.mem_def.1 hb] using List.head?_dropWhile_not Symbol.isPlain r
    have := word _ _ hword hstop ih
    rwa [List.cons_append, List.takeWhile_append_dropWhile] at this
  | case5 a r hquote hblank hplain ih =>
    cases a with
    | char c =>
      rw [Symbol.isQuote_char, Bool.not_eq_true] at hquote
      rw [Symbol.isBlank_char, Bool.not_eq_true] at hblank
      exact mark c r (by simpa [SqlTidy.isPlain, hquote, hblank] using hplain) ih
    | hit h => exact absurd rfl hplain

/-! ### Texts and marked texts -/

/-- What can stand in a word is taken from a text as from the marked text, since hits are written so
that they can. -/
theorem takeWhile_spell {f : Hit α → Text} (hf : Wordlike f) (m : Marked α) :
    (spell f m).takeWhile SqlTidy.isPlain = spell f (m.takeWhile Symbol.isPlain) ∧
      (spell f m).dropWhile SqlTidy.isPlain = spell f (m.dropWhile Symbol.isPlain) := by
  induction m with
  | nil => exact ⟨rfl, rfl⟩
  | cons a m ih =>
    cases a with
    | char c =>
      cases hc : SqlTidy.isPlain c <;> simp [hc, ih]
    | hit h =>
      rw [spell_hit, List.takeWhile_append_of_pos (hf.plain h),
        List.dropWhile_append_of_pos (hf.plain h), ih.1, ih.2]
      exact ⟨rfl, rfl⟩

/-- The tokens of a text are those of the marked text, if no quote in a gap is closed. -/
theorem tokenize_spell {f : Hit α → Text} (hf : Wordlike f) {m : Marked α} (hm : Unclosed m) :
    tokenize (spell f m) = (tokens m).map (spell f) := by
  induction m using token_induction with
  | nil => simp
  | quote c m hc =>
    -- the quote is not closed, so that both take all the rest
    rw [spell_char, tokenize_quote _ hc, spanLength_spell hf hc hm, List.take_length,
      List.drop_length, tokenize_nil, tokens_quote hc]
    rfl
  | blank c m hc ih =>
    rw [Unclosed, if_neg (by simp [isQuote_of_isBlank hc])] at hm
    rw [spell_char, tokenize_blank _ (isQuote_of_isBlank hc) hc, ih hm, tokens_blank hc]
  | mark c m hc ih =>
    rw [Unclosed, if_neg (by simp [isQuote_of_isPunctuation hc])] at hm
    rw [spell_char, tokenize_mark _ (isQuote_of_isPunctuation hc) (isBlank_of_isPunctuation hc) hc,
      ih hm, tokens_mark hc]
    rfl
  | word w m hw hstop ih =>
    rw [unclosed_append fun a ha => Symbol.isQuote_of_isPlain (hw.2 a ha)] at hm
    obtain ⟨htake, hdrop⟩ := takeWhile_spell hf (w ++ m)
    rw [(takeWhile_word hw hstop).1] at htake
    rw [(takeWhile_word hw hstop).2] at hdrop
    -- the word begins with a plain character
    obtain ⟨c, s, hs, hc⟩ : ∃ c s, spell f (w ++ m) = c :: s ∧ SqlTidy.isPlain c = true := by
      obtain ⟨a, w, rfl⟩ := List.exists_cons_of_ne_nil hw.1
      cases a with
      | char c => exact ⟨c, _, rfl, hw.2 _ List.mem_cons_self⟩
      | hit h =>
        obtain ⟨c, x, hx⟩ := List.exists_cons_of_ne_nil (hf.ne_nil h)
        exact ⟨c, x ++ spell f (w ++ m), by simp [hx], hf.plain h c (by simp [hx])⟩
    rw [hs, List.takeWhile_cons_of_pos hc] at htake
    rw [hs, List.dropWhile_cons_of_pos hc] at hdrop
    rw [hs, tokenize_word _ hc, htake, hdrop, ih hm, tokens_word hw hstop]
    rfl

/-! ### What tokens are -/

/-- Tokens leave out nothing but blanks. -/
theorem strip_tokens (m : Marked α) : (tokens m).flatMap strip = strip m := by
  induction m using token_induction with
  | nil => rw [tokens_nil]; rfl
  | quote c m hc => rw [tokens_quote hc, List.flatMap_singleton]
  | blank c m hc ih => rw [tokens_blank hc, ih, strip_cons_blank (by simpa using hc)]
  | mark c m hc ih =>
    have hsolid := isBlank_of_isPunctuation hc
    rw [tokens_mark hc, List.flatMap_cons, ih, strip_cons_solid (by simpa using hsolid),
      strip_cons_solid (by simpa using hsolid)]
    rfl
  | word w m hw hstop ih => rw [tokens_word hw hstop, List.flatMap_cons, ih, strip_append]

/-- A token is a part of the text. -/
theorem infix_of_mem_tokens {m t : Marked α} (ht : t ∈ tokens m) : t <:+: m := by
  induction m using token_induction with
  | nil => simp at ht
  | quote c m hc =>
    rw [tokens_quote hc, List.mem_singleton] at ht
    rw [ht]
  | blank c m hc ih =>
    rw [tokens_blank hc] at ht
    exact (ih ht).trans (List.suffix_cons _ m).isInfix
  | mark c m hc ih =>
    rw [tokens_mark hc, List.mem_cons] at ht
    rcases ht with rfl | ht
    · exact (List.prefix_append [_] m).isInfix
    · exact (ih ht).trans (List.suffix_cons _ m).isInfix
  | word w m hw hstop ih =>
    rw [tokens_word hw hstop, List.mem_cons] at ht
    rcases ht with rfl | ht
    · exact (List.prefix_append t m).isInfix
    · exact (ih ht).trans (List.suffix_append w m).isInfix

/-- A token ends in something that is no blank, if the marked text does. -/
theorem exists_concat_of_mem_tokens {m : Marked α} (hm : ∀ a ∈ m.getLast?, Symbol.isBlank a = false)
    {t : Marked α} (ht : t ∈ tokens m) : ∃ x a, t = x ++ [a] ∧ Symbol.isBlank a = false := by
  -- what the text ends in is also what every rest of it ends in
  have htail : ∀ {x y : Marked α}, (∀ a ∈ (x ++ y).getLast?, Symbol.isBlank a = false) →
      ∀ a ∈ y.getLast?, Symbol.isBlank a = false := by
    intro x y h a ha
    refine h a ?_
    rw [List.getLast?_append, Option.mem_def.1 ha]
    rfl
  induction m using token_induction with
  | nil => simp at ht
  | quote c m hc =>
    rw [tokens_quote hc, List.mem_singleton] at ht
    rw [← ht] at hm
    have hne : t ≠ [] := by simp [ht]
    exact ⟨t.dropLast, t.getLast hne, (List.dropLast_append_getLast hne).symm,
      hm _ (List.getLast?_eq_getLast_of_ne_nil hne)⟩
  | blank c m hc ih =>
    rw [tokens_blank hc] at ht
    exact ih (htail (x := [_]) hm) ht
  | mark c m hc ih =>
    rw [tokens_mark hc, List.mem_cons] at ht
    rcases ht with rfl | ht
    · exact ⟨[], _, rfl, isBlank_of_isPunctuation hc⟩
    · exact ih (htail (x := [_]) hm) ht
  | word w m hw hstop ih =>
    rw [tokens_word hw hstop, List.mem_cons] at ht
    rcases ht with rfl | ht
    · exact ⟨t.dropLast, t.getLast hw.1, (List.dropLast_append_getLast hw.1).symm,
        Symbol.isBlank_of_isPlain (hw.2 _ (List.getLast_mem hw.1))⟩
    · exact ih (htail hm) ht

/-- Without quotes in the gaps, every token is a word or a mark. -/
theorem isWord_or_isMark_of_mem_tokens {m : Marked α} (hm : QuoteFree m) {t : Marked α}
    (ht : t ∈ tokens m) : IsWord t ∨ IsMark t := by
  induction m using token_induction with
  | nil => simp at ht
  | quote c m hc =>
    have := hm _ List.mem_cons_self
    simp [hc] at this
  | blank c m hc ih =>
    rw [tokens_blank hc] at ht
    exact ih (List.forall_mem_cons.1 hm).2 ht
  | mark c m hc ih =>
    rw [tokens_mark hc, List.mem_cons] at ht
    rcases ht with rfl | ht
    · exact .inr ⟨c, hc, rfl⟩
    · exact ih (List.forall_mem_cons.1 hm).2 ht
  | word w m hw hstop ih =>
    rw [tokens_word hw hstop, List.mem_cons] at ht
    rcases ht with rfl | ht
    · exact .inl hw
    · exact ih hm.of_append.2 ht

/-! ### Tokens of two texts -/

/-- Where the first of two texts does not go on with a word and the second does not either, the two
together do not. -/
theorem Stopped.append {m n : Marked α} (hm : Stopped m) (hn : Stopped n) : Stopped (m ++ n) := by
  cases m with
  | nil => exact hn
  | cons a m => exact hm

/-- The tokens of two texts, the second of which does not go on with a word. -/
theorem tokens_append {m n : Marked α} (hm : QuoteFree m) (hn : Stopped n) :
    tokens (m ++ n) = tokens m ++ tokens n := by
  induction m using token_induction with
  | nil => simp
  | quote c m hc =>
    have := hm _ List.mem_cons_self
    simp [hc] at this
  | blank c m hc ih =>
    rw [List.cons_append, tokens_blank hc, tokens_blank hc, ih (List.forall_mem_cons.1 hm).2]
  | mark c m hc ih =>
    rw [List.cons_append, tokens_mark hc, tokens_mark hc, ih (List.forall_mem_cons.1 hm).2,
      List.cons_append]
  -- the last word of the first text ends there, since the second does not go on with it
  | word w m hw hstop ih =>
    rw [List.append_assoc, tokens_word hw (hstop.append hn), tokens_word hw hstop,
      ih hm.of_append.2, List.cons_append]

/-- A symbol at the end that can stand in a word belongs to the last token. -/
theorem exists_tokens_concat {m : Marked α} (hm : QuoteFree m) {a : Symbol α}
    (ha : a.isPlain = true) : ∃ ts t, tokens (m ++ [a]) = ts ++ [t ++ [a]] := by
  have hstop : Stopped ([] : Marked α) := by simp [Stopped]
  induction m using token_induction with
  | nil =>
    refine ⟨[], [], ?_⟩
    have := tokens_word (w := [a]) (by simpa [IsWord] using ha) hstop
    simpa using this
  | quote c m hc =>
    have := hm _ List.mem_cons_self
    simp [hc] at this
  | blank c m hc ih =>
    obtain ⟨ts, t, h⟩ := ih (List.forall_mem_cons.1 hm).2
    exact ⟨ts, t, by rw [List.cons_append, tokens_blank hc, h]⟩
  | mark c m hc ih =>
    obtain ⟨ts, t, h⟩ := ih (List.forall_mem_cons.1 hm).2
    exact ⟨[.char c] :: ts, t, by rw [List.cons_append, tokens_mark hc, h]; rfl⟩
  | word w m hw hm' ih =>
    cases m with
    | nil =>
      -- the word takes the symbol in
      refine ⟨[], w, ?_⟩
      have hword : IsWord (w ++ [a]) :=
        ⟨by simp, by simpa [ha, or_imp, forall_and] using hw.2⟩
      simpa using tokens_word hword hstop
    | cons b m =>
      obtain ⟨ts, t, h⟩ := ih hm.of_append.2
      refine ⟨w :: ts, t, ?_⟩
      rw [List.append_assoc, tokens_word hw (by exact hm'), h, List.cons_append]

/-! ### Recasing and collapsing -/

/-- A word stays a word in any case. -/
theorem isWord_of_fold_eq {t u : Marked α} (ht : IsWord t) (h : fold t = fold u) : IsWord u := by
  refine ⟨?_, fun b hb => ?_⟩
  · rintro rfl
    exact ht.1 (by simpa [fold] using h)
  · have hb' : b.fold ∈ fold t := h ▸ List.mem_map_of_mem hb
    obtain ⟨a, ha, hab⟩ := List.mem_map.1 hb'
    rw [← Symbol.isPlain_of_fold_eq hab, ht.2 a ha]

/-- Whether a text goes on with a word does not depend on case. -/
theorem Stopped.of_fold_eq {m n : Marked α} (hm : Stopped m) (h : fold m = fold n) : Stopped n := by
  cases n with
  | nil => simp [Stopped]
  | cons b n =>
    cases m with
    | nil => simp [fold] at h
    | cons a m =>
      obtain ⟨hab, -⟩ : a.fold = b.fold ∧ fold m = fold n := by simpa [fold] using h
      intro c hc
      obtain rfl : b = c := by simpa using hc
      rw [← Symbol.isPlain_of_fold_eq hab]
      exact hm a rfl

/-- Whether a marked text ends in a blank does not depend on case. -/
theorem isBlank_getLast?_of_fold_eq {m n : Marked α} (h : fold m = fold n)
    (hm : ∀ a ∈ m.getLast?, Symbol.isBlank a = false) :
    ∀ a ∈ n.getLast?, Symbol.isBlank a = false := by
  intro b hb
  have hlast : m.getLast?.map Symbol.fold = some b.fold := by
    rw [← List.getLast?_map, show m.map Symbol.fold = n.map Symbol.fold from h, List.getLast?_map,
      Option.mem_def.1 hb]
    rfl
  obtain ⟨a, ha, hab⟩ := Option.map_eq_some_iff.1 hlast
  rw [← Symbol.isBlank_of_fold_eq hab, hm a ha]

/-- Nothing is recased to nothing. -/
theorem recase_nil (o : Options) : recase o ([] : Marked α) = [] := by
  have := fold_recase o ([] : Marked α)
  simpa [fold] using this

/-- A stop at the front is kept, and the rest is recased as if it stood alone. -/
theorem recase_cons_stop (o : Options) {c : Char} (hc : SqlTidy.isPlain c = false) (m : Marked α) :
    recase o (.char c :: m) = .char c :: recase o m := by
  have := recase_append_stop o [] m (isPlain_eq_false_iff.1 hc)
  rwa [List.nil_append, recase_nil, List.nil_append] at this

/-- Recasing a marked text recases its tokens. -/
theorem tokens_recase (o : Options) (m : Marked α) :
    tokens (recase o m) = (tokens m).map (recase o) := by
  induction m using token_induction with
  | nil => simp [recase_nil]
  | quote c m hc =>
    have hplain := isPlain_of_isQuote hc
    rw [recase_cons_stop o hplain, tokens_quote hc, tokens_quote hc, List.map_singleton,
      recase_cons_stop o hplain]
  | blank c m hc ih =>
    rw [recase_cons_stop o (isPlain_of_isBlank hc), tokens_blank hc, ih, tokens_blank hc]
  | mark c m hc ih =>
    have hplain := isPlain_of_isPunctuation hc
    rw [recase_cons_stop o hplain, tokens_mark hc, ih, tokens_mark hc, List.map_cons,
      recase_cons_stop o hplain, recase_nil]
  | word w m hw hstop ih =>
    have hword := isWord_of_fold_eq hw (fold_recase o w).symm
    rw [tokens_word hw hstop, List.map_cons]
    cases m with
    | nil =>
      have := tokens_word hword (m := []) (by simp [Stopped])
      simpa using this
    | cons a m =>
      cases a with
      | hit h => cases hstop _ rfl
      | char c =>
        have hc : SqlTidy.isPlain c = false := hstop _ rfl
        rw [recase_cons_stop o hc] at ih
        -- what stops the word separates it from the rest also when words are recased
        rw [recase_append_stop o _ _ (isPlain_eq_false_iff.1 hc),
          tokens_word hword (by simpa [Stopped] using hc), ih]

/-- Blanks in front give no tokens. -/
theorem tokens_blank_append {e : Marked α} (he : ∀ a ∈ e, Symbol.isBlank a = true) (m : Marked α) :
    tokens (e ++ m) = tokens m := by
  induction e with
  | nil => rfl
  | cons a e ih =>
    obtain ⟨ha, htail⟩ := List.forall_mem_cons.1 he
    cases a with
    | char c => rw [List.cons_append, tokens_blank ha, ih htail]
    | hit h => cases ha

/-- A word is left alone and ends the run of blanks before it. -/
theorem squeezeFrom_word {w : Marked α} (hw : IsWord w) (inRun : Bool) (m : Marked α) :
    squeezeFrom inRun (w ++ m) = w ++ squeezeFrom false m := by
  obtain ⟨hne, hplain⟩ := hw
  induction w generalizing inRun with
  | nil => exact absurd rfl hne
  | cons a w ih =>
    obtain ⟨ha, htail⟩ := List.forall_mem_cons.1 hplain
    rw [List.cons_append, squeezeFrom_solid (Symbol.isBlank_of_isPlain ha), List.cons_append]
    cases w with
    | nil => rfl
    | cons b w => rw [ih false (List.cons_ne_nil b w) htail]

/-- What stops a word stops it also after squeezing: if it was a blank, a space is left. -/
theorem Stopped.squeezeFrom {m : Marked α} (hm : Stopped m) : Stopped (squeezeFrom false m) := by
  cases m with
  | nil => exact hm
  | cons a m =>
    cases ha : a.isBlank with
    | true =>
      rw [squeezeFrom_blank ha, if_neg (by decide)]
      simp [Stopped, SqlTidy.isPlain, Text.isBlank]
    | false => rw [squeezeFrom_solid ha]; exact hm

/-- The length of a run of blanks between tokens does not matter. -/
theorem tokens_squeezeFrom {m : Marked α} (hm : QuoteFree m) (inRun : Bool) :
    tokens (squeezeFrom inRun m) = tokens m := by
  induction m using token_induction generalizing inRun with
  | nil => rfl
  | quote c m hc =>
    have := hm _ List.mem_cons_self
    simp [hc] at this
  | blank c m hc ih =>
    rw [squeezeFrom_blank (by simpa using hc), tokens_blank hc]
    split
    · exact ih (List.forall_mem_cons.1 hm).2 true
    · rw [tokens_blank rfl, ih (List.forall_mem_cons.1 hm).2 true]
  | mark c m hc ih =>
    rw [squeezeFrom_solid (by simpa using isBlank_of_isPunctuation hc), tokens_mark hc,
      ih (List.forall_mem_cons.1 hm).2, tokens_mark hc]
  | word w m hw hstop ih =>
    rw [squeezeFrom_word hw, tokens_word hw hstop.squeezeFrom, ih hm.of_append.2,
      tokens_word hw hstop]

/-- Squeezing makes no quotes. -/
theorem QuoteFree.squeezeFrom {m : Marked α} (hm : QuoteFree m) (inRun : Bool) :
    QuoteFree (squeezeFrom inRun m) := by
  intro a ha
  cases hblank : a.isBlank with
  | true =>
    cases a with
    | char c => exact isQuote_of_isBlank hblank
    | hit h => rfl
  | false =>
    refine hm a (List.singleton_infix_iff _ _ |>.1 (infix_of_infix_squeezeFrom ?_
      (List.singleton_infix_iff _ _ |>.2 ha)))
    simpa using hblank

/-- A part of a text without quotes has none. -/
theorem QuoteFree.of_isInfix {m n : Marked α} (hn : QuoteFree n) (h : m <:+: n) : QuoteFree m :=
  fun a ha => hn a (h.subset ha)

/-- Without quotes in the gaps, blanks do not matter but for setting words apart. -/
theorem tokens_collapse {m : Marked α} (hm : QuoteFree m) : tokens (collapse m) = tokens m := by
  obtain ⟨e, he, heq⟩ := exists_eq_trimEnd_append (trimStart (squeezeFrom false m))
  have hfree : QuoteFree (collapse m) := (hm.squeezeFrom false).of_isInfix (collapse_isInfix m)
  have hstop : Stopped e := by
    intro a ha
    by_contra hplain
    have := Symbol.isBlank_of_isPlain (Bool.not_eq_false _ ▸ hplain)
    rw [he a (List.mem_of_mem_head? ha)] at this
    cases this
  have hnone : tokens e = [] := by
    have := tokens_blank_append he []
    rwa [List.append_nil, tokens_nil] at this
  calc tokens (collapse m)
      = tokens (collapse m ++ e) := by rw [tokens_append hfree hstop, hnone, List.append_nil]
    _ = tokens (trimStart (squeezeFrom false m)) := by rw [heq]; rfl
    _ = tokens (squeezeFrom false m) := by
      rw [← tokens_blank_append (fun a ha => List.mem_takeWhile_imp ha) (trimStart _), trimStart,
        List.takeWhile_append_dropWhile]
    _ = tokens m := tokens_squeezeFrom hm false

/-! ### Tokens with separators -/

/-- Separators and the tokens that follow them, in turn. -/
def weave (ps : List (Text × Marked α)) : Marked α :=
  SqlTidy.weave (ps.map fun p => (ofText p.1, p.2))

/-- The separator of `q` is right for coming after `p`: there is one unless a parenthesis was just
opened or a punctuation mark comes, and it begins with a line feed after a hit that `isLine` says is
a line comment. -/
def Follows (isLine : Hit α → Prop) (p q : Text × Marked α) : Prop :=
  (q.1 = [] → p.2.getLast? = some (.char '(') ∨ IsMark q.2) ∧
    ∀ h, p.2.getLast? = some (.hit h) → isLine h → q.1.head? = some '\n'

@[simp] theorem weave_nil : weave ([] : List (Text × Marked α)) = [] := rfl

@[simp] theorem weave_cons (p : Text × Marked α) (ps : List (Text × Marked α)) :
    weave (p :: ps) = ofText p.1 ++ (p.2 ++ weave ps) := by
  simp [weave]

@[simp] theorem weave_append (ps qs : List (Text × Marked α)) :
    weave (ps ++ qs) = weave ps ++ weave qs := by
  simp [weave]

/-- Tokens with separators are written one by one. -/
theorem spell_weave (f : Hit α → Text) (ps : List (Text × Marked α)) :
    spell f (weave ps) = SqlTidy.weave (ps.map fun p => (p.1, spell f p.2)) := by
  induction ps with
  | nil => rfl
  | cons p ps ih => simp [ih]

/-- The symbols of a blank text are blanks. -/
theorem isBlank_of_mem_ofText {s : Text} (hs : Text.isAllBlank s = true) :
    ∀ a ∈ (ofText s : Marked α), Symbol.isBlank a = true := by
  simp only [Text.isAllBlank, List.all_eq_true] at hs
  simpa [ofText] using hs

/-- No word ends in a parenthesis. -/
theorem IsWord.getLast?_ne {t : Marked α} (ht : IsWord t) : t.getLast? ≠ some (.char '(') := by
  intro h
  have := ht.2 _ (List.mem_of_getLast? h)
  cases this

/-- Blank separators do not count for the content. -/
theorem strip_weave {ps : List (Text × Marked α)} (hblank : ∀ p ∈ ps, Text.isAllBlank p.1 = true) :
    strip (weave ps) = (ps.map Prod.snd).flatMap strip := by
  induction ps with
  | nil => rfl
  | cons p ps ih =>
    obtain ⟨hp, htail⟩ := List.forall_mem_cons.1 hblank
    have hsep : strip (ofText p.1 : Marked α) = [] := by
      rw [strip, List.filter_eq_nil_iff]
      intro a ha
      simp [isBlank_of_mem_ofText hp a ha]
    rw [weave_cons, strip_append, strip_append, hsep, ih htail, List.map_cons, List.flatMap_cons,
      List.nil_append]

/-- After a word comes a separator or a mark. -/
theorem stopped_weave {isLine : Hit α → Prop} {p : Text × Marked α} {ps : List (Text × Marked α)}
    (hp : IsWord p.2) (hblank : ∀ q ∈ ps, Text.isAllBlank q.1 = true)
    (hchain : (p :: ps).IsChain (Follows isLine)) : Stopped (weave ps) := by
  cases ps with
  | nil => simp [Stopped]
  | cons q ps =>
    obtain ⟨s, t⟩ := q
    rw [weave_cons]
    -- without a separator comes a mark; a separator begins with a blank
    rcases s with _ | ⟨c, s⟩
    · rcases (List.isChain_cons_cons.1 hchain).1.1 rfl with hlast | ⟨c, hc, rfl⟩
      · exact absurd hlast hp.getLast?_ne
      · simpa [Stopped] using isPlain_of_isPunctuation hc
    · have hc := isBlank_of_mem_ofText (α := α) (hblank _ List.mem_cons_self) (.char c) (by simp)
      simpa [Stopped] using isPlain_of_isBlank hc

/-- Words and marks set apart by blanks are found again. -/
theorem tokens_weave {isLine : Hit α → Prop} {ps : List (Text × Marked α)}
    (hblank : ∀ p ∈ ps, Text.isAllBlank p.1 = true) (htokens : ∀ p ∈ ps, IsWord p.2 ∨ IsMark p.2)
    (hchain : ps.IsChain (Follows isLine)) : tokens (weave ps) = ps.map Prod.snd := by
  induction ps with
  | nil => exact tokens_nil
  | cons p ps ih =>
    obtain ⟨hp, hblank⟩ := List.forall_mem_cons.1 hblank
    obtain ⟨ht, htokens⟩ := List.forall_mem_cons.1 htokens
    have hrest := ih hblank htokens (List.isChain_cons.1 hchain).2
    -- the separator is skipped, and the token ends where the next separator or mark begins
    rw [weave_cons, tokens_blank_append (isBlank_of_mem_ofText hp), List.map_cons, ← hrest]
    rcases ht with hword | ⟨c, hc, hmark⟩
    · exact tokens_word hword (stopped_weave hword hblank hchain)
    · rw [hmark, List.singleton_append, tokens_mark hc]

/-- Three underscores in a row do not come about where tokens meet: a separator, a parenthesis or a
mark stands between them. -/
theorem unfenced_weave {isLine : Hit α → Prop} {ps : List (Text × Marked α)}
    (hblank : ∀ p ∈ ps, Text.isAllBlank p.1 = true) (hchain : ps.IsChain (Follows isLine))
    (hps : ∀ p ∈ ps, Unfenced p.2) : Unfenced (weave ps) := by
  have hfence : ∀ {c : Char}, c ≠ '_' → .char c ∉ (ofText Placeholder.fence : Marked α) := by
    intro c hc
    simpa [ofText, Placeholder.fence] using hc
  have hsep : ∀ p ∈ ps.map fun p => ((ofText p.1 : Marked α), p.2), ∀ a ∈ p.1,
      a ∉ (ofText Placeholder.fence : Marked α) := by
    intro p hp a ha
    obtain ⟨q, hq, rfl⟩ := List.mem_map.1 hp
    have hblank := isBlank_of_mem_ofText (hblank q hq) a ha
    cases a with
    | hit h => exact hit_notMem_ofText h _
    | char c =>
      refine hfence ?_
      rintro rfl
      cases hblank
  intro h
  refine (infix_of_infix_weave (by simp [ofText, Placeholder.fence]) hsep ?_ h).elim ?_
  · rw [List.isChain_map]
    refine hchain.imp fun p q hpq hnil => ?_
    rcases hpq.1 (by simpa [ofText] using hnil) with hlast | ⟨c, hc, hmark⟩
    · exact .inl ⟨_, hfence (by decide), hlast⟩
    · refine .inr ⟨_, hfence ?_, by rw [hmark]; rfl⟩
      rintro rfl
      cases hc
  · rintro p ⟨hp, hrow⟩
    obtain ⟨q, hq, rfl⟩ := List.mem_map.1 hp
    exact hps q hq hrow

end Marked
end SqlTidy
