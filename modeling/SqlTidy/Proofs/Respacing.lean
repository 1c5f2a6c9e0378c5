import SqlTidy.Proofs.Tokens

/-!
# Literals in a respaced text

When the tokens of a text are set apart by other blanks, and its words recased, the same literals
are found in it.  What a literal is depends on the characters next to it and, for an unclosed block
comment, on all that follows; the characters inside a token stay next to each other, and only blanks
and punctuation marks come next to the ends of tokens.

## Main definitions

* `Marked.Bounded m` — a marked text is empty or begins with a blank or a punctuation mark.
* `Marked.Respaces isLine m ps` — `ps` are the tokens of `m`, recased, with separators.

## Main results

* `Marked.infix_text_of_infix_weave` — a row of plain characters lies in one token.
* `Marked.scans_append_of_fold_eq` — a recased word is scanned as the word was.
* `Marked.Respaces.scans` — a respaced text is scanned as the text was.
-/

namespace SqlTidy
namespace Marked

open Literal (Kind)

variable {α : Type}

/-! ### Rows of characters in the text -/

/-- Marked texts that differ in case only are written as texts that do. -/
theorem map_toLower_spell (f : Hit α → Text) {m n : Marked α} (h : fold m = fold n) :
    (spell f m).map Char.toLower = (spell f n).map Char.toLower := by
  induction h using fold_induction with
  | nil => rfl
  | char c d m n hcd _ ih => rw [spell_char, spell_char, List.map_cons, List.map_cons, hcd, ih]
  | hit x m n _ ih => rw [spell_hit, spell_hit, List.map_append, List.map_append, ih]

/-- Rows of characters that are no letters do not depend on case. -/
theorem infix_text_of_fold_eq {m n : Marked α} (h : fold m = fold n) {x : Text}
    (hx : ∀ c ∈ x, c.isAlpha = false) (hm : x <:+: text m) : x <:+: text n := by
  have htext : fold (ofText (text m) : Marked α) = fold (ofText (text n)) := by
    rw [fold_ofText, fold_ofText, map_toLower_spell _ h]
  obtain ⟨u, v, huv⟩ := infix_of_fold_eq htext hx (hm.map Symbol.char)
  have := congrArg (spell fun _ => []) huv
  simp only [spell_append, spell_ofText] at this
  exact ⟨_, _, this⟩

/-- A part of a marked text is written as a part of the text. -/
theorem infix_text_of_isInfix {m n : Marked α} (h : m <:+: n) : text m <:+: text n := by
  obtain ⟨u, v, rfl⟩ := h
  exact ⟨text u, text v, by simp⟩

/-- A row of plain characters lies in one token. -/
theorem infix_text_of_infix_weave {isLine : Hit α → Prop} {ps : List (Text × Marked α)}
    (hblank : ∀ p ∈ ps, Text.isAllBlank p.1 = true) (hchain : ps.IsChain (Follows isLine))
    {x : Text} (hne : x ≠ []) (hx : ∀ c ∈ x, SqlTidy.isPlain c = true)
    (h : x <:+: text (weave ps)) :
    ∃ p ∈ ps, x <:+: text p.2 := by
  have hsep : ∀ p ∈ ps.map fun p => (p.1, text p.2), ∀ c ∈ p.1, c ∉ x := by
    intro p hp c hc hcx
    obtain ⟨q, hq, rfl⟩ := List.mem_map.1 hp
    have := isBlank_of_isPlain (hx c hcx)
    rw [List.all_eq_true.1 (hblank q hq) c hc] at this
    cases this
  -- without a separator, a parenthesis or a mark stands between two tokens
  have hends : (ps.map fun p => (p.1, text p.2)).IsChain fun p q => q.1 = [] →
      (∃ c ∉ x, p.2.getLast? = some c) ∨ ∃ c ∉ x, q.2.head? = some c := by
    rw [List.isChain_map]
    refine hchain.imp fun p q hpq hnil => ?_
    rcases hpq.1 hnil with hlast | ⟨c, hc, hmark⟩
    · obtain ⟨y, hy⟩ := List.getLast?_eq_some_iff.1 hlast
      exact .inl ⟨'(', fun h => (by cases hx _ h), by simp [hy]⟩
    · refine .inr ⟨c, fun h => ?_, by simp [hmark]⟩
      have := isPunctuation_of_isPlain (hx c h)
      simp [hc] at this
  rw [text, spell_weave] at h
  obtain ⟨p, hp, hrow⟩ := infix_of_infix_weave hne hsep hends h
  obtain ⟨q, hq, rfl⟩ := List.mem_map.1 hp
  exact ⟨q, hq, hrow⟩

/-! ### Between tokens -/

/-- A marked text is empty or begins with a blank or a punctuation mark. -/
def Bounded (m : Marked α) : Prop :=
  ∀ a ∈ m.head?, ∃ c, a = .char c ∧ SqlTidy.isPlain c = false ∧ Text.isQuote c = false

/-- Where no word goes on and no quote stands, something else is next. -/
theorem Stopped.bounded {m : Marked α} (hm : Stopped m) (hfree : QuoteFree m) : Bounded m := by
  intro a ha
  have hplain := hm a ha
  have hquote := hfree a (List.mem_of_mem_head? ha)
  cases a with
  | char c => exact ⟨c, rfl, hplain, hquote⟩
  | hit h => cases hplain

/-- What is bounded begins with no plain character. -/
theorem Bounded.head?_text_ne {m : Marked α} (hm : Bounded m) {c : Char}
    (hc : SqlTidy.isPlain c = true ∨ Text.isQuote c = true) : (text m).head? ≠ some c := by
  intro h
  cases m with
  | nil => simp at h
  | cons a m =>
    obtain ⟨d, rfl, hplain, hquote⟩ := hm a rfl
    obtain rfl : d = c := by simpa using h
    rcases hc with hc | hc
    · simp [hplain] at hc
    · simp [hquote] at hc

/-- No literal begins with a blank or a punctuation mark. -/
theorem scans_cons_stop {c : Char} (hplain : SqlTidy.isPlain c = false)
    (hquote : Text.isQuote c = false) {m : Marked Kind} (hm : Literal.recogniser.Scans m) :
    Literal.recogniser.Scans (.char c :: m) := by
  refine ⟨Literal.read_eq_none_iff.2 ⟨fun h => ?_, ?_, ?_⟩, hm⟩
  · simp [hquote] at h
  · rintro rfl
    cases hplain
  · rintro rfl
    cases hplain

/-- Blanks in front do not change what is scanned. -/
theorem scans_blank_append {s : Text} (hs : Text.isAllBlank s = true) {m : Marked Kind}
    (hm : Literal.recogniser.Scans m) : Literal.recogniser.Scans (ofText s ++ m) := by
  induction s with
  | nil => exact hm
  | cons c s ih =>
    simp only [Text.isAllBlank, List.all_cons, Bool.and_eq_true] at hs
    exact scans_cons_stop (isPlain_of_isBlank hs.1) (isQuote_of_isBlank hs.1) (ih hs.2)

/-! ### Words -/

section Word

variable {w w' m n : Marked Kind}

/-- The two characters that end a block comment, in a word and what follows it. -/
theorem not_infix_of_fold_eq (hfold : fold w = fold w') (hn : Bounded n)
    (hclosed : ['*', '/'] <:+: text n → ['*', '/'] <:+: text m)
    (h : ¬['*', '/'] <:+: text (w ++ m)) : ¬['*', '/'] <:+: text (w' ++ n) := by
  intro hnew
  rw [text, spell_append] at h hnew
  -- the row does not reach over the end of the word
  have hsplit : ['*', '/'] <:+: text w' ∨ ['*', '/'] <:+: text n := by
    cases n with
    | nil => exact .inl (by simpa using hnew)
    | cons a n =>
      obtain ⟨c, rfl, hplain, -⟩ := hn a rfl
      have hc : c ∉ ['*', '/'] := by
        simp only [List.mem_cons, List.not_mem_nil, or_false, not_or]
        constructor <;> rintro rfl <;> cases hplain
      rw [spell_char, infix_append_cons_iff hc] at hnew
      exact hnew.imp_right fun h => h.trans (List.suffix_cons c _).isInfix
  rcases hsplit with hw | hn
  · have hw := infix_text_of_fold_eq hfold.symm (by simp) hw
    exact h (hw.trans (List.prefix_append _ _).isInfix)
  · exact h ((hclosed hn).trans (List.suffix_append _ _).isInfix)

/-- No literal begins at a character of a recased word, if none began there before. -/
theorem read_char_of_fold_eq {c d : Char} (hcd : c.toLower = d.toLower)
    (hd : Text.isQuote d = false) (hfold : fold w = fold w')
    (hold : Literal.recogniser.Scans (w ++ m))
    (hn : Bounded n) (hclosed : ['*', '/'] <:+: text n → ['*', '/'] <:+: text m)
    (h : Literal.read (c :: text (w ++ m)) = none) : Literal.read (d :: text (w' ++ n)) = none := by
  obtain ⟨-, hline, hblock⟩ := Literal.read_eq_none_iff.1 h
  refine Literal.read_eq_none_iff.2
    ⟨fun hq => by simp [hd] at hq, fun hd' => ?_, fun hd' r hr => ?_⟩
  -- a second hyphen would have stood after the first one before
  · have hc := hline ((eq_char_iff_of_toLower_eq (e := '-') (by decide) hcd).2 hd')
    cases hfold using fold_induction with
    | nil => exact hn.head?_text_ne (.inl rfl)
    | char e e' w w' he _ _ =>
      simp only [List.cons_append, spell_char, List.head?_cons, ne_eq, Option.some.injEq] at hc ⊢
      exact fun he' => hc ((eq_char_iff_of_toLower_eq (by decide) he).2 he')
    | hit x w w' _ _ =>
      obtain ⟨e, b, hb, -⟩ := (stands_of_scans hold).exists_cons
      simpa [hb] using hc
  -- an asterisk would have stood after the slash before, and no comment was closed then
  · have hc := hblock ((eq_char_iff_of_toLower_eq (e := '/') (by decide) hcd).2 hd')
    cases hfold using fold_induction with
    | nil =>
      refine absurd ?_ (hn.head?_text_ne (c := '*') (.inl rfl))
      rw [List.nil_append] at hr
      rw [hr]
      rfl
    | char e e' w w' he hww' _ =>
      simp only [List.cons_append, spell_char, List.cons.injEq] at hr
      obtain ⟨rfl, rfl⟩ := hr
      have he := (eq_char_iff_of_toLower_eq (e := '*') (by decide) he).2 rfl
      exact not_infix_of_fold_eq hww' hn hclosed (hc _ (by rw [he]; rfl))
    | hit x w w' _ _ =>
      -- no literal begins with an asterisk
      obtain ⟨e, b, hb, he⟩ := (stands_of_scans hold).exists_cons
      simp only [List.cons_append, spell_hit, hb, List.cons.injEq] at hr
      obtain ⟨rfl, -⟩ := hr
      exact absurd he (by decide)

/-- A quoted literal is not followed by its own quote, if no quote stands in a gap. -/
theorem head?_text_ne_of_scans {h : Hit Kind} {q : Char} (hq : h.tag.quote? = some q)
    (hm : Literal.recogniser.Scans (.hit h :: m)) (hfree : QuoteFree m) :
    (text m).head? ≠ some q := by
  have hquote := Literal.Kind.isQuote_of_quote? hq
  intro hhead
  cases m with
  | nil => simp at hhead
  | cons a m =>
    cases a with
    | char c =>
      obtain rfl : c = q := by simpa using hhead
      have := hfree _ List.mem_cons_self
      simp [hquote] at this
    | hit x =>
      -- a literal that the quote began would not be closed
      have hstands := stands_of_scans hm
      have hnext := stands_of_scans hm.2
      obtain ⟨c, b, hb, -⟩ := hnext.exists_cons
      obtain rfl : c = q := by simpa [hb] using hhead
      rw [text, spell_hit, hb] at hstands
      rw [hb] at hnext
      exact hnext.closing_ne_none hquote (hstands.closing_eq_none hq)

/-- A literal in a recased word is read as it was before. -/
theorem stands_of_fold_eq {h : Hit Kind} (hfold : fold w = fold w')
    (hplain : ∀ a ∈ w, Symbol.isPlain a = true) (hfree : QuoteFree (w ++ m))
    (hold : Literal.recogniser.Scans (.hit h :: (w ++ m))) (hn : Bounded n)
    (hend : w = [] → h.tag = .lineComment → ∀ a ∈ n.head?, a = .char '\n') :
    Literal.Stands h.tag h.text (text (w' ++ n)) := by
  -- the literal stood in front of another text, and what it depends on there has not changed
  refine (stands_of_scans hold).before (fun q hq => ?_) (fun hline => ?_)
  · have hquote := Literal.Kind.isQuote_of_quote? hq
    have hne := head?_text_ne_of_scans hq hold hfree
    cases hfold using fold_induction with
    | nil => exact hn.head?_text_ne (.inr hquote)
    | char c d w w' hcd _ _ =>
      intro hd
      obtain rfl : d = q := by simpa using hd
      have hc : SqlTidy.isPlain c = true := hplain _ List.mem_cons_self
      have := isQuote_of_isPlain ((eq_of_toLower_eq isPlain_case hcd).symm.trans hc)
      simp [hquote] at this
    | hit x w w' _ _ =>
      obtain ⟨c, b, hb, -⟩ := (stands_of_scans hold.2).exists_cons
      simpa [hb] using hne
  · -- a line comment is the last symbol of its word
    have hhead := head?_of_scans_lineComment hold hline
    cases w with
    | nil =>
      obtain rfl : w' = [] := by simpa [fold] using hfold
      intro c hc
      cases n with
      | nil => simp at hc
      | cons a n =>
        obtain rfl := hend rfl hline a rfl
        obtain rfl : '\n' = c := by simpa using hc
        rfl
    | cons a w =>
      obtain ⟨c, rfl, hc⟩ := hhead a rfl
      have := isPlain_of_isBlank (Literal.isBlank_of_isLineEnd hc)
      rw [← Symbol.isPlain_char (α := Kind), hplain _ List.mem_cons_self] at this
      cases this

/-- A recased word is scanned as the word was. -/
theorem scans_append_of_fold_eq (hfold : fold w = fold w')
    (hplain : ∀ a ∈ w, Symbol.isPlain a = true) (hfree : QuoteFree (w ++ m))
    (hold : Literal.recogniser.Scans (w ++ m)) (hn : Bounded n)
    (hclosed : ['*', '/'] <:+: text n → ['*', '/'] <:+: text m)
    (hend : ∀ h, w'.getLast? = some (.hit h) → h.tag = .lineComment → ∀ a ∈ n.head?, a = .char '\n')
    (hnew : Literal.recogniser.Scans n) : Literal.recogniser.Scans (w' ++ n) := by
  -- from the end of the word to its front, since what is read at a symbol depends on what follows
  -- it
  induction hfold using fold_induction with
  | nil => exact hnew
  | char c d w w' hcd hww' ih =>
    obtain ⟨hc, htail⟩ := List.forall_mem_cons.1 hplain
    have hfree' := (List.forall_mem_cons.1 hfree).2
    have hd : Text.isQuote d = false :=
      isQuote_of_isPlain ((eq_of_toLower_eq isPlain_case hcd).symm.trans hc)
    refine ⟨read_char_of_fold_eq hcd hd hww' hold.2 hn hclosed hold.1, ih htail hfree' hold.2 ?_⟩
    intro h hlast
    refine hend h ?_
    rw [List.getLast?_cons, hlast]
    rfl
  | hit x w w' hww' ih =>
    obtain ⟨-, htail⟩ := List.forall_mem_cons.1 hplain
    have hfree' := (List.forall_mem_cons.1 hfree).2
    refine ⟨Literal.read_append_iff.2 (stands_of_fold_eq hww' htail hfree' hold hn ?_),
      ih htail hfree' hold.2 ?_⟩
    · rintro rfl hline
      obtain rfl : w' = [] := by simpa [fold] using hww'
      exact hend x rfl hline
    · intro h hlast
      refine hend h ?_
      rw [List.getLast?_cons, hlast]
      rfl

end Word

/-! ### Respaced texts -/

/-- A mark has no other case. -/
theorem eq_mark_of_fold_eq {c : Char} (hc : isPunctuation c = true) {t : Marked α}
    (h : fold t = fold [.char c]) : t = [.char c] := by
  have hletter := isAlpha_of_isPlain (isPlain_of_isPunctuation hc)
  exact eq_ofText_of_fold_eq (x := [c]) (by simpa using hletter) h

/-- Changing the hits does not depend on case. -/
theorem fold_mapHits {β : Type} (f : Hit α → Hit β) (m : Marked α) :
    fold (mapHits f m) = mapHits f (fold m) := by
  have hsymbol : ∀ a : Symbol α, (a.mapHit f).fold = a.fold.mapHit f := by
    intro a
    cases a <;> rfl
  simp [fold, mapHits, hsymbol]

/-- Tokens do not depend on what the hits are. -/
theorem tokens_mapHits {β : Type} (f : Hit α → Hit β) (m : Marked α) :
    tokens (mapHits f m) = (tokens m).map (mapHits f) := by
  have hplain : ∀ a : Symbol α, (a.mapHit f).isPlain = a.isPlain := by
    intro a
    cases a <;> rfl
  induction m using token_induction with
  | nil => simp [mapHits]
  | quote c m hc => rw [mapHits_char, tokens_quote hc, tokens_quote hc]; rfl
  | blank c m hc ih => rw [mapHits_char, tokens_blank hc, tokens_blank hc, ih]
  | mark c m hc ih => rw [mapHits_char, tokens_mark hc, tokens_mark hc, ih]; rfl
  | word w m hw hstop ih =>
    have hword : IsWord (mapHits f w) := by
      refine ⟨by simpa [mapHits] using hw.1, fun b hb => ?_⟩
      obtain ⟨a, ha, rfl⟩ := List.mem_map.1 hb
      rw [hplain, hw.2 a ha]
    have hstop' : Stopped (mapHits f m) := by
      intro b hb
      rw [mapHits, List.head?_map, Option.mem_def, Option.map_eq_some_iff] at hb
      obtain ⟨a, ha, rfl⟩ := hb
      rw [hplain, hstop a ha]
    rw [mapHits_append, tokens_word hword hstop', tokens_word hw hstop, ih, List.map_cons]

/-- Changing the hits leaves separators alone. -/
theorem mapHits_weave {β : Type} (f : Hit α → Hit β) (ps : List (Text × Marked α)) :
    mapHits f (weave ps) = weave (ps.map fun p => (p.1, mapHits f p.2)) := by
  induction ps with
  | nil => rfl
  | cons p ps ih =>
    have hsep : mapHits f (ofText p.1) = ofText p.1 := by
      rw [mapHits, ofText, List.map_map]
      rfl
    rw [weave_cons, mapHits_append, mapHits_append, hsep, ih]
    simp

/-- The tokens of `m`, recased, with separators. -/
structure Respaces (isLine : Hit α → Prop) (m : Marked α) (ps : List (Text × Marked α)) : Prop where
  /-- The separators are blank. -/
  blank : ∀ p ∈ ps, Text.isAllBlank p.1 = true
  /-- Every separator is right for its place. -/
  follows : ps.IsChain (Follows isLine)
  /-- The tokens are the same but for case. -/
  tokens_eq : ps.map (fun p => fold p.2) = (tokens m).map fold

namespace Respaces

variable {isLine : Hit α → Prop} {m : Marked α} {ps : List (Text × Marked α)}

/-- A respaced text has the content of the text. -/
theorem fold_strip (h : Respaces isLine m ps) : fold (strip (weave ps)) = fold (strip m) := by
  have hflat : ∀ ts : List (Marked α), fold (ts.flatMap strip) = (ts.map fold).flatMap strip := by
    intro ts
    rw [fold, List.map_flatMap, List.flatMap_map]
    simp only [strip_fold]
    rfl
  rw [strip_weave h.blank, hflat, List.map_map, ← strip_tokens m, hflat, ← h.tokens_eq]
  rfl

/-- Every token of the respaced text is a token of the text, recased. -/
theorem exists_mem_tokens (h : Respaces isLine m ps) {p : Text × Marked α} (hp : p ∈ ps) :
    ∃ t ∈ tokens m, fold t = fold p.2 := by
  rw [← List.mem_map, ← h.tokens_eq]
  exact List.mem_map_of_mem hp

/-- Without quotes in its gaps, a text is respaced to one without. -/
theorem quoteFree (h : Respaces isLine m ps) (hm : QuoteFree m) : QuoteFree (weave ps) :=
  quoteFree_of_fold_strip_eq h.fold_strip.symm hm

/-- Without quotes in its gaps, a respaced text has the tokens it was made of. -/
theorem tokens_weave (h : Respaces isLine m ps) (hm : QuoteFree m) :
    tokens (weave ps) = ps.map Prod.snd := by
  refine Marked.tokens_weave h.blank (fun p hp => ?_) h.follows
  obtain ⟨t, ht, hfold⟩ := h.exists_mem_tokens hp
  rcases isWord_or_isMark_of_mem_tokens hm ht with hword | ⟨c, hc, rfl⟩
  · exact .inl (isWord_of_fold_eq hword hfold)
  · exact .inr ⟨c, hc, eq_mark_of_fold_eq hc hfold.symm⟩

/-- The hits of a respaced text are those of the text. -/
theorem mem_hits (h : Respaces isLine m ps) {p : Text × Marked α} (hp : p ∈ ps) {x : Hit α}
    (hx : .hit x ∈ p.2) : x ∈ hits m := by
  obtain ⟨t, ht, hfold⟩ := h.exists_mem_tokens hp
  have hx' : (Symbol.hit x).fold ∈ fold t := hfold ▸ List.mem_map_of_mem hx
  obtain ⟨a, ha, hax⟩ := List.mem_map.1 hx'
  cases a with
  | char c => cases hax
  | hit y =>
    cases hax
    exact mem_hits_iff.2 ((infix_of_mem_tokens ht).subset ha)

/-- A block comment is ended in a respaced text only if one is in the text. -/
theorem infix_text (h : Respaces isLine m ps) (hclosed : ['*', '/'] <:+: text (weave ps)) :
    ['*', '/'] <:+: text m := by
  have hplain : ∀ c ∈ ['*', '/'], SqlTidy.isPlain c = true :=
    List.all_eq_true.1 (by decide)
  obtain ⟨p, hp, hclosed⟩ := infix_text_of_infix_weave h.blank h.follows (by simp) hplain hclosed
  obtain ⟨t, ht, hfold⟩ := h.exists_mem_tokens hp
  exact (infix_text_of_fold_eq hfold.symm (by simp) hclosed).trans
    (infix_text_of_isInfix (infix_of_mem_tokens ht))

/-- A text is respaced whatever its hits stand for. -/
theorem mapHits {β : Type} (f : Hit α → Hit β) {isLine' : Hit β → Prop}
    (h : Respaces isLine m ps) (hline : ∀ x ∈ hits m, isLine' (f x) → isLine x) :
    Respaces isLine' (Marked.mapHits f m) (ps.map fun p => (p.1, Marked.mapHits f p.2)) where
  blank := by
    intro q hq
    obtain ⟨p, hp, rfl⟩ := List.mem_map.1 hq
    exact h.blank p hp
  follows := by
    rw [List.isChain_map]
    refine h.follows.imp_of_mem_imp fun p q hp hq hpq => ⟨fun hnil => ?_, fun y hy hy' => ?_⟩
    · refine (hpq.1 hnil).imp (fun hlast => ?_) ?_
      · rw [Marked.mapHits, List.getLast?_map, hlast]
        rfl
      · rintro ⟨c, hc, hmark⟩
        exact ⟨c, hc, by rw [hmark]; rfl⟩
    · rw [Marked.mapHits, List.getLast?_map, Option.map_eq_some_iff] at hy
      obtain ⟨a, ha, hay⟩ := hy
      cases a with
      | char c => cases hay
      | hit x =>
        cases hay
        exact hpq.2 x ha (hline x (h.mem_hits hp (List.mem_of_getLast? ha)) hy')
  tokens_eq := by
    have := congrArg (List.map (Marked.mapHits f)) h.tokens_eq
    simpa [tokens_mapHits, fold_mapHits, Function.comp_def] using this

/-- A respaced text is scanned as the text was. -/
theorem scans {m : Marked Kind} {ps : List (Text × Marked Kind)}
    (h : Respaces (·.tag = .lineComment) m ps) (hm : Literal.recogniser.Scans m)
    (hfree : QuoteFree m) : Literal.recogniser.Scans (weave ps) := by
  -- along the tokens of the text; each has its counterpart among the tokens of the respaced text
  induction m using token_induction generalizing ps with
  | nil =>
    obtain rfl : ps = [] := by simpa using h.tokens_eq
    trivial
  | quote c m hc =>
    have := hfree _ List.mem_cons_self
    simp [hc] at this
  | blank c m hc ih =>
    have htokens := h.tokens_eq
    rw [tokens_blank hc] at htokens
    exact ih ⟨h.blank, h.follows, htokens⟩ hm.2 (List.forall_mem_cons.1 hfree).2
  | mark c m hc ih =>
    obtain ⟨hblank, hchain, htokens⟩ := h
    rw [tokens_mark hc, List.map_cons] at htokens
    obtain ⟨p, ps, rfl, hp, htokens⟩ := List.map_eq_cons_iff.1 htokens
    obtain ⟨hsep, hblank⟩ := List.forall_mem_cons.1 hblank
    have hrest := ih ⟨hblank, (List.isChain_cons.1 hchain).2, htokens⟩ hm.2
      (List.forall_mem_cons.1 hfree).2
    rw [weave_cons, eq_mark_of_fold_eq hc hp]
    exact scans_blank_append hsep
      (scans_cons_stop (isPlain_of_isPunctuation hc) (isQuote_of_isPunctuation hc) hrest)
  | word w m hw hstop ih =>
    obtain ⟨hblank, hchain, htokens⟩ := h
    rw [tokens_word hw hstop, List.map_cons] at htokens
    obtain ⟨p, ps, rfl, hp, htokens⟩ := List.map_eq_cons_iff.1 htokens
    obtain ⟨hsep, hblank⟩ := List.forall_mem_cons.1 hblank
    obtain ⟨hnext, hchain'⟩ := List.isChain_cons.1 hchain
    have hrest : Respaces (·.tag = .lineComment) m ps := ⟨hblank, hchain', htokens⟩
    have hfree' := hfree.of_append.2
    have hbounded : Bounded (weave ps) :=
      (stopped_weave (isWord_of_fold_eq hw hp.symm) hblank hchain).bounded (hrest.quoteFree hfree')
    rw [weave_cons]
    refine scans_blank_append hsep (scans_append_of_fold_eq hp.symm hw.2 hfree hm hbounded
      hrest.infix_text ?_ (ih hrest hm.of_append hfree'))
    -- after a line comment, the next separator begins with a line feed
    intro h hlast hline a ha
    cases ps with
    | nil => simp at ha
    | cons q ps =>
      obtain ⟨r, hr⟩ := List.head?_eq_some_iff.1 ((hnext q rfl).2 h hlast hline)
      rw [weave_cons, hr] at ha
      simpa using ha.symm

end Respaces

end Marked
end SqlTidy
