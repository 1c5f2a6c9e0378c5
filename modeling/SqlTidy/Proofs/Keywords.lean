import SqlTidy.Proofs.BlankChange
import SqlTidy.Proofs.Levels

/-!
# The case of keywords

Recasing finds its words by the characters around them and the layout takes its keywords from the
tokens, and each of the two has vocabularies of its own.  On texts of ASCII characters they find the
same words: a token that is made of letters stands between two characters that stop a word, so that
it was recased as one word by its class.  Where the vocabularies agree, a keyword is therefore
written in the case of reserved words.  They do not agree on `EXCEPT`, `INTERSECT` and `CROSS`:
these govern the layout but are no reserved words, and are written in the case of object names.

## Main definitions

* `Layout.IsKeyword before t` — the token `t` after the tokens `before` is a keyword for the layout.
* `Layout.Place.TreatsAsKeyword p t` — the layout pass treats it as one.
* `unreservedKeywords` — the keywords that are no reserved words.

## Main results

* `standsApart_of_mem_tokenize` — a word among the tokens stands between two stops.
* `styleFor_apply_of_mem_tokens_ready` — a token of letters is written in the style of its class.
* `Layout.Place.Reads.treatsAsKeyword_iff` — the two are the same.
* `reservedCase_apply_iff` — which keywords are written in the case of reserved words.
-/

namespace SqlTidy

open Literal (Kind)

/-! ### Words among the tokens -/

/-- A word that is read as a token goes on to a stop. -/
theorem isPlain_head?_of_tokenize_append {w r : Text} (hw : w ≠ [])
    (hplain : ∀ c ∈ w, isPlain c = true) (h : tokenize (w ++ r) = w :: tokenize r) :
    ∀ c ∈ r.head?, isPlain c = false := by
  obtain ⟨c, w, rfl⟩ := List.exists_cons_of_ne_nil hw
  obtain ⟨hc, hplain⟩ := List.forall_mem_cons.1 hplain
  -- the token takes all characters up to the first stop
  rw [List.cons_append, tokenize_word _ hc, List.takeWhile_append_of_pos hplain] at h
  have hnil : r.takeWhile isPlain = [] := by simpa using (List.cons.inj h).1
  intro d hd
  obtain ⟨r, rfl⟩ := List.head?_eq_some_iff.1 hd
  by_contra hne
  simp [hne] at hnil

/-- The text `t` stands somewhere in `s`, with a stop or nothing on either side. -/
def StandsApart (t s : Text) : Prop :=
  ∃ a b, s = a ++ (t ++ b) ∧ (∀ c ∈ a.getLast?, isPlain c = false) ∧
    ∀ c ∈ b.head?, isPlain c = false

/-- A word that stands apart does so also after another text, if there is a stop where they meet. -/
theorem StandsApart.append {t x r : Text} (h : StandsApart t r) (hne : t ≠ [])
    (hplain : ∀ c ∈ t, isPlain c = true)
    (hx : (∀ c ∈ x.getLast?, isPlain c = false) ∨ ∀ c ∈ r.head?, isPlain c = false) :
    StandsApart t (x ++ r) := by
  obtain ⟨a, b, rfl, ha, hb⟩ := h
  refine ⟨x ++ a, b, (List.append_assoc x a _).symm, ?_, hb⟩
  cases a using List.reverseRecOn with
  | append_singleton a d => simpa using ha
  | nil =>
    -- the word comes right after the other text and does not begin with a stop
    obtain ⟨d, t, rfl⟩ := List.exists_cons_of_ne_nil hne
    have hd := hplain d List.mem_cons_self
    rw [List.append_nil]
    refine hx.resolve_right fun hr => ?_
    simp [hd] at hr

/-- A word among the tokens of a text stands apart. -/
theorem standsApart_of_mem_tokenize {s : Text} {t : Token} (ht : t ∈ tokenize s) (hne : t ≠ [])
    (hplain : ∀ c ∈ t, isPlain c = true) : StandsApart t s := by
  induction s using Text.token_induction with
  | nil => simp at ht
  -- on the first token: the word is that token, or stands apart in the rest
  | blank c r hc ih =>
    rw [tokenize_blank r (isQuote_of_isBlank hc) hc] at ht
    exact (ih ht).append (x := [c]) hne hplain (.inl (by simpa using isPlain_of_isBlank hc))
  | complete u r hu htokens ih =>
    rw [htokens] at ht
    cases hu with
    | @mark c hc =>
      rcases List.mem_cons.1 ht with rfl | ht
      · have := hplain c List.mem_cons_self
        simp [isPlain_of_isPunctuation hc] at this
      · exact (ih ht).append hne hplain (.inl (by simpa using isPlain_of_isPunctuation hc))
    | word hu huplain =>
      have hr := isPlain_head?_of_tokenize_append hu huplain htokens
      rcases List.mem_cons.1 ht with rfl | ht
      · exact ⟨[], r, rfl, by simp, hr⟩
      · exact (ih ht).append hne hplain (.inr hr)
    -- a quoted token begins and ends with a stop
    | @quoted q us hq hus =>
      rcases List.mem_cons.1 ht with rfl | ht
      · have := hplain q List.mem_cons_self
        simp [isPlain_of_isQuote hq] at this
      · refine (ih ht).append hne hplain (.inl ?_)
        rw [← List.cons_append, List.getLast?_concat]
        simpa using isPlain_of_isQuote hq
  | unclosed u hu =>
    rw [hu.tokenize_eq, List.mem_singleton] at ht
    obtain ⟨q, us, rest, hq, -, -, rfl⟩ := hu
    have := hplain q (ht ▸ List.mem_cons_self)
    simp [isPlain_of_isQuote hq] at this

/-! ### Words and recasing -/

/-- A stop at the end of a text keeps it apart from what follows. -/
theorem recase_append_of_getLast? (o : Options) {x : Text}
    (hx : ∀ c ∈ x.getLast?, isPlain c = false) (y : Text) :
    recase o (x ++ y) = recase o x ++ recase o y := by
  cases x using List.reverseRecOn with
  | nil => rw [recase_nil, List.nil_append, List.nil_append]
  | append_singleton x c =>
    have hc : isPlain c = false := hx c (by simp)
    rw [List.append_assoc, List.singleton_append, recase_append_stop o hc, recase_append_stop o hc,
      recase_nil, List.append_assoc, List.singleton_append]

/-- A stop at the front of a text keeps it apart from what comes before. -/
theorem recase_append_of_head? (o : Options) (x : Text) {y : Text}
    (hy : ∀ c ∈ y.head?, isPlain c = false) : recase o (x ++ y) = recase o x ++ recase o y := by
  cases y with
  | nil => rw [recase_nil, List.append_nil, List.append_nil]
  | cons c y =>
    have hc : isPlain c = false := hy c rfl
    rw [recase_append_stop o hc, recase_cons_stop o hc]

/-- Case makes no stop. -/
theorem isPlain_of_map_toLower_eq {x y : Option Char} (h : x.map Char.toLower = y.map Char.toLower)
    (hy : ∀ c ∈ y, isPlain c = false) : ∀ c ∈ x, isPlain c = false := by
  intro c hc
  obtain ⟨d, hd, hdc⟩ := Option.mem_map.1 (h ▸ Option.mem_map_of_mem Char.toLower hc)
  rw [← eq_of_toLower_eq isPlain_case hdc]
  exact hy d hd

/-- A word among the tokens of a recased text was recased by itself. -/
theorem exists_recase_eq_of_mem_tokenize (o : Options) {s : Text} {t : Token}
    (ht : t ∈ tokenize (recase o s)) (hne : t ≠ []) (hplain : ∀ c ∈ t, isPlain c = true) :
    ∃ w, recase o w = t := by
  obtain ⟨a, b, hsplit, ha, hb⟩ := standsApart_of_mem_tokenize ht hne hplain
  -- the text before recasing has stops at the same places
  have hlower := map_toLower_recase o s
  rw [hsplit, List.map_append, List.map_append] at hlower
  obtain ⟨a', r, rfl, ha', hr⟩ := List.map_eq_append_iff.1 hlower.symm
  obtain ⟨w, b', rfl, hw, hb'⟩ := List.map_eq_append_iff.1 hr
  have hlast : ∀ c ∈ a'.getLast?, isPlain c = false := by
    refine isPlain_of_map_toLower_eq ?_ ha
    rw [← List.getLast?_map, ha', List.getLast?_map]
  have hhead : ∀ c ∈ b'.head?, isPlain c = false := by
    refine isPlain_of_map_toLower_eq ?_ hb
    rw [← List.head?_map, hb', List.head?_map]
  rw [recase_append_of_getLast? o hlast, recase_append_of_head? o w hhead] at hsplit
  have hlength : ∀ {x y : Text}, x.map Char.toLower = y.map Char.toLower →
      (recase o x).length = y.length := by
    intro x y h
    simpa using congrArg List.length ((map_toLower_recase o x).trans h)
  -- recasing keeps lengths, so the parts are recased each by itself
  obtain ⟨-, hrest⟩ := List.append_inj hsplit (hlength ha')
  exact ⟨w, (List.append_inj hrest (hlength hw)).1⟩

/-- Letters are part of tokens. -/
theorem isPlain_of_isAlpha {c : Char} (h : c.isAlpha = true) : isPlain c = true := by
  by_contra hplain
  rw [isAlpha_of_isPlain (Bool.not_eq_true _ ▸ hplain)] at h
  cases h

/-- Letters are part of words. -/
theorem isWordPart_of_isAlpha {c : Char} (h : c.isAlpha = true) : isWordPart c = true := by
  simp [isWordPart, Char.isAlphanum, h]

/-- A text of letters is recased as one word. -/
theorem recase_of_isAlpha (o : Options) {w : Text} (hne : w ≠ [])
    (hw : ∀ c ∈ w, c.isAlpha = true) : recase o w = (o.styleFor w).apply w := by
  -- there is no underscore among letters
  have hunfenced : (Marked.ofText w : Marked (Kind × Nat)).Unfenced := by
    intro hfence
    have hmem : Symbol.char '_' ∈ (Marked.ofText w : Marked (Kind × Nat)) :=
      hfence.subset List.mem_cons_self
    obtain ⟨c, hc, heq⟩ := List.mem_map.1 hmem
    cases heq
    exact absurd (hw '_' hc) (by decide)
  have hrecase := Marked.recase_spell o hunfenced
  rw [Marked.spell_ofText, Marked.recase, Marked.mapGaps_ofText, Marked.spell_ofText] at hrecase
  rw [hrecase]
  obtain ⟨c, w, rfl⟩ := List.exists_cons_of_ne_nil hne
  obtain ⟨hc, hw⟩ := List.forall_mem_cons.1 hw
  have hword := recaseFrom_word_append o (c := c) (w := w) (r := []) (by simp [isWordStart, hc])
    (fun d hd => isWordPart_of_isAlpha (hw d hd)) rfl
  rw [List.append_nil, recaseFrom, List.append_nil] at hword
  exact hword

/-- A token of letters is written in the style of its class. -/
theorem styleFor_apply_of_mem_tokens_ready {o : Options} {s : Text} {t : Token}
    (ht : t ∈ (ready o s).tokens) (hne : t ≠ []) (halpha : ∀ c ∈ t, c.isAlpha = true) :
    (o.styleFor t).apply t = t := by
  obtain ⟨w, rfl⟩ := exists_recase_eq_of_mem_tokenize o ht hne fun c hc =>
    isPlain_of_isAlpha (halpha c hc)
  have hlower := map_toLower_recase o w
  have hw : ∀ c ∈ w, c.isAlpha = true :=
    forall_class_of_map_toLower_eq (by decide) hlower halpha
  have hwne : w ≠ [] := by
    rintro rfl
    exact hne (recase_nil o)
  have hpart : ∀ c ∈ w, isWordPart c = true := fun c hc => isWordPart_of_isAlpha (hw c hc)
  -- a word has the class it had before recasing, and a style applied twice is applied once
  rw [recase_of_isAlpha o hwne hw, o.styleFor_apply hpart, CaseStyle.apply_apply hpart]

/-! ### Texts of ASCII characters -/

/-- Placeholders are made of ASCII characters. -/
theorem Placeholder.toNat_lt_of_mem_ofLiteral {kind : Kind} {n : Nat} {c : Char}
    (h : c ∈ ofLiteral kind n) : c.toNat < 128 := by
  have hword : ∀ kind : Kind, (tagOf kind).word.all (fun c => decide (c.toNat < 128)) = true := by
    intro kind
    cases kind <;> decide
  simp only [ofLiteral, make, opening, fence, List.mem_append, List.mem_cons, List.not_mem_nil,
    or_false, or_self] at h
  rcases h with (((rfl | h) | rfl) | h) | rfl
  · decide
  · exact of_decide_eq_true (List.all_eq_true.1 (hword kind) c h)
  · decide
  · have hdigit := Nat.isDigit_of_mem_toDigits (by decide) (by decide) h
    exact toNat_lt_of_isWordPart (by simp [isWordPart, Char.isAlphanum, hdigit])
  · decide

/-- A text of ASCII characters stays one up to its layout. -/
theorem toNat_lt_of_mem_ready (o : Options) {s : Text} (hs : ∀ c ∈ s, c.toNat < 128) :
    ∀ c ∈ (ready o s).text, c.toNat < 128 := by
  have hcollapse : ∀ c ∈ ({ text := s } : Draft).preserve.collapse.text,
      decide (c.toNat < 128) = true := by
    intro c hc
    rw [(Draft.represents_preserve s).collapse.text_eq] at hc
    obtain ⟨a, ha, hca⟩ := List.mem_flatMap.1 hc
    cases a with
    | hit h => exact decide_eq_true (Placeholder.toNat_lt_of_mem_ofLiteral hca)
    | char d =>
      obtain rfl : c = d := List.mem_singleton.1 hca
      cases hblank : Text.isBlank c with
      | true =>
        rw [Marked.eq_space_of_mem_squeezeFrom hblank ((Marked.collapse_isInfix _).subset ha)]
        decide
      | false =>
        -- what is no blank comes from the text
        have hstrip : .char c ∈ (marked s).strip := by
          rw [← Marked.strip_collapse]
          exact List.mem_filter.2 ⟨ha, by simp [hblank]⟩
        refine decide_eq_true (hs c ?_)
        rw [← text_marked s]
        exact List.mem_flatMap.2 ⟨_, (List.mem_filter.1 hstrip).1, List.mem_singleton_self c⟩
  intro c hc
  refine of_decide_eq_true (p := c.toNat < 128) ?_
  exact forall_class_of_map_toLower_eq (by decide) (map_toLower_recase o _).symm hcollapse c hc

/-! ### Keywords -/

/-- The keywords that are no reserved words. -/
def unreservedKeywords : List Text := ["EXCEPT", "INTERSECT", "CROSS"].map String.toList

/-- The words that the layout may take for keywords. -/
def keywords : List Text := clauseOpeners ++ joinWords ++ ["ON".toList] ++ selectModifiers

namespace Layout

/-- The token `t` is a keyword for the layout, if it comes after the tokens `before`: it opens a
clause, starts a join or its condition, or stays on the line of its `SELECT`. -/
def IsKeyword (before : List Token) (t : Token) : Prop :=
  t.upper ∈ clauseOpeners ∨ t.upper ∈ joinWords ∨
  (t.upper = "ON".toList ∧ lastOpener? before = some "FROM".toList) ∨
  (t.upper ∈ selectModifiers ∧ SelectPending before)

instance (before : List Token) (t : Token) : Decidable (IsKeyword before t) :=
  inferInstanceAs (Decidable (_ ∨ _))

variable {before : List Token} {t : Token}

/-- Whatever comes before it, a keyword is one of finitely many words. -/
theorem IsKeyword.upper_mem (h : IsKeyword before t) : t.upper ∈ keywords := by
  simp only [keywords, List.mem_append, List.mem_singleton]
  rcases h with h | h | ⟨h, -⟩ | ⟨h, -⟩ <;> simp only [h, true_or, or_true]

/-- In the place `p` the layout pass treats the token `t` as a keyword: it opens a clause, starts a
join, or goes on with the line although the first item of the select list is to come. -/
def Place.TreatsAsKeyword (p : Place) (t : Token) : Prop :=
  role p.clause t = .opener (.opened t.upper) ∨ role p.clause t = .join ∨
  (role p.clause t = .plain ∧ p.clause.isPending = true ∧ t.upper ∈ selectModifiers)

/-- The layout pass treats as keywords the tokens that are keywords. -/
theorem Place.Reads.treatsAsKeyword_iff {p : Place} {comments : List Text}
    (h : p.Reads comments before) : p.TreatsAsKeyword t ↔ IsKeyword before t := by
  have hmarks : ∀ u ∈ [[','], ['('], [')']], Token.upper u ∉ keywords := by decide
  have hmark (ht : t ∈ [[','], ['('], [')']]) : ¬IsKeyword before t :=
    fun hkey => hmarks t ht hkey.upper_mem
  -- what opens no clause and starts no join can only stay on the line of its `SELECT`
  have hmodifier (hopener : ¬clauseOpeners.contains t.upper = true)
      (hjoin : ¬(joinWords.contains t.upper = true ∨
        (t.upper = "ON".toList ∧ p.clause.isFrom = true))) :
      IsKeyword before t ↔ t.upper ∈ selectModifiers ∧ p.clause.isPending = true := by
    rw [List.contains_iff_mem] at hopener hjoin
    rw [IsKeyword, ← h.isFrom_iff, ← h.isPending_iff, ← or_assoc, ← or_assoc,
      or_assoc (a := _ ∈ clauseOpeners), or_iff_right (not_or.2 ⟨hopener, hjoin⟩)]
  -- one case for every role, in the order in which they are tried
  unfold TreatsAsKeyword role
  split_ifs with hopener hcomma hjoin hopen hclose hitem
  · exact iff_of_true (.inl rfl) (.inl (List.contains_iff_mem.1 hopener))
  · exact iff_of_false (by simp) (hmark (by simp [hcomma.1]))
  · refine iff_of_true (.inr (.inl rfl)) ?_
    rcases hjoin with hjoin | ⟨hon, hfrom⟩
    · exact .inr (.inl (List.contains_iff_mem.1 hjoin))
    · exact .inr (.inr (.inl ⟨hon, h.isFrom_iff.1 hfrom⟩))
  · exact iff_of_false (by simp) (hmark (by simp [hopen]))
  · exact iff_of_false (by simp) (hmark (by simp [hclose]))
  · rw [hmodifier hopener hjoin]
    simpa using fun hmem => absurd hitem.2 (by simp [hmem])
  · rw [hmodifier hopener hjoin]
    simp [and_comm]

end Layout

/-- A token of ASCII characters that is a word of the layout consists of letters. -/
theorem isAlpha_of_upper_mem_keywords {t : Token} (hascii : ∀ c ∈ t, c.toNat < 128)
    (h : t.upper ∈ keywords) : t ≠ [] ∧ ∀ c ∈ t, c.isAlpha = true := by
  have hletters : ∀ w ∈ keywords, w ≠ [] ∧ w.all Char.isAlpha = true := by decide +kernel
  obtain ⟨hne, hall⟩ := hletters _ h
  -- this needs ASCII characters, since the long s has a capital `S` as its upper case
  have hupper : t.upper = t.map Char.toUpper := Text.upper_of_ascii hascii
  rw [hupper, List.all_map, List.all_eq_true] at hall
  refine ⟨?_, fun c hc => ?_⟩
  · rintro rfl
    exact hne (by simpa using hupper)
  · rw [← Char.isAlpha_toUpper_eq_isAlpha]
    exact hall c hc

/-- A word of the layout has the style of reserved words, but for those that are none. -/
theorem styleFor_of_upper_mem_keywords (o : Options) {t : Token} (h : t.upper ∈ keywords) :
    o.styleFor t =
      if unreservedKeywords.contains t.upper then o.objectCase else o.reservedCase := by
  -- the two vocabularies are compared word by word
  have hwords : ∀ w ∈ keywords,
      (if w ∈ reservedWords then WordClass.reserved
        else if w ∈ functionNames then .function else .object) =
      if unreservedKeywords.contains w then .object else .reserved := by
    decide +kernel
  have hclass : classify t =
      if unreservedKeywords.contains t.upper then .object else .reserved :=
    hwords _ h
  rw [Options.styleFor, hclass]
  split_ifs <;> rfl

/-- On a keyword that is no reserved word, two styles differ. -/
theorem CaseStyle.eq_of_apply_eq_of_unreserved {t : Token} (hpart : ∀ c ∈ t, isWordPart c = true)
    (hmem : t.upper ∈ unreservedKeywords) {style style' : CaseStyle}
    (h : style.apply t = style'.apply t) : style = style' := by
  -- these words have at least two letters, and every style writes them in its own way
  have hwords : ∀ w ∈ unreservedKeywords, style.apply w = style'.apply w → style = style' := by
    cases style <;> cases style' <;> decide +kernel
  refine hwords _ hmem ?_
  calc style.apply t.upper
      _ = style.apply t := apply_apply hpart style .uppercase
      _ = style'.apply t := h
      _ = style'.apply t.upper := (apply_apply hpart style' .uppercase).symm

/-- Of the tokens that the layout of a text of ASCII characters treats as keywords, those that are
reserved words are written in the case of reserved words.  `EXCEPT`, `INTERSECT` and `CROSS` are
not, unless the names of objects are written in the same case. -/
theorem reservedCase_apply_iff (o : Options) {s : Text} (hs : ∀ c ∈ s, c.toNat < 128)
    {before rest : List Token} {t : Token} (htokens : (ready o s).tokens = before ++ t :: rest) :
    ((Layout.Place.after (ready o s).lineComments {} before).TreatsAsKeyword t ↔
        Layout.IsKeyword before t) ∧
      (Layout.IsKeyword before t →
        (o.reservedCase.apply t = t ↔
          t.upper ∉ unreservedKeywords ∨ o.objectCase = o.reservedCase)) := by
  refine ⟨(Layout.reads_after _ before).treatsAsKeyword_iff, fun hkey => ?_⟩
  have ht : t ∈ (ready o s).tokens := by simp [htokens]
  have hascii : ∀ c ∈ t, c.toNat < 128 := fun c hc =>
    toNat_lt_of_mem_ready o hs c ((infix_of_mem_tokenize ht).subset hc)
  obtain ⟨hne, halpha⟩ := isAlpha_of_upper_mem_keywords hascii hkey.upper_mem
  have hpart : ∀ c ∈ t, isWordPart c = true := fun c hc => isWordPart_of_isAlpha (halpha c hc)
  have hstyle := styleFor_apply_of_mem_tokens_ready ht hne halpha
  rw [styleFor_of_upper_mem_keywords o hkey.upper_mem] at hstyle
  -- the token is written in the style of its class, which is the one in question or that of object
  -- names
  by_cases hmem : t.upper ∈ unreservedKeywords
  · rw [if_pos (List.contains_iff_mem.2 hmem)] at hstyle
    rw [or_iff_right (not_not_intro hmem)]
    constructor
    · intro hreserved
      exact CaseStyle.eq_of_apply_eq_of_unreserved hpart hmem (hstyle.trans hreserved.symm)
    · intro hcase
      rw [← hcase, hstyle]
  · rw [if_neg (by rwa [List.contains_iff_mem])] at hstyle
    exact iff_of_true hstyle (.inl hmem)

/-- The condition of a join, in a text with words next to marks, a string and a comment. -/
theorem reservedCase_apply_iff_on :
    let o : Options := { reservedCase := .capitalize }
    let s := "select distinct(a),'on' from t--x\ncross join u oN(b)".toList
    let before := ["Select", "Distinct", "(", "a", ")", ",", "___STRING_0___", "From",
      "t___COMMENT_1___", "cross", "Join", "u"].map String.toList
    let rest := ["(", "b", ")"].map String.toList
    (∀ c ∈ s, c.toNat < 128) ∧ (ready o s).tokens = before ++ "On".toList :: rest ∧
      Layout.IsKeyword before "On".toList ∧ o.reservedCase.apply "On".toList = "On".toList := by
  intro o s before rest
  have hall : s.all (fun c => decide (c.toNat < 128)) = true := by decide +kernel
  have hs : ∀ c ∈ s, c.toNat < 128 := by simpa only [List.all_eq_true, decide_eq_true_eq] using hall
  have htokens : (ready o s).tokens = before ++ "On".toList :: rest := by decide +kernel
  have hkey : Layout.IsKeyword before "On".toList := by decide +kernel
  exact ⟨hs, htokens, hkey,
    ((reservedCase_apply_iff o hs htokens).2 hkey).2 (.inl (by decide +kernel))⟩

/-- `EXCEPT` is a keyword and is not written in the case of reserved words. -/
theorem except_not_in_reservedCase :
    let o : Options := {}
    let s := "select 1 except select 2".toList
    (∀ c ∈ s, c.toNat < 128) ∧
      ∃ before t rest, (ready o s).tokens = before ++ t :: rest ∧ Layout.IsKeyword before t ∧
        o.reservedCase.apply t ≠ t := by
  intro o s
  have hall : s.all (fun c => decide (c.toNat < 128)) = true := by decide +kernel
  refine ⟨by simpa only [List.all_eq_true, decide_eq_true_eq] using hall,
    ["SELECT".toList, ['1']], "except".toList, ["SELECT".toList, ['2']], ?_, ?_, ?_⟩ <;>
  decide +kernel

end SqlTidy
