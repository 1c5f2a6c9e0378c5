import SqlTidy.Proofs.Placeholder

/-!
# What recasing does

Recasing changes the case of ASCII letters and nothing else, works on both sides of a character that
stops a word separately, and undoes every recasing before it.

## Main definitions

* `Marked.fold` — a marked text with all ASCII letters small.
* `Marked.recase o m` — the gaps of a marked text recased.

## Main results

* `map_toLower_recaseWords` — recasing keeps a text up to the case of its ASCII letters.
* `recaseWords_append_stop` — a stop parts a text into two that are recased separately.
* `recaseWords_recaseWords` — a later recasing undoes an earlier one.
* `recase_spell` — recasing a text with placeholders is recasing its gaps.
-/

namespace SqlTidy

/-! ### ASCII words -/

namespace Text

/-- The capital form of an ASCII text is taken letter by letter. -/
theorem upper_of_ascii {w : Text} (h : ∀ c ∈ w, c.toNat < 128) : upper w = w.map Char.toUpper := by
  induction w with
  | nil => rfl
  | cons c w ih =>
    rw [List.forall_mem_cons] at h
    have hw : upper (c :: w) = upperChar c ++ upper w := rfl
    rw [hw, ih h.2, upperChar, if_pos h.1]
    rfl

/-- The small form of an ASCII text is taken letter by letter, whatever stands in front: only a
capital sigma looks at its neighbours. -/
theorem lowerAfter_of_ascii {w : Text} (h : ∀ c ∈ w, c.toNat < 128) (afterLetter : Bool) :
    lowerAfter afterLetter w = w.map Char.toLower := by
  induction w generalizing afterLetter with
  | nil => rfl
  | cons c w ih =>
    rw [List.forall_mem_cons] at h
    have hsigma : c ≠ 'Σ' := by
      rintro rfl
      exact absurd h.1 (by decide)
    rw [lowerAfter, if_neg hsigma, ih h.2, lowerChar, if_pos h.1]
    rfl

/-- The small form of an ASCII text, letter by letter. -/
theorem lower_of_ascii {w : Text} (h : ∀ c ∈ w, c.toNat < 128) : lower w = w.map Char.toLower :=
  lowerAfter_of_ascii h false

end Text

namespace CaseStyle

/-- A style on an ASCII word, letter by letter. -/
theorem apply_of_ascii {w : Text} (h : ∀ c ∈ w, c.toNat < 128) (style : CaseStyle) :
    style.apply w =
      match style with
      | uppercase => w.map Char.toUpper
      | lowercase => w.map Char.toLower
      | capitalize => (w.take 1).map Char.toUpper ++ (w.drop 1).map Char.toLower := by
  cases style with
  | uppercase => exact Text.upper_of_ascii h
  | lowercase => exact Text.lower_of_ascii h
  | capitalize =>
    -- the first letter and the rest of the word are ASCII texts again
    rw [apply, Text.upper_of_ascii fun c hc => h c (List.mem_of_mem_take hc),
      Text.lower_of_ascii fun c hc => h c (List.mem_of_mem_drop hc)]

/-- A style changes the case of ASCII letters only. -/
theorem map_toLower_apply {w : Text} (h : ∀ c ∈ w, c.toNat < 128) (style : CaseStyle) :
    (style.apply w).map Char.toLower = w.map Char.toLower := by
  rw [apply_of_ascii h]
  cases style with
  | uppercase => simp
  | lowercase => simp
  | capitalize => cases w <;> simp [Function.comp_def]

end CaseStyle

/-- A class of characters that does not depend on case holds all of one text if it holds all of
another that differs in case only. -/
theorem forall_class_of_map_toLower_eq {p : Char → Bool}
    (hp : ∀ n ∈ List.range' 65 26, p (Char.ofNat n).toLower = p (Char.ofNat n)) {s t : Text}
    (h : s.map Char.toLower = t.map Char.toLower) (hs : ∀ c ∈ s, p c = true) :
    ∀ c ∈ t, p c = true := by
  intro c hc
  have hc' : c.toLower ∈ s.map Char.toLower := h ▸ List.mem_map_of_mem hc
  obtain ⟨d, hd, hdc⟩ := List.mem_map.1 hc'
  rw [← eq_of_toLower_eq hp hdc]
  exact hs d hd

/-- The classes that tell words apart do not depend on case.  Each is checked for the 26 capital
letters and their small forms. -/
theorem isWordPart_case :
    ∀ n ∈ List.range' 65 26, isWordPart (Char.ofNat n).toLower = isWordPart (Char.ofNat n) := by
  decide

theorem isWordStart_case :
    ∀ n ∈ List.range' 65 26, isWordStart (Char.ofNat n).toLower = isWordStart (Char.ofNat n) := by
  decide

theorem isWordChar_case :
    ∀ n ∈ List.range' 65 26,
      Text.isWordChar (Char.ofNat n).toLower = Text.isWordChar (Char.ofNat n) := by
  decide

theorem isPlain_case :
    ∀ n ∈ List.range' 65 26, isPlain (Char.ofNat n).toLower = isPlain (Char.ofNat n) := by
  decide

theorem isQuote_case :
    ∀ n ∈ List.range' 65 26, Text.isQuote (Char.ofNat n).toLower = Text.isQuote (Char.ofNat n) := by
  decide

theorem isBlank_case :
    ∀ n ∈ List.range' 65 26, Text.isBlank (Char.ofNat n).toLower = Text.isBlank (Char.ofNat n) := by
  decide

/-! ### Recasing a text -/

/-- Whether a text begins with a word character does not depend on case. -/
theorem startsWithWordChar_case {s t : Text} (h : s.map Char.toLower = t.map Char.toLower) :
    startsWithWordChar s = startsWithWordChar t := by
  rcases s with _ | ⟨c, s⟩ <;> rcases t with _ | ⟨d, t⟩
  · rfl
  · simp at h
  · simp at h
  · simp only [List.map_cons, List.cons.injEq] at h
    exact eq_of_toLower_eq isWordChar_case h.1

/-- Whether a word character follows a run of ASCII word characters does not depend on case. -/
theorem startsWithWordChar_dropWhile_case {s t : Text}
    (h : s.map Char.toLower = t.map Char.toLower) :
    startsWithWordChar (s.dropWhile isWordPart) = startsWithWordChar (t.dropWhile isWordPart) := by
  induction s generalizing t with
  | nil =>
    cases t with
    | nil => rfl
    | cons d t => simp at h
  | cons c s ih =>
    cases t with
    | nil => simp at h
    | cons d t =>
      simp only [List.map_cons, List.cons.injEq] at h
      -- the runs stop together, since their classes do not depend on case
      rw [List.dropWhile_cons, List.dropWhile_cons, eq_of_toLower_eq isWordPart_case h.1]
      split
      · exact ih h.2
      · exact startsWithWordChar_case (by simp [h.1, h.2])

/-- A text begins with a word. -/
theorem recaseFrom_word (o : Options) {c : Char} {r : Text} (hc : isWordStart c = true)
    (hr : startsWithWordChar (r.dropWhile isWordPart) = false) :
    recaseFrom o false (c :: r) =
      (o.styleFor (c :: r.takeWhile isWordPart)).apply (c :: r.takeWhile isWordPart) ++
        recaseFrom o true (r.dropWhile isWordPart) := by
  rw [recaseFrom, if_pos (by simp [hc, hr])]

/-- A word, followed by no word character, at the front of a text. -/
theorem recaseFrom_word_append (o : Options) {c : Char} {w r : Text} (hc : isWordStart c = true)
    (hw : ∀ d ∈ w, isWordPart d = true) (hr : startsWithWordChar r = false) :
    recaseFrom o false (c :: (w ++ r)) =
      (o.styleFor (c :: w)).apply (c :: w) ++ recaseFrom o true r := by
  have hstop : r.takeWhile isWordPart = [] ∧ r.dropWhile isWordPart = r := by
    cases r with
    | nil => simp
    | cons d r =>
      have hd : isWordPart d = false := isWordPart_of_isWordChar hr
      simp [hd]
  have htake : (w ++ r).takeWhile isWordPart = w := by
    rw [List.takeWhile_append_of_pos hw, hstop.1, List.append_nil]
  have hdrop : (w ++ r).dropWhile isWordPart = r := by
    rw [List.dropWhile_append_of_pos hw, hstop.2]
  rw [recaseFrom_word o hc (by rw [hdrop, hr]), htake, hdrop]

/-- A text does not begin with a word. -/
theorem recaseFrom_other (o : Options) {inWord : Bool} {c : Char} {r : Text}
    (h : (!inWord && isWordStart c && !startsWithWordChar (r.dropWhile isWordPart)) = false) :
    recaseFrom o inWord (c :: r) = c :: recaseFrom o (Text.isWordChar c) r := by
  rw [recaseFrom, if_neg (by simp only [h, Bool.false_eq_true, not_false_iff])]

/-- The characters of a word continue a word. -/
theorem isWordPart_of_mem_word {c : Char} {r : Text} (hc : isWordStart c = true) :
    ∀ d ∈ c :: r.takeWhile isWordPart, isWordPart d = true := by
  rw [List.forall_mem_cons]
  exact ⟨isWordPart_of_isWordStart hc, fun d hd => List.mem_takeWhile_imp hd⟩

/-- Words are ASCII texts. -/
theorem ascii_word {c : Char} {r : Text} (hc : isWordStart c = true) :
    ∀ d ∈ c :: r.takeWhile isWordPart, d.toNat < 128 :=
  fun d hd => toNat_lt_of_isWordPart (isWordPart_of_mem_word hc d hd)

/-- Recasing keeps a text up to the case of its ASCII letters. -/
theorem map_toLower_recaseFrom (o : Options) (inWord : Bool) (s : Text) :
    (recaseFrom o inWord s).map Char.toLower = s.map Char.toLower := by
  fun_induction recaseFrom o inWord s with
  | case1 => rfl
  | case2 inWord c r hcond word ih =>
    simp only [Bool.and_eq_true] at hcond
    rw [List.map_append, ih, CaseStyle.map_toLower_apply (ascii_word hcond.1.2), ← List.map_append]
    simp
  | case3 inWord c r hcond ih => rw [List.map_cons, ih, List.map_cons]

/-- Recasing keeps a text up to the case of its ASCII letters, and so its length, its blanks and its
punctuation too. -/
theorem map_toLower_recaseWords (o : Options) (s : Text) :
    (recaseWords o s).map Char.toLower = s.map Char.toLower :=
  map_toLower_recaseFrom o false s

/-- Nothing behind a stop is looked at when a run of word characters is read in front of it. -/
theorem startsWithWordChar_append_stop (x y : Text) {c : Char} (hc : c ∈ stops) :
    startsWithWordChar ((x ++ c :: y).dropWhile isWordPart) =
      startsWithWordChar (x.dropWhile isWordPart) := by
  rw [dropWhile_append_cons_of_neg (isWordPart_of_mem_stops hc)]
  cases x.dropWhile isWordPart with
  | nil => exact isWordChar_of_mem_stops hc
  | cons d x => rfl

/-- A stop parts a text into two that are recased separately. -/
theorem recaseFrom_append_stop (o : Options) (inWord : Bool) (x y : Text) {c : Char}
    (hc : c ∈ stops) :
    recaseFrom o inWord (x ++ c :: y) = recaseFrom o inWord x ++ c :: recaseFrom o false y := by
  -- along the words of `x`; the word that is going on at its end is broken off by the stop
  fun_induction recaseFrom o inWord x with
  | case1 inWord =>
    have hstart := isWordStart_of_isWordChar (isWordChar_of_mem_stops hc)
    rw [List.nil_append, recaseFrom_other o (by simp [hstart]), isWordChar_of_mem_stops hc,
      List.nil_append]
  | case2 inWord d r hcond word ih =>
    simp only [Bool.and_eq_true, Bool.not_eq_true'] at hcond
    obtain ⟨⟨rfl, hd⟩, hr⟩ := hcond
    -- the word ends before the stop
    have hpart := isWordPart_of_mem_stops hc
    rw [List.cons_append, recaseFrom_word o hd (by rw [startsWithWordChar_append_stop _ _ hc, hr]),
      takeWhile_append_cons_of_neg hpart, dropWhile_append_cons_of_neg hpart, ih, List.append_assoc]
  | case3 inWord d r hcond ih =>
    rw [List.cons_append, recaseFrom_other o, ih, List.cons_append]
    rw [startsWithWordChar_append_stop _ _ hc]
    simpa using hcond

/-- A stop parts a text into two that are recased separately.  Blanks, punctuation marks and quotes
are stops. -/
theorem recaseWords_append_stop (o : Options) (x y : Text) {c : Char} (hc : c ∈ stops) :
    recaseWords o (x ++ c :: y) = recaseWords o x ++ c :: recaseWords o y :=
  recaseFrom_append_stop o false x y hc

/-! ### One recasing after another -/

namespace CaseStyle

/-- A word stays a word in any style. -/
theorem isWordPart_apply {w : Text} (h : ∀ c ∈ w, isWordPart c = true) (style : CaseStyle) :
    ∀ c ∈ style.apply w, isWordPart c = true :=
  forall_class_of_map_toLower_eq isWordPart_case
    (map_toLower_apply (fun c hc => toNat_lt_of_isWordPart (h c hc)) style).symm h

/-- The upper-case form of a word does not depend on the style that it is written in. -/
theorem upper_apply {w : Text} (h : ∀ c ∈ w, isWordPart c = true) (style : CaseStyle) :
    Text.upper (style.apply w) = Text.upper w := by
  have hascii : ∀ c ∈ w, c.toNat < 128 := fun c hc => toNat_lt_of_isWordPart (h c hc)
  rw [Text.upper_of_ascii hascii,
    Text.upper_of_ascii fun c hc => toNat_lt_of_isWordPart (isWordPart_apply h style c hc)]
  -- upper case can be taken of the lower-case forms, which agree
  have := congrArg (List.map Char.toUpper) (map_toLower_apply hascii style)
  simpa [Function.comp_def] using this

/-- A later style undoes an earlier one. -/
theorem apply_apply {w : Text} (h : ∀ c ∈ w, isWordPart c = true) (style style' : CaseStyle) :
    style.apply (style'.apply w) = style.apply w := by
  have hascii : ∀ c ∈ w, c.toNat < 128 := fun c hc => toNat_lt_of_isWordPart (h c hc)
  have hascii' : ∀ c ∈ style'.apply w, c.toNat < 128 :=
    fun c hc => toNat_lt_of_isWordPart (isWordPart_apply h style' c hc)
  have hlower := map_toLower_apply hascii style'
  -- both the capital and the small form are those of `w`, and a style is made of the two
  have hupper : (style'.apply w).map Char.toUpper = w.map Char.toUpper := by
    rw [← Text.upper_of_ascii hascii, ← Text.upper_of_ascii hascii', upper_apply h]
  rw [apply_of_ascii hascii' style, apply_of_ascii hascii style]
  cases style with
  | uppercase => exact hupper
  | lowercase => exact hlower
  | capitalize =>
    simp only
    rw [List.map_take, List.map_drop, List.map_take, List.map_drop, hlower, hupper]

end CaseStyle

/-- The style for a word does not depend on the case that it is written in. -/
theorem Options.styleFor_apply (o : Options) {w : Text} (h : ∀ c ∈ w, isWordPart c = true)
    (style : CaseStyle) : o.styleFor (style.apply w) = o.styleFor w := by
  rw [Options.styleFor, Options.styleFor, classify, classify, CaseStyle.upper_apply h]

/-- A later recasing undoes an earlier one.  Both find the same words, since where words begin and
end does not depend on case. -/
theorem recaseFrom_recaseFrom (o o' : Options) (inWord : Bool) (s : Text) :
    recaseFrom o inWord (recaseFrom o' inWord s) = recaseFrom o inWord s := by
  fun_induction recaseFrom o' inWord s with
  | case1 => rfl
  | case2 inWord c r hcond word ih =>
    simp only [Bool.and_eq_true, Bool.not_eq_true'] at hcond
    obtain ⟨⟨rfl, hc⟩, hr⟩ := hcond
    have hpart : ∀ d ∈ word, isWordPart d = true := isWordPart_of_mem_word hc
    have hcase : ((o'.styleFor word).apply word).map Char.toLower = word.map Char.toLower :=
      CaseStyle.map_toLower_apply (ascii_word hc) _
    have hpart' := CaseStyle.isWordPart_apply hpart (o'.styleFor word)
    have hstyle := o.styleFor_apply hpart (o'.styleFor word)
    have happly := CaseStyle.apply_apply hpart (o.styleFor word) (o'.styleFor word)
    have hnone : startsWithWordChar (recaseFrom o' true (r.dropWhile isWordPart)) = false := by
      rw [startsWithWordChar_case (map_toLower_recaseFrom o' true _), hr]
    rw [recaseFrom_word o hc hr]
    -- the recased word is a word again, and what follows it still does not continue it
    cases hw : (o'.styleFor word).apply word with
    | nil => simp [hw, word] at hcase
    | cons d t =>
      rw [hw] at hcase hpart' hstyle happly
      simp only [word, List.map_cons, List.cons.injEq] at hcase
      rw [List.forall_mem_cons] at hpart'
      have hd : isWordStart d = true := by rw [eq_of_toLower_eq isWordStart_case hcase.1, hc]
      rw [List.cons_append, recaseFrom_word_append o hd hpart'.2 hnone, ih, hstyle, happly]
  | case3 inWord c r hcond ih =>
    rw [recaseFrom_other o, ih, recaseFrom_other o]
    · simpa using hcond
    · rw [startsWithWordChar_dropWhile_case (map_toLower_recaseFrom o' _ r)]
      simpa using hcond

/-- A later recasing undoes an earlier one, on a whole text. -/
theorem recaseWords_recaseWords (o o' : Options) (s : Text) :
    recaseWords o (recaseWords o' s) = recaseWords o s :=
  recaseFrom_recaseFrom o o' false s

/-! ### Marked texts -/

/-- A symbol, made small if it is an ASCII letter. -/
def Symbol.fold {α : Type} : Symbol α → Symbol α
  | .char c => .char c.toLower
  | .hit h => .hit h

namespace Marked

variable {α : Type}

/-- A marked text with all ASCII letters small. -/
def fold (m : Marked α) : Marked α := m.map Symbol.fold

@[simp] theorem fold_nil : fold ([] : Marked α) = [] := rfl

@[simp] theorem fold_char (c : Char) (m : Marked α) :
    fold (.char c :: m) = .char c.toLower :: fold m := rfl

@[simp] theorem fold_hit (h : Hit α) (m : Marked α) : fold (.hit h :: m) = .hit h :: fold m := rfl

@[simp] theorem fold_append (m n : Marked α) : fold (m ++ n) = fold m ++ fold n := by
  simp [fold]

/-- A text without hits, with all its ASCII letters small. -/
theorem fold_ofText (s : Text) : fold (ofText s : Marked α) = ofText (s.map Char.toLower) := by
  simp [fold, ofText, Symbol.fold]

/-- Two marked texts that differ in case only are built up alike. -/
@[elab_as_elim] theorem fold_induction {motive : (m n : Marked α) → fold m = fold n → Prop}
    (nil : motive [] [] rfl)
    (char : ∀ c d m n (hcd : c.toLower = d.toLower) (hmn : fold m = fold n), motive m n hmn →
      motive (.char c :: m) (.char d :: n) (by rw [fold_char, fold_char, hcd, hmn]))
    (hit : ∀ h m n (hmn : fold m = fold n), motive m n hmn →
      motive (.hit h :: m) (.hit h :: n) (by rw [fold_hit, fold_hit, hmn]))
    {m n : Marked α} (h : fold m = fold n) : motive m n h := by
  induction m generalizing n with
  | nil =>
    cases n with
    | nil => exact nil
    | cons b n => simp [fold] at h
  | cons a m ih =>
    cases n with
    | nil => simp [fold] at h
    | cons b n =>
      obtain ⟨hab, hmn⟩ : a.fold = b.fold ∧ fold m = fold n := by simpa [fold] using h
      cases a <;> cases b <;>
        simp only [Symbol.fold, Symbol.char.injEq, Symbol.hit.injEq, reduceCtorEq] at hab
      · exact char _ _ m n hab hmn (ih hmn)
      · subst hab
        exact hit _ m n hmn (ih hmn)

/-- What keeps every gap up to case keeps a marked text up to case. -/
theorem fold_mapGaps {f : Text → Text} (hf : ∀ g, (f g).map Char.toLower = g.map Char.toLower)
    (m : Marked α) : fold (mapGaps f m) = fold m := by
  induction m using gap_induction with
  | gap g => rw [mapGaps_ofText, fold_ofText, fold_ofText, hf]
  | hit g h m ih =>
    rw [mapGaps_ofText_append_hit, fold_append, fold_append, fold_hit, fold_hit, fold_ofText,
      fold_ofText, hf, ih]

/-- A text without letters has no other form. -/
theorem eq_ofText_of_fold_eq {x : Text} (hx : ∀ c ∈ x, c.isAlpha = false) {y : Marked α}
    (h : fold y = fold (ofText x)) : y = ofText x := by
  induction x generalizing y with
  | nil => simpa [fold] using h
  | cons c x ih =>
    rw [List.forall_mem_cons] at hx
    rcases y with _ | ⟨⟨d⟩ | ⟨k⟩, y⟩
    · simp at h
    · simp only [ofText_cons, fold_char, List.cons.injEq, Symbol.char.injEq] at h
      rw [(eq_char_iff_of_toLower_eq hx.1 h.1).2 rfl, ofText_cons, ih hx.2 h.2]
    · simp at h

/-- Rows of characters that are no letters do not depend on case. -/
theorem infix_of_fold_eq {m n : Marked α} (h : fold m = fold n) {x : Text}
    (hx : ∀ c ∈ x, c.isAlpha = false) (hm : (ofText x : Marked α) <:+: m) :
    (ofText x : Marked α) <:+: n := by
  obtain ⟨u, v, rfl⟩ := hm
  rw [fold_append, fold_append, eq_comm] at h
  -- the other text is cut where this one is
  obtain ⟨n₁, v', rfl, hn₁, -⟩ := List.map_eq_append_iff.1 h
  obtain ⟨u', y, rfl, -, hy⟩ := List.map_eq_append_iff.1 hn₁
  rw [eq_ofText_of_fold_eq hx hy]
  exact ⟨u', v', rfl⟩

/-- Three underscores in a row do not depend on case. -/
theorem Unfenced.of_fold_eq {m n : Marked α} (hm : Unfenced m) (h : fold m = fold n) :
    Unfenced n := by
  intro hn
  refine hm (infix_of_fold_eq h.symm ?_ hn)
  intro c hc
  simp only [Placeholder.fence, List.mem_cons, List.not_mem_nil, or_false, or_self] at hc
  subst hc
  decide

/-- The gaps of a marked text recased. -/
def recase (o : Options) (m : Marked α) : Marked α := mapGaps (recaseWords o) m

/-- Recasing keeps a marked text up to case. -/
theorem fold_recase (o : Options) (m : Marked α) : fold (recase o m) = fold m :=
  fold_mapGaps (map_toLower_recaseWords o) m

/-- A later recasing of the gaps undoes an earlier one. -/
theorem recase_recase (o o' : Options) (m : Marked α) : recase o (recase o' m) = recase o m := by
  have : recaseWords o ∘ recaseWords o' = recaseWords o := funext (recaseWords_recaseWords o o')
  rw [recase, recase, mapGaps_mapGaps, this, recase]

/-- A stop parts a marked text into two that are recased separately. -/
theorem recase_append_stop (o : Options) (m n : Marked α) {c : Char} (hc : c ∈ stops) :
    recase o (m ++ .char c :: n) = recase o m ++ .char c :: recase o n :=
  mapGaps_append_char (fun x y => recaseWords_append_stop o x y hc) m n

/-- Rewriting gaps and changing hits do not depend on each other. -/
theorem mapGaps_mapHits {β : Type} (f : Text → Text) (g : Hit α → Hit β) (m : Marked α) :
    mapGaps f (mapHits g m) = mapHits g (mapGaps f m) := by
  have hof : ∀ s : Text, mapHits g (ofText s) = ofText s := by
    intro s
    simp [mapHits, ofText, Symbol.mapHit]
  induction m using gap_induction with
  | gap s => rw [hof, mapGaps_ofText, mapGaps_ofText, hof]
  | hit s h m ih =>
    rw [mapHits_append, mapHits_hit, hof, mapGaps_ofText_append_hit, ih, mapGaps_ofText_append_hit,
      mapHits_append, mapHits_hit, hof]

/-- Recasing a text with placeholders is recasing its gaps.  The placeholders are found again, since
the gaps have no three underscores in a row. -/
theorem recase_spell (o : Options) {m : Marked (Literal.Kind × Nat)} (hm : Unfenced m) :
    SqlTidy.recase o (spell Draft.placeholder m) = spell Draft.placeholder (recase o m) := by
  rw [SqlTidy.recase, cut_spell_placeholder hm, joinWith_cut, mapGaps_mapHits, spell_mapHits]
  rfl

end Marked

/-- Recasing a text is recasing the gaps between what looks like a placeholder in it. -/
theorem recase_eq_spell (o : Options) (s : Text) :
    recase o s = (Marked.recase o (Placeholder.cut s).symbols).text := by
  rw [Marked.recase, Marked.text, ← Marked.joinWith_cut, Marked.cut_symbols]
  rfl

end SqlTidy
