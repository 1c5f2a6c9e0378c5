import SqlTidy.Proofs.Draft

/-!
# Outlines

The layout pass looks at less than the whole of a token.  The case of ASCII letters makes no
difference to it, and of a literal it knows only that there is one and whether it is a line
comment.  What is left is the outline of a token.  Tokens with the same outlines get the same
separators and ask for the same levels of indentation, whatever their literals and the numbers of
their placeholders are.

## Main definitions

* `Layout.Alike` — two tokens that the layout pass does not tell apart.
* `Marked.outline m` — the outline of a marked text.
* `Marked.Known comments t` — the line comments of `t` are known by their placeholders.

## Main results

* `Layout.separators_congr`, `Layout.allLevels_congr` — the layout of tokens that are alike.
* `Marked.endsInComment_spell_iff` — when a token ends in a line comment.
* `Marked.alike_spell` — tokens with the same outline are alike.
-/

namespace SqlTidy

open Literal (Kind)

/-! ### Tokens that are alike -/

namespace Layout

/-- Two tokens that the layout pass does not tell apart. -/
structure Alike (comments comments' : List Text) (t u : Token) : Prop where
  /-- They have the same role in every clause. -/
  role_eq : ∀ clause, role clause t = role clause u
  /-- Both are punctuation marks, or none is. -/
  isMark_eq : t.isMark = u.isMark
  /-- Both end in an opening parenthesis, or none does. -/
  endsOpen_eq : ['('].isSuffixOf t = ['('].isSuffixOf u
  /-- Both end in a line comment, or none does. -/
  endsInComment_eq : endsInComment comments t = endsInComment comments' u

variable {o o' : Options} {comments comments' : List Text} {t u : Token}

/-- An opening parenthesis is alike to nothing else, since its role is its own. -/
theorem Alike.eq_open_iff (h : Alike comments comments' t u) : t = ['('] ↔ u = ['('] := by
  constructor
  · rintro rfl
    exact eq_open_of_role ((h.role_eq .other).symm.trans (role_open _))
  · rintro rfl
    exact eq_open_of_role ((h.role_eq .other).trans (role_open _))

/-- Tokens that are alike lead to the same place. -/
theorem Alike.next_eq (h : Alike comments comments' t u) (p : Place) :
    p.next comments t = p.next comments' u := by
  simp only [Place.next, Ending.after, h.role_eq, h.endsOpen_eq, h.endsInComment_eq]

/-- Tokens that are alike get the same separator, if the margins are the same. -/
theorem Alike.separator_eq (h : Alike comments comments' t u) (ho : o.margin = o'.margin)
    (p : Place) : p.separator o t = p.separator o' u := by
  simp only [Place.separator, Place.lineLevel?, Place.space, h.role_eq, h.isMark_eq, h.eq_open_iff,
    ho]

/-- Tokens that are alike ask for the same levels. -/
theorem Alike.levels_eq (h : Alike comments comments' t u) (p : Place) :
    p.levels t = p.levels u := by
  simp only [Place.levels, h.role_eq]

/-- Tokens that are alike get the same separators. -/
theorem separators_congr {ts us : List Token} (h : List.Forall₂ (Alike comments comments') ts us)
    (ho : o.margin = o'.margin) (p : Place) :
    p.separators o comments ts = p.separators o' comments' us := by
  induction h generalizing p with
  | nil => rfl
  | cons htu _ ih =>
    rw [Place.separators_cons, Place.separators_cons, htu.separator_eq ho, htu.next_eq, ih]

/-- Tokens that are alike ask for the same levels. -/
theorem allLevels_congr {ts us : List Token} (h : List.Forall₂ (Alike comments comments') ts us)
    (p : Place) : p.allLevels comments ts = p.allLevels comments' us := by
  induction h generalizing p with
  | nil => rfl
  | cons htu _ ih => rw [Place.allLevels, Place.allLevels, htu.levels_eq, htu.next_eq, ih]

/-! ### Roles -/

/-- The upper-case form of an ASCII letter does not depend on its case. -/
theorem upperChar_case :
    ∀ n ∈ List.range' 65 26,
      Text.upperChar (Char.ofNat n).toLower = Text.upperChar (Char.ofNat n) := by
  decide

/-- The upper-case form of a text does not depend on the case of its ASCII letters. -/
theorem upper_eq_of_map_toLower_eq {x y : Text} (h : x.map Char.toLower = y.map Char.toLower) :
    Text.upper x = Text.upper y := by
  induction x generalizing y with
  | nil => rw [List.map_eq_nil_iff.1 h.symm]
  | cons c x ih =>
    cases y with
    | nil => simp at h
    | cons d y =>
      obtain ⟨hcd, hxy⟩ := List.cons.inj h
      have hchar := eq_of_toLower_eq upperChar_case hcd
      simp only [Text.upper, List.flatMap_cons] at ih ⊢
      rw [hchar, ih hxy]

/-- A text without letters is known by its small form. -/
theorem eq_iff_of_map_toLower_eq {e : Text} (he : ∀ c ∈ e, c.isAlpha = false) {x y : Text}
    (h : x.map Char.toLower = y.map Char.toLower) : x = e ↔ y = e := by
  -- letter by letter, in one direction; the other is the same
  have key : ∀ {x y : Text}, x.map Char.toLower = y.map Char.toLower → x = e → y = e := by
    intro x y h hx
    induction e generalizing x y with
    | nil => simpa [hx] using h
    | cons c e ih =>
      obtain ⟨hc, he⟩ := List.forall_mem_cons.1 he
      subst hx
      cases y with
      | nil => simp at h
      | cons d y =>
        obtain ⟨hcd, hxy⟩ := List.cons.inj h
        rw [(eq_char_iff_of_toLower_eq hc hcd).1 rfl, ih he hxy rfl]
  exact ⟨key h, key h.symm⟩

/-- The role of a token does not depend on case: words are compared in their upper-case forms, and
marks are no letters. -/
theorem role_eq_of_map_toLower_eq {x y : Text} (h : x.map Char.toLower = y.map Char.toLower)
    (clause : Clause) : role clause x = role clause y := by
  have hmark : ∀ c : Char, c.isAlpha = false → (x = [c] ↔ y = [c]) := fun c hc =>
    eq_iff_of_map_toLower_eq (by simpa using hc) h
  have hupper : Token.upper x = Token.upper y := upper_eq_of_map_toLower_eq h
  unfold role
  rw [hupper]
  simp only [hmark ',' rfl, hmark '(' rfl, hmark ')' rfl]

/-- No word that governs the layout has an underscore. -/
theorem upper_ne_of_mem_underscore {t : Token} (ht : '_' ∈ t) {w : Text} (hw : '_' ∉ w) :
    t.upper ≠ w := by
  intro h
  refine hw (h ▸ ?_)
  exact List.mem_flatMap.2 ⟨'_', ht, by decide⟩

/-- A token with an underscore is an item or goes on with the line. -/
theorem role_of_mem_underscore {t : Token} (ht : '_' ∈ t) (clause : Clause) :
    role clause t = if clause.isPending then .firstItem else .plain := by
  -- none of the words that the roles depend on has an underscore, and no mark is one
  have hword : ∀ l : List Text, (∀ w ∈ l, '_' ∉ w) → l.contains t.upper = false := by
    intro l hl
    rw [List.contains_eq_mem, decide_eq_false_iff_not]
    exact fun h => upper_ne_of_mem_underscore ht (hl _ h) rfl
  have hmark : ∀ c : Char, c ≠ '_' → t ≠ [c] := by
    rintro c hc rfl
    exact hc (List.mem_singleton.1 ht).symm
  have hon := upper_ne_of_mem_underscore ht (w := "ON".toList) (by decide)
  simp only [role, hword clauseOpeners (by decide), hword joinWords (by decide),
    hword selectModifiers (by decide), hmark ',' (by decide), hmark '(' (by decide),
    hmark ')' (by decide), hon, Bool.false_eq_true, if_false, false_and, or_self, Bool.not_false,
    and_true]

end Layout

/-! ### Outlines -/

/-- A symbol as the layout pass sees it: letters are small, and of a hit it is left whether it is a
line comment. -/
def Symbol.outline : Symbol (Kind × Nat) → Symbol Bool
  | .char c => .char c.toLower
  | .hit h => .hit ⟨h.isLine, []⟩

namespace Marked

variable {m n t u : Marked (Kind × Nat)} {comments comments' : List Text}

/-- A marked text as the layout pass sees it. -/
def outline (m : Marked (Kind × Nat)) : Marked Bool := m.map Symbol.outline

@[simp] theorem outline_char (c : Char) (m : Marked (Kind × Nat)) :
    outline (.char c :: m) = .char c.toLower :: outline m := rfl

@[simp] theorem outline_hit (h : Hit (Kind × Nat)) (m : Marked (Kind × Nat)) :
    outline (.hit h :: m) = .hit ⟨h.isLine, []⟩ :: outline m := rfl

/-- The outline does not depend on case. -/
theorem outline_fold (m : Marked (Kind × Nat)) : outline (fold m) = outline m := by
  induction m with
  | nil => rfl
  | cons a m ih =>
    cases a with
    | char c => rw [fold_char, outline_char, outline_char, ih, Char.toLower_toLower_eq_toLower]
    | hit h => rw [fold_hit, outline_hit, outline_hit, ih]

/-- Marked texts with the same outline are built up alike. -/
@[elab_as_elim] theorem outline_induction
    {motive : (m n : Marked (Kind × Nat)) → outline m = outline n → Prop}
    (nil : motive [] [] rfl)
    (char : ∀ c d m n (hcd : c.toLower = d.toLower) (hmn : outline m = outline n),
      motive m n hmn →
        motive (.char c :: m) (.char d :: n) (by rw [outline_char, outline_char, hcd, hmn]))
    (hit : ∀ h k m n (hhk : h.isLine = k.isLine) (hmn : outline m = outline n),
      motive m n hmn →
        motive (.hit h :: m) (.hit k :: n) (by rw [outline_hit, outline_hit, hhk, hmn]))
    {m n : Marked (Kind × Nat)} (h : outline m = outline n) : motive m n h := by
  induction m generalizing n with
  | nil =>
    cases n with
    | nil => exact nil
    | cons b n => simp [outline] at h
  | cons a m ih =>
    cases n with
    | nil => simp [outline] at h
    | cons b n =>
      obtain ⟨hab, hmn⟩ : a.outline = b.outline ∧ outline m = outline n := by
        simpa [outline] using h
      -- the first symbols are of the same sort, since their outlines are
      cases a <;> cases b <;>
        simp only [Symbol.outline, Symbol.char.injEq, Symbol.hit.injEq, Hit.mk.injEq, and_true,
          reduceCtorEq] at hab
      · exact char _ _ m n hab hmn (ih hmn)
      · exact hit _ _ m n hab hmn (ih hmn)

/-- With the same outline, either both are texts that differ in case only, or both have a hit. -/
theorem ofText_or_hit_of_outline_eq (h : outline t = outline u) :
    (∃ x y, t = ofText x ∧ u = ofText y ∧ x.map Char.toLower = y.map Char.toLower) ∨
      (∃ k, .hit k ∈ t) ∧ ∃ k, .hit k ∈ u := by
  induction h using outline_induction with
  | nil => exact .inl ⟨[], [], rfl, rfl, rfl⟩
  | char c d m n hcd _ ih =>
    rcases ih with ⟨x, y, rfl, rfl, hxy⟩ | ⟨⟨k, hk⟩, k', hk'⟩
    · exact .inl ⟨c :: x, d :: y, rfl, rfl, by simp [hcd, hxy]⟩
    · exact .inr ⟨⟨k, List.mem_cons_of_mem _ hk⟩, k', List.mem_cons_of_mem _ hk'⟩
  | hit h k m n _ _ _ => exact .inr ⟨⟨h, List.mem_cons_self⟩, k, List.mem_cons_self⟩

/-- The last symbols have the same outline, too. -/
theorem exists_getLast?_of_outline_eq (h : outline t = outline u) {a : Symbol (Kind × Nat)}
    (ha : t.getLast? = some a) : ∃ b, u.getLast? = some b ∧ a.outline = b.outline := by
  have hlast : u.getLast?.map Symbol.outline = some a.outline := by
    rw [← List.getLast?_map, show u.map Symbol.outline = t.map Symbol.outline from h.symm,
      List.getLast?_map, ha]
    rfl
  obtain ⟨b, hb, hab⟩ := Option.map_eq_some_iff.1 hlast
  exact ⟨b, hb, hab.symm⟩

/-! ### Tokens and their outlines -/

/-- A token with a hit is written with an underscore. -/
theorem underscore_mem_spell {k : Hit (Kind × Nat)} (hk : .hit k ∈ t) :
    '_' ∈ spell Draft.placeholder t := by
  refine List.mem_flatMap.2 ⟨_, hk, ?_⟩
  have hmake : Draft.placeholder k = _ := Placeholder.make_eq _ _
  rw [Symbol.spell, hmake]
  exact List.mem_cons_self

/-- Tokens with the same outline have the same roles. -/
theorem role_spell_eq (h : outline t = outline u) (clause : Clause) :
    role clause (spell Draft.placeholder t) = role clause (spell Draft.placeholder u) := by
  -- either both have a hit, and so an underscore, or they differ in case only
  rcases ofText_or_hit_of_outline_eq h with ⟨x, y, rfl, rfl, hxy⟩ | ⟨⟨k, hk⟩, k', hk'⟩
  · rw [spell_ofText, spell_ofText]
    exact Layout.role_eq_of_map_toLower_eq hxy clause
  · rw [Layout.role_of_mem_underscore (underscore_mem_spell hk),
      Layout.role_of_mem_underscore (underscore_mem_spell hk')]

/-- Tokens with the same outline are both punctuation marks, if one is. -/
theorem isMark_spell_of_outline_eq (h : outline t = outline u)
    (ht : Token.isMark (spell Draft.placeholder t) = true) :
    Token.isMark (spell Draft.placeholder u) = true := by
  obtain ⟨c, hc, rfl⟩ := Draft.isMark_of_isMark_spell ht
  rcases ofText_or_hit_of_outline_eq h with ⟨x, y, hx, rfl, hxy⟩ | ⟨⟨k, hk⟩, -⟩
  · have hletter := isAlpha_of_isPlain (isPlain_of_isPunctuation hc)
    have hx : x = [c] := by simpa using congrArg (spell Draft.placeholder) hx.symm
    rw [spell_ofText, (Layout.eq_iff_of_map_toLower_eq (by simpa using hletter) hxy).1 hx]
    exact hc
  · simp at hk

/-- Tokens with the same outline both end in a parenthesis, if one does. -/
theorem suffix_spell_of_outline_eq (h : outline t = outline u)
    (ht : ['('] <:+ spell Draft.placeholder t) : ['('] <:+ spell Draft.placeholder u := by
  obtain ⟨b, hb, hab⟩ := exists_getLast?_of_outline_eq h (Draft.getLast?_of_suffix_spell ht)
  cases b with
  | hit k => simp [Symbol.outline] at hab
  | char d =>
    have hd : '('.toLower = d.toLower := by simpa [Symbol.outline] using hab
    obtain ⟨x, rfl⟩ := List.getLast?_eq_some_iff.1 hb
    rw [(eq_char_iff_of_toLower_eq (e := '(') (by decide) hd).1 rfl]
    exact ⟨spell Draft.placeholder x, by simp⟩

/-- A token whose line comments are known by their placeholders. -/
structure Known (comments : List Text) (t : Marked (Kind × Nat)) : Prop where
  /-- Nothing in a gap looks like a placeholder. -/
  unfenced : Unfenced t
  /-- The token does not end in a blank. -/
  solid : ∀ a ∈ t.getLast?, Symbol.isBlank a = false
  /-- The placeholders of its line comments are known, and no other. -/
  mem_comments_iff : ∀ h ∈ t.hits, Draft.placeholder h ∈ comments ↔ h.isLine = true

/-- Where one underscore or two follow something else, no hit reaches into them. -/
theorem exists_eq_concat_underscore {e : Char} (he : e ≠ '_') {z w : Text}
    (hw : w = [] ∨ w = ['_']) (h : spell Draft.placeholder t = z ++ e :: w ++ ['_']) :
    ∃ u, t = u ++ [.char '_'] ∧ spell Draft.placeholder u = z ++ e :: w := by
  rcases List.eq_nil_or_concat t with rfl | ⟨u, a, rfl⟩
  · simp at h
  · rw [List.concat_eq_append] at h ⊢
    cases a with
    | char c =>
      rw [spell_append, spell_char, spell_nil] at h
      obtain ⟨hu, hc⟩ := List.append_inj' h rfl
      obtain rfl : c = '_' := by simpa using hc
      exact ⟨u, rfl, hu⟩
    | hit k =>
      -- a placeholder ends in three underscores
      obtain ⟨y, hy⟩ : ∃ y, Draft.placeholder k = y ++ ['_', '_', '_'] := ⟨_, rfl⟩
      rw [spell_append, spell_hit, spell_nil, List.append_nil, hy, ← List.append_assoc] at h
      refine absurd ?_ he
      rcases hw with rfl | rfl
      · have h : (spell Draft.placeholder u ++ y ++ ['_']) ++ ['_', '_'] = z ++ [e, '_'] := by
          simpa using h
        simpa using (List.append_inj' h rfl).2.symm
      · have h : (spell Draft.placeholder u ++ y) ++ ['_', '_', '_'] = z ++ [e, '_', '_'] := by
          simpa using h
        simpa using (List.append_inj' h rfl).2.symm

/-- A token that ends in a character of a gap does not end in a placeholder. -/
theorem spell_concat_char_ne {c : Char} (ht : Unfenced (t ++ [.char c])) (tag : Placeholder.Tag)
    {d : Text} (hd : Placeholder.IsNumber d) (x : Text) :
    spell Draft.placeholder (t ++ [.char c]) ≠ x ++ Placeholder.make tag.word d := by
  intro h
  obtain ⟨y, e, hmake, he⟩ := Placeholder.exists_make_eq_append tag hd
  have hlast : spell Draft.placeholder t ++ [c] = (x ++ y ++ e :: ['_', '_']) ++ ['_'] := by
    simpa [hmake] using h
  obtain ⟨ht₀, hc⟩ := List.append_inj' hlast rfl
  obtain rfl : c = '_' := by simpa using hc
  -- the three underscores of the placeholder would be three underscores of a gap
  obtain ⟨t₁, rfl, ht₁⟩ := exists_eq_concat_underscore (z := x ++ y) (w := ['_']) he (.inr rfl)
    (by simpa using ht₀)
  obtain ⟨t₂, rfl, -⟩ := exists_eq_concat_underscore (z := x ++ y) (w := []) he (.inl rfl)
    (by simpa using ht₁)
  exact ht ⟨t₂, [], by simp [ofText, Placeholder.fence]⟩

/-- A token that ends in a hit ends in no placeholder but that of the hit. -/
theorem placeholder_eq_of_spell_concat_eq {k : Hit (Kind × Nat)} {tag : Placeholder.Tag}
    {d x : Text} (hd : Placeholder.IsNumber d)
    (h : spell Draft.placeholder (t ++ [.hit k]) = x ++ Placeholder.make tag.word d) :
    Draft.placeholder k = Placeholder.make tag.word d := by
  have hnumber := Placeholder.isNumber_ofNat k.tag.2
  rw [spell_append, spell_hit, spell_nil, List.append_nil] at h
  rcases List.append_eq_append_iff.1 h with ⟨y, -, hy⟩ | ⟨y, -, hy⟩
  · rw [Placeholder.eq_nil_of_make_eq_append hnumber hd hy] at hy
    exact hy
  · rw [Placeholder.eq_nil_of_make_eq_append hd hnumber hy] at hy
    exact hy.symm

/-- A token ends in a line comment if and only if its last symbol is one. -/
theorem endsInComment_spell_iff (ht : Known comments t) :
    Layout.endsInComment comments (spell Draft.placeholder t) = true ↔
      ∃ h, t.getLast? = some (.hit h) ∧ h.isLine = true := by
  constructor
  · intro hends
    unfold Layout.endsInComment at hends
    split at hends
    · next p hp =>
      obtain ⟨x, d, r, hd, rfl, hspell, hr⟩ := Placeholder.eq_append_of_trailingComment? hp
      have hne : t ≠ [] := by
        rintro rfl
        simp [Placeholder.make_eq] at hspell
      obtain ⟨t, a, rfl⟩ := (List.eq_nil_or_concat t).resolve_left hne
      rw [List.concat_eq_append] at ht hspell ⊢
      have hr : r = [] := by
        refine hr.resolve_right ?_
        rintro rfl
        -- no blank comes last
        obtain ⟨y, c, hyc, hc⟩ := Draft.solid_spell (x := t) (ht.solid a (by simp))
        rw [hyc] at hspell
        cases (List.append_inj' hspell rfl).2
        cases hc
      rw [hr, List.append_nil] at hspell
      cases a with
      | char c => exact absurd hspell (spell_concat_char_ne ht.unfenced _ hd x)
      | hit k =>
        have hk := placeholder_eq_of_spell_concat_eq hd hspell
        refine ⟨k, by simp, (ht.mem_comments_iff k (mem_hits_iff.2 (by simp))).1 ?_⟩
        rw [hk]
        simpa using hends
    · cases hends
  · rintro ⟨h, hlast, hline⟩
    have hmem := mem_hits_iff.2 (List.mem_of_getLast? hlast)
    exact Draft.endsInComment_spell hlast hline ((ht.mem_comments_iff h hmem).2 hline)

/-- Tokens with the same outline both end in a line comment, if one does. -/
theorem endsInComment_spell_of_outline_eq (ht : Known comments t) (hu : Known comments' u)
    (h : outline t = outline u)
    (hends : Layout.endsInComment comments (spell Draft.placeholder t) = true) :
    Layout.endsInComment comments' (spell Draft.placeholder u) = true := by
  obtain ⟨k, hk, hline⟩ := (endsInComment_spell_iff ht).1 hends
  obtain ⟨b, hb, hab⟩ := exists_getLast?_of_outline_eq h hk
  cases b with
  | char d => simp [Symbol.outline] at hab
  | hit k' =>
    have hline' : k.isLine = k'.isLine := by simpa [Symbol.outline] using hab
    exact (endsInComment_spell_iff hu).2 ⟨k', hb, hline' ▸ hline⟩

/-- Tokens with the same outline are alike. -/
theorem alike_spell (ht : Known comments t) (hu : Known comments' u) (h : outline t = outline u) :
    Layout.Alike comments comments' (spell Draft.placeholder t) (spell Draft.placeholder u) where
  role_eq := role_spell_eq h
  isMark_eq := Bool.eq_iff_iff.2
    ⟨isMark_spell_of_outline_eq h, isMark_spell_of_outline_eq h.symm⟩
  endsOpen_eq := by
    rw [Bool.eq_iff_iff, List.isSuffixOf_iff_suffix, List.isSuffixOf_iff_suffix]
    exact ⟨suffix_spell_of_outline_eq h, suffix_spell_of_outline_eq h.symm⟩
  endsInComment_eq := Bool.eq_iff_iff.2
    ⟨endsInComment_spell_of_outline_eq ht hu h, endsInComment_spell_of_outline_eq hu ht h.symm⟩

/-- Tokens with the same outlines are alike, one by one. -/
theorem forall₂_alike_spell {ts us : List (Marked (Kind × Nat))} (hts : ∀ t ∈ ts, Known comments t)
    (hus : ∀ u ∈ us, Known comments' u) (h : ts.map outline = us.map outline) :
    List.Forall₂ (Layout.Alike comments comments') (ts.map (spell Draft.placeholder))
      (us.map (spell Draft.placeholder)) := by
  induction ts generalizing us with
  | nil => rw [List.map_eq_nil_iff.1 h.symm]; exact .nil
  | cons t ts ih =>
    cases us with
    | nil => simp at h
    | cons u us =>
      obtain ⟨htu, h⟩ := List.cons.inj h
      obtain ⟨ht, hts⟩ := List.forall_mem_cons.1 hts
      obtain ⟨hu, hus⟩ := List.forall_mem_cons.1 hus
      exact .cons (alike_spell ht hu htu) (ih hts hus h)

end Marked

/-- A draft knows the line comments of its marked text. -/
theorem Draft.Represents.mem_lineComments_iff {d : Draft} {m : Marked (Kind × Nat)}
    (h : d.Represents m) {x : Hit (Kind × Nat)} (hx : x ∈ m.hits) :
    Draft.placeholder x ∈ d.lineComments ↔ x.isLine = true := by
  rw [h.lineComments_eq, List.mem_reverse, List.mem_map]
  constructor
  · rintro ⟨y, hy, hyx⟩
    obtain ⟨hy, hline⟩ := List.mem_filter.1 hy
    rwa [List.inj_on_of_nodup_map h.nodup hy hx hyx] at hline
  · intro hline
    exact ⟨x, List.mem_filter.2 ⟨hx, hline⟩, rfl⟩

/-- The hits of a part are hits of the whole. -/
theorem Marked.hits_subset_of_isInfix {α : Type} {m n : Marked α} (h : m <:+: n) :
    ∀ x ∈ m.hits, x ∈ n.hits :=
  fun _ hx => Marked.mem_hits_iff.2 (h.subset (Marked.mem_hits_iff.1 hx))

/-- The tokens of a text are known before its layout. -/
theorem known_of_mem_tokens (o : Options) {s : Text} (hs : (marked s).Unfenced) :
    ∀ t ∈ ((marked s).collapse.recase o).tokens, Marked.Known (ready o s).lineComments t := by
  intro t ht
  have hfold := Marked.fold_recase o (marked s).collapse
  have hinfix := Marked.infix_of_mem_tokens ht
  refine ⟨(hs.collapse.of_fold_eq hfold.symm).of_isInfix hinfix, ?_, fun x hx => ?_⟩
  -- collapsing has trimmed the end of the text
  · have hlast := Marked.isBlank_getLast?_of_fold_eq hfold.symm (Marked.isBlank_getLast?_collapse _)
    obtain ⟨x, a, rfl, ha⟩ := Marked.exists_concat_of_mem_tokens hlast ht
    simpa using ha
  · exact (tokens_ready o hs).2.mem_lineComments_iff (Marked.hits_subset_of_isInfix hinfix x hx)

end SqlTidy
