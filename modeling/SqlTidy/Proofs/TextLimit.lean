import SqlTidy.Proofs.Indentation

/-!
# Texts that are not too long

The copies and the characters of an indentation are counted, and formatting fails if there are too
many of them.  The characters of the other texts that formatting builds are not counted here.  Where
they are, what has to be known is whether a text that was formatted without a fault could be built
at all, and there is no need to follow the layout pass line by line to find out.  What it writes on
the way is part of the text that it ends with, or an indentation that fits.  Before the layout, only
placeholders and the upper case of tokens make a text longer.  So it is enough to look at three
texts: the one with placeholders for its literals, the laid-out one, and the one with the literals
put back.

## Main definitions

* `textsBuilt o s` — the texts that are built while a text is formatted.
* `TextsFit o s` — the three texts that matter are not too long.

## Main results

* `Layout.length_lt_of_mem_trace` — no line that the layout pass writes is longer than what it ends
  with, but for indentation.
* `length_lt_of_mem_textsBuilt` — no text that is built is too long if those three are not.
* `formatReport_outcome` — when formatting fails, and what it does then.
-/

namespace SqlTidy

/-! ### Lengths -/

/-- Copies of a text have its length each. -/
theorem Text.length_times (n : Nat) (s : Text) : (times n s).length = n * s.length := by
  rw [times_eq_flatten, List.length_flatten, List.map_replicate, List.sum_replicate_nat]

/-- An indentation that fits is not too long. -/
theorem Options.length_margin_lt {o : Options} {level : Nat} (h : o.Fits level) :
    (o.margin level).length < 2 ^ 63 := by
  rw [margin, Text.length_times]
  exact (fits_iff.1 h).2

/-- Squeezing makes no text longer, wherever in a run it begins. -/
theorem Text.length_squeezeFrom_le (inRun : Bool) (s : Text) :
    (squeezeFrom inRun s).length ≤ s.length := by
  induction s generalizing inRun with
  | nil => exact Nat.le_refl 0
  | cons c s ih =>
    have htrue := ih true
    have hfalse := ih false
    -- a character is copied, or left out, or becomes a space
    unfold squeezeFrom
    split_ifs <;> simp only [List.length_cons] <;> omega

/-- Trimming makes no text longer. -/
theorem Text.length_trimEnd_le (s : Text) : (trimEnd s).length ≤ s.length := by
  have hsuffix := List.dropWhile_suffix (l := s.reverse) isBlank
  simpa [trimEnd] using hsuffix.length_le

/-- Collapsing blanks makes no text longer. -/
theorem Text.length_trim_squeeze_le (s : Text) : (trim (squeeze s)).length ≤ s.length :=
  calc (trim (squeeze s)).length ≤ (trimStart (squeeze s)).length := length_trimEnd_le _
    _ ≤ (squeeze s).length := (List.dropWhile_suffix isBlank).length_le
    _ ≤ s.length := length_squeezeFrom_le false s

/-- Recasing keeps the length of a text, since it changes ASCII letters only. -/
theorem length_recase (o : Options) (s : Text) : (recase o s).length = s.length := by
  simpa using congrArg List.length (map_toLower_recase o s)

/-- In upper case a character becomes at most three. -/
theorem Text.length_upperChar_le (c : Char) : (upperChar c).length ≤ 3 := by
  have hexpansions : ∀ e ∈ upperExpansions, e.2.length ≤ 3 := by decide
  unfold upperChar recased
  split_ifs
  · exact Nat.le_add_left 1 2
  · split
    · exact Nat.le_add_left 1 2
    · split
      · next ns hns =>
        obtain ⟨l, r, hsplit, -⟩ := List.lookup_eq_some_iff.1 hns
        rw [List.length_map]
        exact hexpansions (c.toNat, ns) (by simp [hsplit])
      · exact Nat.le_add_left 1 2

/-- So a text has at most three times its length. -/
theorem Text.length_upper_le (s : Text) : (upper s).length ≤ 3 * s.length := by
  induction s with
  | nil => exact Nat.le_refl 0
  | cons c s ih =>
    have hc := length_upperChar_le c
    have hcons : upper (c :: s) = upperChar c ++ upper s := rfl
    rw [hcons, List.length_append, List.length_cons]
    omega

/-- The line being written is no longer than the lines that count, if it is one of them. -/
theorem Page.length_current_le {page : Page} (h : page.hasContent = true) :
    page.current.length ≤ page.done.length := by
  rw [done, allLines, if_pos h, Text.joinLines_concat]
  split
  · exact Nat.le_refl _
  · simp only [List.length_append, List.length_cons]
    omega

/-! ### The layout pass -/

namespace Layout

variable {o : Options} {comments : List Text} {p : Place} {page : Page} {t : Token}

/-- After a token, something is written on the line, or the line has just been started. -/
theorem Place.current_put (o : Options) (p : Place) (t : Token) (page : Page) :
    (p.put o t page).hasContent = true ∨
      ∃ k ∈ p.levels t, (p.put o t page).current = o.margin k := by
  unfold Place.put
  -- a comma of a list starts a line behind it, everything else is written last
  cases hrole : role p.clause t with
  | listComma => exact .inr ⟨p.depth + 1, by simp [levels, hrole, Role.level?], rfl⟩
  | openParen => exact .inl (by rw [Role.put, writeOpen_eq, Page.hasContent_write])
  | plain => exact .inl (by rw [Role.put, writePlain_eq, Page.hasContent_write])
  | _ => exact .inl rfl

/-- The states of a trace are those after one token and another, if all levels fit. -/
theorem exists_page_of_mem_trace {ts : List Token} (hfits : ∀ k ∈ p.allLevels comments ts, o.Fits k)
    {q : Token × State} (hq : q ∈ (trace o comments (p.state page) ts).1) :
    ∃ before t rest, ts = before ++ t :: rest ∧
      q.2.page = (p.after comments before).put o t (p.putAll o comments before page) := by
  induction ts generalizing p page with
  | nil => cases hq
  | cons t ts ih =>
    simp only [Place.allLevels, List.mem_append, or_imp, forall_and] at hfits
    rw [trace, step_of_fits hfits.1] at hq
    rcases List.mem_cons.1 hq with rfl | hq
    · exact ⟨[], t, ts, rfl, rfl⟩
    · obtain ⟨before, u, rest, rfl, hpage⟩ := ih hfits.2 hq
      exact ⟨t :: before, u, rest, rfl, hpage⟩

/-- No line that the layout pass writes is too long, and neither are the lines up to there, if the
text that it ends with is not.  What is written on the way is a front part of that text, or an
indentation that was asked for. -/
theorem length_lt_of_mem_trace {ts : List Token} (hts : ∀ t ∈ ts, Token.Solid t) {text : Text}
    (hlayout : layout o comments ts = .ok text) (hlength : text.length < 2 ^ 63)
    {q : Token × State} (hq : q ∈ (trace o comments {} ts).1) :
    q.2.page.current.length < 2 ^ 63 ∧ q.2.page.done.length < 2 ^ 63 := by
  have hfits := fits_of_layout hlayout
  have hstate : ({} : Place).state {} = {} := rfl
  rw [← hstate] at hq
  obtain ⟨before, t, rest, rfl, hpage⟩ := exists_page_of_mem_trace hfits hq
  -- the page shows the tokens so far, and the text goes on from there
  have hbefore : ∀ u ∈ before, Token.Solid u := fun u hu => hts u (List.mem_append_left _ hu)
  have ht : Token.Solid t := hts t (by simp)
  have hshows := ((shows_empty o).putAll comments hbefore).put comments ht
  have htext := eq_weave_of_layout hts hlayout
  rw [Place.separators_append, Place.separators_cons, List.zip_append (by simp), List.zip_cons_cons,
    List.append_cons, weave_append, ← List.nil_append ((Place.separators _ _ _ _).zip _),
    ← hshows.done_eq] at htext
  -- the lines so far are a front part of the text
  have hdone : q.2.page.done.length < 2 ^ 63 := by
    rw [htext, List.length_append] at hlength
    rw [hpage]
    omega
  refine ⟨?_, hdone⟩
  rcases Place.current_put o (Place.after comments {} before) t _ with hcontent | ⟨k, hk, hcurrent⟩
  · exact (Page.length_current_le (hpage ▸ hcontent)).trans_lt hdone
  · -- a line that has just been started is an indentation that was asked for
    rw [hpage, hcurrent]
    refine Options.length_margin_lt (hfits k ?_)
    exact Place.mem_allLevels_iff.2 ⟨before, t, rest, rfl, hk⟩

end Layout

/-! ### The texts that are built -/

/-- The texts that are built one after the other while a text is formatted: with placeholders for
its literals, with its blanks collapsed, and recased; its tokens, and these in upper case; after
every token that is laid out, the line being written and the lines that count up to there; and the
text that comes out. -/
def textsBuilt (o : Options) (s : Text) : List Text :=
  [({ text := s } : Draft).preserve.text, ({ text := s } : Draft).preserve.collapse.text,
    (ready o s).text] ++
  ((ready o s).tokens.flatMap fun t => [t, t.upper]) ++
  ((Layout.trace o (ready o s).lineComments {} (ready o s).tokens).1.flatMap fun q =>
    [q.2.page.current, q.2.page.done]) ++
  [(formatReport o s).text]

/-- The texts at the ends of the passes that can make a text longer have fewer characters than can
be counted. -/
structure TextsFit (o : Options) (s : Text) : Prop where
  /-- With placeholders for its literals.  Its tokens are put in upper case, for which three
  characters of four bytes have room in the place of one; with fewer than `2 ^ 59` characters that
  room can be counted. -/
  preserved : ({ text := s } : Draft).preserve.text.length < 2 ^ 59
  /-- Laid out. -/
  laidOut : ∀ d, laidOut o s = .ok d → d.text.length < 2 ^ 63
  /-- With its literals put back. -/
  restored : ∀ d, SqlTidy.laidOut o s = .ok d → d.restore.text.length < 2 ^ 63

/-- No text that is built is too long, if the texts at the ends of the passes are not.  Collapsing
blanks and recasing make no text longer, and the layout is looked at token by token. -/
theorem length_lt_of_mem_textsBuilt {o : Options} {s : Text} (hs : Text.isAllBlank s = false)
    (hfit : TextsFit o s) {d : Draft} (hd : laidOut o s = .ok d) :
    ∀ x ∈ textsBuilt o s, x.length < 2 ^ 63 := by
  have hcollapse : ({ text := s } : Draft).preserve.collapse.text.length < 2 ^ 59 :=
    (Text.length_trim_squeeze_le _).trans_lt hfit.preserved
  have hready : (ready o s).text.length < 2 ^ 59 := (length_recase o _).trans_lt hcollapse
  have htoken : ∀ t ∈ (ready o s).tokens, t.length < 2 ^ 59 ∧ t.upper.length < 2 ^ 63 := by
    intro t ht
    have hlength := (infix_of_mem_tokenize ht).length_le.trans_lt hready
    have hupper : t.upper.length ≤ 3 * t.length := Text.length_upper_le t
    omega
  obtain ⟨text, hlayout, rfl⟩ := Draft.exists_text_of_layout hd
  have htrace : ∀ q ∈ (Layout.trace o (ready o s).lineComments {} (ready o s).tokens).1,
      q.2.page.current.length < 2 ^ 63 ∧ q.2.page.done.length < 2 ^ 63 := fun q hq =>
    Layout.length_lt_of_mem_trace (fun _ => solid_of_mem_tokens_ready o hs) hlayout
      (hfit.laidOut _ hd) hq
  have hlarge : 2 ^ 59 < 2 ^ 63 := by decide
  intro x hx
  simp only [textsBuilt, List.mem_append, List.mem_cons, List.not_mem_nil, or_false,
    List.mem_flatMap] at hx
  -- before the layout, during it, and after it
  rcases hx with (((rfl | rfl | rfl) | ⟨t, ht, rfl | rfl⟩) | ⟨q, hq, rfl | rfl⟩) | rfl
  · exact hfit.preserved.trans hlarge
  · exact hcollapse.trans hlarge
  · exact hready.trans hlarge
  · exact (htoken x ht).1.trans hlarge
  · exact (htoken t ht).2
  · exact (htrace q hq).1
  · exact (htrace q hq).2
  · rw [(formatReport_of_laidOut_ok hs hd).1]
    exact hfit.restored _ hd

/-! ### Reports -/

/-- Whatever the steps are, a report says that the text was modified if and only if it was. -/
theorem formatWith_modified_iff (steps : List Step) (s : Text) :
    (formatWith steps s).modified = true ↔ (formatWith steps s).text ≠ s := by
  unfold formatWith
  split
  · simp
  · dsimp only
    split <;> simp

/-- Whatever the steps are, a fault leaves the text as it was. -/
theorem formatWith_text_of_fault {steps : List Step} {s : Text}
    (h : (formatWith steps s).fault ≠ none) : (formatWith steps s).text = s := by
  unfold formatWith at h ⊢
  split
  · rfl
  · next hs =>
    rw [if_neg hs] at h
    dsimp only at h ⊢
    split
    · rfl
    · next hfault => simp [hfault] at h

/-- A text that is not blank cannot be formatted if and only if a level is requested that does not
fit. -/
theorem fault_ne_none_iff_requested {o : Options} {s : Text} (hs : Text.isAllBlank s = false) :
    (formatReport o s).fault ≠ none ↔
      ∃ k, Layout.Requested (ready o s).lineComments (ready o s).tokens k ∧ ¬o.Fits k := by
  simp only [← Layout.mem_allLevels_iff_requested, ← exists_laidOut_eq_error_iff]
  -- the layout is the only pass that can fail
  cases h : laidOut o s with
  | error e => simp [(formatReport_of_laidOut_error hs h).2]
  | ok d => simp [(formatReport_of_laidOut_ok hs h).2]

/-- When formatting fails.  It does if the indentation of a requested level has too many copies of
its unit or too many characters, whether or not that indentation would have been dropped again.
Otherwise it does not, as long as the texts can be built at all: if the text with placeholders, the
laid-out text and the text that comes out are not too long, then no text that is built on the way
is.  After a fault the text is as it was, and there is a warning. -/
theorem formatReport_outcome (o : Options) {s : Text} (hs : Text.isAllBlank s = false) :
    ((∃ k, Layout.Requested (ready o s).lineComments (ready o s).tokens k ∧
        2 ^ 63 ≤ (o.baseIndent + k * o.indentSize) * max 1 o.indentText.length) →
      (formatReport o s).fault ≠ none) ∧
    ((∀ k, Layout.Requested (ready o s).lineComments (ready o s).tokens k →
        (o.baseIndent + k * o.indentSize) * max 1 o.indentText.length < 2 ^ 63) →
      TextsFit o s →
      (formatReport o s).fault = none ∧ ∀ x ∈ textsBuilt o s, x.length < 2 ^ 63) ∧
    ((formatReport o s).fault ≠ none →
      (formatReport o s).text = s ∧ (formatReport o s).modified = false ∧ format o s = s ∧
        warning? o s ≠ none) ∧
    ((formatReport o s).fault = none →
      warning? o s = none ∧
        ((formatReport o s).modified = true ↔ (formatReport o s).text ≠ s)) := by
  have hmodified := formatWith_modified_iff (standardSteps o) s
  refine ⟨?_, fun hlevels hfit => ?_, fun hfault => ?_, fun hfault => ⟨?_, hmodified⟩⟩
  · rintro ⟨k, hk, hlarge⟩
    exact (fault_ne_none_iff_requested hs).2 ⟨k, hk, Nat.not_lt.2 hlarge⟩
  · obtain ⟨d, hd⟩ : ∃ d, laidOut o s = .ok d := by
      cases hd : laidOut o s with
      | ok d => exact ⟨d, rfl⟩
      | error e =>
        obtain ⟨k, hk, hfits⟩ := exists_laidOut_eq_error_iff.1 ⟨e, hd⟩
        exact absurd (hlevels k (Layout.mem_allLevels_iff_requested.1 hk)) hfits
    exact ⟨(formatReport_of_laidOut_ok hs hd).2, length_lt_of_mem_textsBuilt hs hfit hd⟩
  · have htext := formatWith_text_of_fault hfault
    refine ⟨htext, ?_, htext, ?_⟩
    · exact Bool.eq_false_iff.2 fun h => hmodified.1 h htext
    · simpa [warning?] using hfault
  · simp [warning?, hfault]

/-- The line after a comment is dropped, since a clause opener starts its own; but its indentation
is asked for, and is too wide for the first options.  It fits for the second ones, and no text is
too long. -/
theorem formatReport_outcome_dropped :
    let wide : Options := { indentSize := 2 ^ 63, indentText := [] }
    let o : Options := { indentSize := 2 ^ 62, indentText := [] }
    let s := "update t -- c\nfrom x".toList
    Text.isAllBlank s = false ∧
    (∃ k, Layout.Requested (ready wide s).lineComments (ready wide s).tokens k ∧
      2 ^ 63 ≤ (wide.baseIndent + k * wide.indentSize) * max 1 wide.indentText.length) ∧
    (formatReport wide s).fault ≠ none ∧ (formatReport wide s).text = s ∧
    (formatReport wide s).modified = false ∧ format wide s = s ∧ warning? wide s ≠ none ∧
    (∀ k, Layout.Requested (ready o s).lineComments (ready o s).tokens k →
      (o.baseIndent + k * o.indentSize) * max 1 o.indentText.length < 2 ^ 63) ∧
    TextsFit o s ∧ (formatReport o s).fault = none ∧ ∀ x ∈ textsBuilt o s, x.length < 2 ^ 63 := by
  intro wide o s
  have hs : Text.isAllBlank s = false := by decide
  obtain ⟨hfails, -, hreport, -⟩ := formatReport_outcome wide hs
  obtain ⟨-, hsucceeds, -, -⟩ := formatReport_outcome o hs
  have hwide : ∃ k ∈ Layout.Place.allLevels (ready wide s).lineComments {} (ready wide s).tokens,
      2 ^ 63 ≤ (wide.baseIndent + k * wide.indentSize) * max 1 wide.indentText.length :=
    ⟨1, by decide +kernel, by decide +kernel⟩
  have hlevels : ∀ k ∈ Layout.Place.allLevels (ready o s).lineComments {} (ready o s).tokens,
      (o.baseIndent + k * o.indentSize) * max 1 o.indentText.length < 2 ^ 63 := by
    decide +kernel
  simp only [Layout.mem_allLevels_iff_requested] at hwide hlevels
  have hlengths : (laidOut o s).toOption.map (fun d => (d.text.length, d.restore.text.length)) =
      some (31, 20) := by
    decide +kernel
  have hfit : TextsFit o s := by
    refine ⟨by decide +kernel, fun d hd => ?_, fun d hd => ?_⟩ <;>
    · rw [hd] at hlengths
      simp only [Except.toOption, Option.map_some, Option.some.injEq, Prod.mk.injEq] at hlengths
      omega
  exact ⟨hs, hwide, hfails hwide, (hreport (hfails hwide)).1, (hreport (hfails hwide)).2.1,
    (hreport (hfails hwide)).2.2.1, (hreport (hfails hwide)).2.2.2, hlevels, hfit,
    hsucceeds hlevels hfit⟩

/-- An indentation can be too long although its number of copies is not too large. -/
theorem fault_of_long_indentation :
    let o : Options := { indentSize := 2 ^ 62, indentText := "ab".toList }
    let s := "select distinct,".toList
    (∀ k, Layout.Requested (ready o s).lineComments (ready o s).tokens k →
      o.baseIndent + k * o.indentSize < 2 ^ 63) ∧
    (formatReport o s).fault = some .indentTooLong := by
  intro o s
  refine ⟨fun k hk => ?_, by decide +kernel⟩
  rw [← Layout.mem_allLevels_iff_requested] at hk
  revert k
  decide +kernel

end SqlTidy
