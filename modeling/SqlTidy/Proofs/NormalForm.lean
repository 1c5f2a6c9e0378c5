import SqlTidy.Proofs.Levels
import SqlTidy.Proofs.TokenForm

/-!
# The normal form of a laid-out text

The layout pass writes the tokens of a text as they are and puts a separator before each.  What the
separator is can be said without the state of the pass: it depends on the token and on the tokens
before it.  As long as indentation is made of blanks, so are the separators, and the laid-out text
has the tokens of the text that it was made from.

## Main definitions

* `Layout.EndsInLineComment comments t` — the token `t` ends in the placeholder of a comment that
  takes the rest of its line.
* `Layout.StartsDeeper comments before t` — the token `t` after the tokens `before` starts a line
  one level deeper than the parentheses around it.
* `Layout.separatorAfter o comments before t` — what stands before the token `t` after the tokens
  `before`.

## Main results

* `Layout.separator_after_eq` — the layout pass puts these separators.
* `run_layout_eq` — a laid-out text is its tokens, each after its separator.
* `tokenize_run_layout` — a laid-out text has the tokens of the text before.
-/

namespace SqlTidy

/-- The whole text is the placeholder of a comment. -/
def Placeholder.IsComment (p : Text) : Prop := readTag .comment p = some p.length

instance (p : Text) : Decidable (Placeholder.IsComment p) := inferInstanceAs (Decidable (_ = _))

/-- The whole text is the placeholder of a comment if it was made as one. -/
theorem Placeholder.isComment_iff {p : Text} :
    IsComment p ↔ ∃ d, IsNumber d ∧ p = make Tag.comment.word d := by
  rw [IsComment, readTag_eq_some_iff]
  constructor
  · rintro ⟨d, r, hd, hp, hlength⟩
    -- the placeholder that is read is as long as the text
    have hr : r = [] := by
      have := congrArg List.length hp
      rw [List.length_append, ← hlength] at this
      exact List.length_eq_zero_iff.1 (by omega)
    exact ⟨d, hd, by rw [hp, hr, List.append_nil]⟩
  · rintro ⟨d, hd, rfl⟩
    exact ⟨d, [], hd, (List.append_nil _).symm, rfl⟩

namespace Layout

/-! ### Separators -/

/-- The token `t` ends in the placeholder of one of the given comments. -/
def EndsInLineComment (comments : List Text) (t : Token) : Prop :=
  ∃ p ∈ comments, Placeholder.IsComment p ∧ p <:+ t

instance (comments : List Text) (t : Token) : Decidable (EndsInLineComment comments t) :=
  inferInstanceAs (Decidable (∃ p ∈ comments, _))

/-- The token `t` starts a line one level deeper than the parentheses around it, if it opens no
clause. -/
def StartsDeeper (comments : List Text) (before : List Token) (t : Token) : Prop :=
  t.upper ∈ joinWords ∨
  (t.upper = "ON".toList ∧ lastOpener? before = some "FROM".toList) ∨
  IsFirstItem before t ∨
  (before.getLast? = some [','] ∧ lastOpener? before = some "SELECT".toList) ∨
  ∃ u ∈ before.getLast?, EndsInLineComment comments u

instance (comments : List Text) (before : List Token) (t : Token) :
    Decidable (StartsDeeper comments before t) :=
  inferInstanceAs (Decidable (_ ∨ _ ∨ _ ∨ _ ∨ _))

/-- The beginning of a line at the given level; the first line needs no line feed.  The margin is
there even if the level is zero, where the base indentation is left. -/
def lineAfter (o : Options) (before : List Token) (level : Nat) : Text :=
  if before = [] then o.margin level else '\n' :: o.margin level

/-- What stands before the token `t` after the tokens `before`. -/
def separatorAfter (o : Options) (comments : List Text) (before : List Token) (t : Token) : Text :=
  if opensClause t then lineAfter o before (depth before)
  else if StartsDeeper comments before t then lineAfter o before (depth before + 1)
  else if before = [] ∨ before.getLast? = some ['('] ∨ t = [')'] ∨ t = [','] ∨ t = [';'] then []
  else [' ']

variable {comments : List Text} {ts : List Token} {t : Token}

/-- What the layout pass looks for at the end of a complete token. -/
theorem endsInComment_iff (ht : t.Complete) :
    endsInComment comments t = true ↔ EndsInLineComment comments t := by
  unfold endsInComment
  constructor
  · intro h
    split at h
    · next p hp =>
      obtain ⟨x, d, r, hd, rfl, hxr, hr⟩ := Placeholder.eq_append_of_trailingComment? hp
      have hnil : r = [] := by
        rcases hr with rfl | rfl
        · rfl
        · -- a complete token does not end in a line feed
          obtain ⟨y, c, hy, hc⟩ := ht.solid
          obtain rfl := (List.cons.inj (List.append_inj' (hy.symm.trans hxr) rfl).2).1
          cases hc
      rw [hnil, List.append_nil] at hxr
      exact ⟨_, List.contains_iff_mem.1 h, Placeholder.isComment_iff.2 ⟨d, hd, rfl⟩, x, hxr.symm⟩
    · cases h
  · rintro ⟨p, hmem, hp, x, rfl⟩
    obtain ⟨d, hd, rfl⟩ := Placeholder.isComment_iff.1 hp
    rw [Placeholder.trailingComment?_append x hd]
    exact List.contains_iff_mem.2 hmem

/-! ### Places -/

/-- When a comma is one of a select list. -/
theorem role_eq_listComma_iff {clause : Clause} :
    role clause t = .listComma ↔ t = [','] ∧ clause.isSelect = true := by
  constructor
  · intro h
    unfold role at h
    split_ifs at h with hopener hcomma
    exact hcomma
  · rintro ⟨rfl, hselect⟩
    unfold role
    rw [if_neg (by decide), if_pos ⟨rfl, hselect⟩]

/-- When a token that opens no clause starts a line. -/
theorem role_eq_join_or_firstItem_iff (ht : opensClause t = false) {clause : Clause} :
    role clause t = .join ∨ role clause t = .firstItem ↔
      t.upper ∈ joinWords ∨ (t.upper = "ON".toList ∧ clause.isFrom = true) ∨
        (clause.isPending = true ∧ t.upper ∉ selectModifiers ∧
          t ≠ ['('] ∧ t ≠ [')'] ∧ t ≠ [',']) := by
  -- these are the roles that start a line, but for the comma of a select list
  have hlevel := @level?_role_eq_some_iff t ht clause 0 1
  by_cases hcomma : t = [','] ∧ clause.isSelect = true
  · rw [role_eq_listComma_iff.2 hcomma]
    obtain ⟨rfl, -⟩ := hcomma
    have hjoin : Token.upper [','] ∉ joinWords := by decide
    have hon : Token.upper [','] ≠ "ON".toList := by decide
    simp only [hjoin, hon, reduceCtorEq, ne_eq, not_true_eq_false, false_and, and_false, or_self]
  · have hrole := fun h => hcomma (role_eq_listComma_iff.1 h)
    simp only [hcomma, or_false, zero_add, and_true] at hlevel
    rw [← hlevel]
    cases h : role clause t with
    | listComma => exact absurd h hrole
    | _ => simp [Role.level?]

/-- How the text before a place ends is what the last token says. -/
structure Place.Ends (ts : List Token) (p : Place) : Prop where
  /-- There is no text if there are no tokens. -/
  start_iff : p.ending = .start ↔ ts = []
  /-- The last token is a comma in a select list. -/
  listComma_iff : p.ending = .listComma ↔
    ts.getLast? = some [','] ∧ lastOpener? ts = some "SELECT".toList
  /-- The last token is an opening parenthesis. -/
  openParen_iff : p.ending = .openParen ↔ ts.getLast? = some ['(']

/-- How the text before a token ends is what the last token says. -/
theorem ends_after (comments : List Text) (hts : ∀ u ∈ ts.getLast?, u.Complete) :
    (Place.after comments {} ts).Ends ts := by
  rcases List.eq_nil_or_concat ts with rfl | ⟨ts, u, rfl⟩
  · rw [Place.after_nil]
    exact ⟨by simp, by simp, by simp⟩
  · rw [List.concat_eq_append] at hts ⊢
    have hu : u.Complete := hts u List.getLast?_concat
    have hreads := reads_after comments ts
    rw [Place.after_append]
    generalize Place.after comments {} ts = p at hreads
    have hending : (p.after comments [u]).ending = Ending.after comments (role p.clause u) u := rfl
    constructor
    · rw [hending]
      simp [Ending.after_ne_start]
    · rw [hending, List.getLast?_concat, lastOpener?_concat, Option.some_inj]
      constructor
      · intro h
        unfold Ending.after at h
        split_ifs at h with hcomment hrole
        obtain ⟨rfl, hselect⟩ := role_eq_listComma_iff.1 hrole
        exact ⟨rfl, hreads.isSelect_iff.1 hselect⟩
      · rintro ⟨rfl, hselect⟩
        have hrole := role_eq_listComma_iff.2 ⟨rfl, hreads.isSelect_iff.2 hselect⟩
        rw [hrole]
        rfl
    · rw [hending, List.getLast?_concat, Option.some_inj]
      constructor
      · intro h
        -- a complete token that ends in a parenthesis is the parenthesis itself
        exact hu.eq_open_of_suffix (Ending.suffix_of_after_eq_openParen h)
      · rintro rfl
        rw [role_open]
        rfl

variable {p : Place}

/-- When a line is started for a token that opens no clause. -/
theorem Place.lineLevel?_eq (ht : opensClause t = false) (p : Place) :
    p.lineLevel? t =
      if (role p.clause t = .join ∨ role p.clause t = .firstItem) ∨
        p.ending = .listComma ∨ p.ending = .lineComment then some (p.depth + 1) else none := by
  unfold Place.lineLevel?
  cases hrole : role p.clause t with
  | opener clause =>
    unfold role at hrole
    rw [if_neg (by simpa [opensClause] using ht)] at hrole
    split_ifs at hrole
  | _ => simp

/-- What the place says about a deeper line is what the tokens before it say. -/
theorem startsDeeper_iff (hreads : p.Reads comments ts) (hends : p.Ends ts)
    (hts : ∀ u ∈ ts.getLast?, u.Complete) (ht : opensClause t = false) :
    StartsDeeper comments ts t ↔
      (role p.clause t = .join ∨ role p.clause t = .firstItem) ∨
        p.ending = .listComma ∨ p.ending = .lineComment := by
  -- the last token is complete, so that the two ways to say that it ends in a comment agree
  have hcomment : ts.getLast?.any (endsInComment comments) = true ↔
      ∃ u ∈ ts.getLast?, EndsInLineComment comments u := by
    rw [Option.any_eq_true]
    exact exists_congr fun u => and_congr_right fun hu => endsInComment_iff (hts u hu)
  have hopener := opensClause_eq_false_iff.1 ht
  rw [role_eq_join_or_firstItem_iff ht, hends.listComma_iff, hreads.lineComment_iff,
    hreads.isFrom_iff, hreads.isPending_iff, hcomment, StartsDeeper, IsFirstItem]
  simp only [hopener, not_false_eq_true, true_and, or_assoc]

/-- The space before a token that goes on with the line. -/
theorem Place.Ends.space_eq (hends : p.Ends ts) (hcomma : p.ending ≠ .listComma)
    (hcomment : p.ending ≠ .lineComment) (t : Token) :
    p.space t =
      if ts = [] ∨ ts.getLast? = some ['('] ∨ t = [')'] ∨ t = [','] ∨ t = [';'] then []
      else [' '] := by
  -- where no line was started, the text ends in a parenthesis or in something else, or is empty
  have hother : p.ending = .other ↔ ¬(ts = [] ∨ ts.getLast? = some ['(']) := by
    rw [← hends.start_iff, ← hends.openParen_iff]
    cases h : p.ending with
    | listComma => exact absurd h hcomma
    | lineComment => exact absurd h hcomment
    | _ => simp
  have hmark : t.isMark = false ∨ t = ['('] ↔ ¬(t = [')'] ∨ t = [','] ∨ t = [';']) := by
    rw [← Bool.not_eq_true, Token.isMark_iff]
    by_cases hopen : t = ['(']
    · simp [hopen]
    · simp [hopen]
  simp only [Place.space, hother, hmark, ← not_or, or_assoc, ite_not]

/-- The layout pass puts the separators that the tokens call for. -/
theorem separator_after_eq (o : Options) (comments : List Text)
    (hts : ∀ u ∈ ts.getLast?, u.Complete) (t : Token) :
    (Place.after comments {} ts).separator o t = separatorAfter o comments ts t := by
  have hreads := reads_after comments ts
  have hends := ends_after comments hts
  generalize Place.after comments {} ts = p at hreads hends
  have hline : ∀ k, (if p.ending = .start then o.margin k else '\n' :: o.margin k) =
      lineAfter o ts k := by
    intro k
    simp only [lineAfter, hends.start_iff]
  -- a token that opens a clause starts a line everywhere; for the others it depends on the place
  cases ht : opensClause t with
  | true =>
    rw [separatorAfter, if_pos ht, ← hline, ← hreads.depth_eq]
    simp only [Place.separator, Place.lineLevel?, role_of_opensClause ht]
  | false =>
    have hiff := startsDeeper_iff hreads hends hts ht
    rw [separatorAfter, if_neg (Bool.eq_false_iff.1 ht), Place.separator, Place.lineLevel?_eq ht]
    by_cases hstarts : StartsDeeper comments ts t
    · rw [if_pos hstarts, if_pos (hiff.1 hstarts), ← hreads.depth_eq]
      exact hline _
    · have hcontinues := mt hiff.2 hstarts
      obtain ⟨-, hending⟩ := not_or.1 hcontinues
      obtain ⟨hcomma, hcomment⟩ := not_or.1 hending
      rw [if_neg hstarts, if_neg hcontinues]
      exact hends.space_eq hcomma hcomment t

/-! ### The layout pass -/

variable {o : Options}

/-- The separator of a token, by the number of tokens before it. -/
theorem Place.separators_eq_mapIdx (o : Options) (comments : List Text) (p : Place)
    (ts : List Token) :
    p.separators o comments ts =
      ts.mapIdx fun i t => (p.after comments (ts.take i)).separator o t := by
  induction ts generalizing p with
  | nil => rfl
  | cons t ts ih =>
    rw [separators_cons, ih, List.mapIdx_cons]
    rfl

/-- Tokens with separators that are given by their numbers. -/
theorem weave_zip_mapIdx (f : Nat → Token → Text) (ts : List Token) :
    weave ((ts.mapIdx f).zip ts) = (ts.mapIdx fun i t => f i t ++ t).flatten := by
  induction ts generalizing f with
  | nil => rfl
  | cons t ts ih =>
    rw [List.mapIdx_cons, List.mapIdx_cons, List.zip_cons_cons, weave_cons, List.flatten_cons, ih,
      List.append_assoc]

/-- The tokens of a text with the separators that they call for. -/
theorem weave_separators_tokenize (o : Options) (comments : List Text) (s : Text) :
    weave ((Place.separators o comments {} (tokenize s)).zip (tokenize s)) =
      ((tokenize s).mapIdx fun i t =>
        separatorAfter o comments ((tokenize s).take i) t ++ t).flatten := by
  have hseparators : Place.separators o comments {} (tokenize s) =
      (tokenize s).mapIdx fun i t => separatorAfter o comments ((tokenize s).take i) t := by
    rw [Place.separators_eq_mapIdx, List.mapIdx_eq_mapIdx_iff]
    intro i hi
    -- all tokens before another one are complete
    have hsplit : tokenize s =
        (tokenize s).take i ++ (tokenize s)[i] :: (tokenize s).drop (i + 1) := by
      rw [← List.drop_eq_getElem_cons hi, List.take_append_drop]
    exact separator_after_eq o comments (complete_getLast?_of_tokenize hsplit) _
  rw [hseparators, weave_zip_mapIdx]

/-- The layout of the tokens of a text, if no indentation is too large. -/
theorem layout_tokenize {s : Text} (hlast : ∀ c ∈ s.getLast?, Text.isBlank c = false)
    (hfits : ∀ k, Requested comments (tokenize s) k → o.Fits k) :
    layout o comments (tokenize s) =
      .ok (weave ((Place.separators o comments {} (tokenize s)).zip (tokenize s))) := by
  cases hlayout : layout o comments (tokenize s) with
  | ok text =>
    rw [eq_weave_of_layout (fun t ht => solid_of_mem_tokenize hlast ht) hlayout]
  | error e =>
    obtain ⟨k, hk, hnot⟩ := exists_layout_eq_error_iff.1 ⟨e, hlayout⟩
    exact absurd (hfits k (mem_allLevels_iff_requested.1 hk)) hnot

end Layout

open Layout

variable {o : Options} {d : Draft}

/-- A draft with the tokens of its text, or with none, is laid out by these tokens. -/
theorem ensureTokens_eq (hd : d.tokens = [] ∨ d.tokens = tokenize d.text) :
    d.ensureTokens = { d with tokens := tokenize d.text } := by
  unfold Draft.ensureTokens
  split_ifs with h
  · rfl
  · have htokens : d.tokens = tokenize d.text := by
      rcases hd with hnil | hd
      · have htext : d.text = [] := by simpa [hnil] using h
        rw [hnil, htext, tokenize_nil]
      · exact hd
    rw [← htokens]

/-- What the layout pass makes of a draft: it writes the tokens with the separators of their places,
and notes the tokens. -/
theorem run_layout (hd : d.tokens = [] ∨ d.tokens = tokenize d.text)
    (hlast : ∀ c ∈ d.text.getLast?, Text.isBlank c = false)
    (hfits : ∀ k, Requested d.lineComments (tokenize d.text) k → o.Fits k) :
    Pass.run o .layout d =
      { draft := { d with
          tokens := tokenize d.text
          text := weave ((Place.separators o d.lineComments {} (tokenize d.text)).zip
            (tokenize d.text)) } } := by
  rw [Pass.run, ensureTokens_eq hd, Draft.layout, layout_tokenize hlast hfits]
  rfl

/-- The layout pass leaves every token as it is and puts the separator before it that the tokens
before it call for, whatever indentation is made of. -/
theorem run_layout_eq (hd : d.tokens = [] ∨ d.tokens = tokenize d.text)
    (hlast : ∀ c ∈ d.text.getLast?, Text.isBlank c = false)
    (hfits : ∀ k, Requested d.lineComments (tokenize d.text) k → o.Fits k) :
    Pass.run o .layout d =
      { draft := { d with
          tokens := tokenize d.text
          text := ((tokenize d.text).mapIdx fun i t =>
            separatorAfter o d.lineComments ((tokenize d.text).take i) t ++ t).flatten } } := by
  rw [run_layout hd hlast hfits, weave_separators_tokenize]

/-- Indentation need not be blank.  One token ends in a comment, and the last one ends in a
parenthesis but is none. -/
theorem run_layout_eq_hyphens :
    let o : Options := { indentText := "-".toList, indentSize := 2, baseIndent := 1 }
    let s := "join select distinct('it''s','x' 'y\\'z'a___COMMENT_0___)from t join u on v;'(".toList
    let d : Draft := { text := s, lineComments := ["___COMMENT_0___".toList] }
    s.getLast? = some '(' ∧
    (∀ k, Requested d.lineComments (tokenize s) k → o.Fits k) ∧
    (Pass.run o .layout d).fault = none ∧
    (Pass.run o .layout d).draft.text =
      "---join\n-select distinct (\n-----'it''s',\n-----'x' 'y\\'z' a___COMMENT_0___\n".toList ++
        "-----)\n-from t\n---join u\n---on v; '(".toList := by
  intro o s d
  have hlast : s.getLast? = some '(' := by decide +kernel
  have hsolid : ∀ c ∈ s.getLast?, Text.isBlank c = false := by
    rw [hlast]
    rintro c ⟨⟩
    rfl
  have hfits : ∀ k, Requested d.lineComments (tokenize s) k → o.Fits k := by
    simp only [← mem_allLevels_iff_requested]
    decide +kernel
  rw [run_layout_eq (.inl rfl) hsolid hfits]
  exact ⟨hlast, hfits, rfl, by decide +kernel⟩

/-- The layout pass changes nothing but the blanks between tokens: a laid-out text has the tokens of
the text before. -/
theorem tokenize_run_layout (ho : Text.isAllBlank o.indentText = true)
    (hd : d.tokens = [] ∨ d.tokens = tokenize d.text)
    (hlast : ∀ c ∈ d.text.getLast?, Text.isBlank c = false)
    (hfits : ∀ k, Requested d.lineComments (tokenize d.text) k → o.Fits k) :
    (Pass.run o .layout d).fault = none ∧
      tokenize (Pass.run o .layout d).draft.text = tokenize d.text := by
  rw [run_layout hd hlast hfits]
  refine ⟨rfl, ?_⟩
  have htokens := map_snd_zip_separators o d.lineComments {} (tokenize d.text)
  have hblank : ∀ p ∈ (Place.separators o d.lineComments {} (tokenize d.text)).zip
      (tokenize d.text), Text.isAllBlank p.1 = true := fun p hp =>
    isAllBlank_of_mem_separators ho p.1 (List.of_mem_zip hp).1
  have hchain := isChain_follows_separators o d.lineComments {} (tokenize d.text)
  conv_rhs => rw [← htokens]
  -- blanks between tokens are skipped when the text is read again
  refine tokenize_weave hblank (fun before t rest h => ?_) (hchain.imp fun _ _ hpq => hpq.1)
  rw [htokens] at h
  exact complete_or_open_of_tokenize h

/-- Two strings side by side, one with an escaped quote, and a string that is not closed, with a
line feed in it and a backslash at its end. -/
theorem tokenize_run_layout_strings :
    let o : Options := { indentText := ['\t'], indentSize := 1 }
    let s := "select'x' 'y\\'z',f(\"a\"\"b\")a___COMMENT_7___ all,from t;\n'it''s \n open\\".toList
    let d : Draft := { text := s, lineComments := ["___COMMENT_7___".toList] }
    s.getLast? = some '\\' ∧
    (∀ k, Requested d.lineComments (tokenize s) k → o.Fits k) ∧
    (Pass.run o .layout d).fault = none ∧ (Pass.run o .layout d).draft.text ≠ s ∧
    tokenize (Pass.run o .layout d).draft.text = tokenize s ∧ (tokenize s).length = 15 := by
  intro o s d
  have hlast : s.getLast? = some '\\' := by decide +kernel
  have hsolid : ∀ c ∈ s.getLast?, Text.isBlank c = false := by
    rw [hlast]
    rintro c ⟨⟩
    rfl
  have hfits : ∀ k, Requested d.lineComments (tokenize s) k → o.Fits k := by
    simp only [← mem_allLevels_iff_requested]
    decide +kernel
  obtain ⟨hfault, htokens⟩ := tokenize_run_layout (o := o) (d := d) rfl (.inl rfl) hsolid hfits
  exact ⟨hlast, hfits, hfault, by decide +kernel, htokens, by decide +kernel⟩

end SqlTidy
