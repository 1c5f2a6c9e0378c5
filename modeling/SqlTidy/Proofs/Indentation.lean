import SqlTidy.Proofs.NormalForm
import SqlTidy.Proofs.OpenQuote

/-!
# Indentation of lines

A laid-out text is read line by line.  Line feeds stand between tokens only, so that every line has
its own tokens, and what a line begins with is what the layout pass put before the first of them.
If indentation is made of one character, every line begins with at least as many copies of it as the
parentheses that are open there ask for.  The first line is special: only a token that opens a
clause or a join starts it, and with any other first token it has no indentation, not even the base
indentation.

## Main definitions

* `Layout.Line` — a line: how far it is indented, and what comes after.
* `Layout.Indented o before t n` — what is asked of the indentation of a line.
* `Layout.rows ps` — tokens with their separators, line by line.

## Main results

* `lineFeed_notMem_ready`, `solid_ready` — the text before its layout.
* `Layout.exists_indented_separatorAfter` — the first token of a line is indented.
* `Layout.tokens_ofRow` — the tokens on a line are those that the layout put there.
* `Layout.exists_lines` — a laid-out text is made of indented lines.
* `exists_lines_laidOut` — the same for the formatter.
-/

namespace SqlTidy

/-! ### The text before its layout -/

/-- Whether a text ends in a blank does not depend on case. -/
theorem Token.Solid.of_map_toLower_eq {t u : Token} (ht : t.Solid)
    (h : t.map Char.toLower = u.map Char.toLower) : u.Solid := by
  obtain ⟨x, c, rfl, hc⟩ := ht
  rw [List.map_append, List.map_singleton, eq_comm] at h
  obtain ⟨y, z, rfl, -, hz⟩ := List.map_eq_append_iff.1 h
  obtain ⟨d, rfl, hd⟩ := List.map_eq_singleton_iff.1 hz
  exact ⟨y, d, rfl, by rw [eq_of_toLower_eq isBlank_case hd, hc]⟩

/-- Before its layout, a text is what is left of it after its blanks are collapsed, up to case. -/
theorem map_toLower_ready (o : Options) (s : Text) :
    (ready o s).text.map Char.toLower =
      ((marked s).collapse.spell Draft.placeholder).map Char.toLower := by
  rw [← (Draft.represents_preserve s).collapse.text_eq]
  exact map_toLower_recase o _

/-- No line feed is left before the layout. -/
theorem lineFeed_notMem_ready (o : Options) (s : Text) : '\n' ∉ (ready o s).text := by
  intro h
  have hmem := List.mem_map_of_mem (f := Char.toLower) h
  rw [map_toLower_ready] at hmem
  obtain ⟨c, hc, hcase⟩ := List.mem_map.1 hmem
  obtain rfl : c = '\n' := (eq_char_iff_of_toLower_eq (by decide) hcase).2 rfl
  obtain ⟨a, ha, hca⟩ := List.mem_flatMap.1 hc
  -- a blank that is left is a space, and a placeholder has none
  cases a with
  | char d =>
    obtain rfl := List.mem_singleton.1 hca
    have := Marked.eq_space_of_mem_squeezeFrom rfl ((Marked.collapse_isInfix _).subset ha)
    simp at this
  | hit k =>
    have := isBlank_of_isPlain (Draft.wordlike_placeholder.plain k _ hca)
    cases this

/-- Before its layout, a text that is not blank ends in something else than a blank. -/
theorem solid_ready (o : Options) {s : Text} (hs : Text.isAllBlank s = false) :
    Token.Solid (ready o s).text := by
  -- something is left, since collapsing takes blanks only
  have hne : (marked s).collapse ≠ [] := by
    intro hnil
    have hstrip := Marked.strip_collapse (marked s)
    rw [hnil] at hstrip
    have hblank := Marked.strip_eq_nil_iff.1 hstrip.symm
    rw [← isAllBlank_text_iff fun _ => exists_solid_of_mem_hits, text_marked, hs] at hblank
    cases hblank
  have hsolid : Token.Solid ((marked s).collapse.spell Draft.placeholder) := by
    rw [← List.dropLast_append_getLast hne]
    refine Draft.solid_spell (Marked.isBlank_getLast?_collapse (marked s) _ ?_)
    exact List.getLast?_eq_getLast_of_ne_nil hne
  exact hsolid.of_map_toLower_eq (map_toLower_ready o s).symm

/-- No token ends in a blank before the layout. -/
theorem solid_of_mem_tokens_ready (o : Options) {s : Text} (hs : Text.isAllBlank s = false)
    {t : Token} (ht : t ∈ (ready o s).tokens) : t.Solid := by
  obtain ⟨y, x, hx, hblank⟩ := solid_ready o hs
  have hlast : ∀ c ∈ (ready o s).text.getLast?, Text.isBlank c = false := by
    rw [hx, List.getLast?_concat]
    rintro _ ⟨⟩
    exact hblank
  exact solid_of_mem_tokenize hlast ht

namespace Layout

variable {o : Options} {c : Char} {comments : List Text} {before : List Token} {t : Token}
  {s : Text}

/-! ### Lines -/

/-- A line of a laid-out text. -/
structure Line where
  /-- How many copies of the indentation character it begins with. -/
  indent : Nat
  /-- What comes after them. -/
  body : Text
  deriving DecidableEq, Repr

/-- The text of a line that is indented with the character `c`. -/
def Line.text (c : Char) (l : Line) : Text := List.replicate l.indent c ++ l.body

/-- The tokens on a line. -/
def Line.tokens (l : Line) : List Token := tokenize l.body

/-- What is asked of the indentation `n` of a line that begins with the token `t`, if the tokens
`before` stand on the lines above it. -/
structure Indented (o : Options) (before : List Token) (t : Token) (n : Nat) : Prop where
  /-- The line is indented at least as far as the parentheses around it ask for, unless it is the
  first one and its first token opens neither a clause nor a join. -/
  le : before ≠ [] ∨ opensClause t = true ∨ t.upper ∈ joinWords →
    o.baseIndent + depth before * o.indentSize ≤ n
  /-- Otherwise it is not indented at all. -/
  eq_zero : before = [] → opensClause t = false → t.upper ∉ joinWords → n = 0

/-! ### What a line begins with -/

/-- A margin that is made of one character. -/
theorem margin_eq_replicate (ho : o.indentText = [c]) (k : Nat) :
    o.margin k = List.replicate (o.indentWidth k) c := by
  rw [Options.margin, Text.times_eq_flatten, ho, List.flatten_replicate_singleton]

/-- The width of a level is enough for every line that is at most so deep. -/
theorem indented_indentWidth {k : Nat} (hk : depth before ≤ k)
    (h : before ≠ [] ∨ opensClause t = true ∨ t.upper ∈ joinWords) :
    Indented o before t (o.indentWidth k) where
  le _ := Nat.add_le_add_left (Nat.mul_le_mul_right _ hk) _
  eq_zero hnil hclause hjoin := by
    rcases h with h | h | h
    · exact absurd hnil h
    · simp [hclause] at h
    · exact absurd h hjoin

/-- Of all the reasons to start a deeper line, only a join word works without tokens before it. -/
theorem startsDeeper_nil_iff : StartsDeeper comments [] t ↔ t.upper ∈ joinWords := by
  simp [StartsDeeper, IsFirstItem, SelectPending, lastOpener?]

/-- What stands before the first token. -/
theorem exists_indented_separatorAfter_nil (ho : o.indentText = [c]) (comments : List Text)
    (t : Token) :
    ∃ n, separatorAfter o comments [] t = List.replicate n c ∧ Indented o [] t n := by
  unfold separatorAfter
  by_cases hclause : opensClause t = true
  · rw [if_pos hclause, lineAfter, if_pos rfl, margin_eq_replicate ho]
    exact ⟨_, rfl, indented_indentWidth (Nat.le_refl _) (.inr (.inl hclause))⟩
  · rw [if_neg hclause]
    by_cases hdeeper : StartsDeeper comments [] t
    · rw [if_pos hdeeper, lineAfter, if_pos rfl, margin_eq_replicate ho]
      have hjoin := startsDeeper_nil_iff.1 hdeeper
      exact ⟨_, rfl, indented_indentWidth (Nat.le_succ _) (.inr (.inr hjoin))⟩
    -- the first token of any other kind is written without a margin
    · rw [if_neg hdeeper, if_pos (.inl rfl)]
      refine ⟨0, rfl, fun h => ?_, fun _ _ _ => rfl⟩
      rcases h with h | h | h
      · exact absurd rfl h
      · exact absurd h hclause
      · exact absurd (startsDeeper_nil_iff.2 h) hdeeper

/-- What stands before a later token: a line feed and at least as much as the parentheses ask for,
or a space, or nothing. -/
theorem separatorAfter_cases (hbefore : before ≠ []) (o : Options) (comments : List Text)
    (t : Token) :
    (∃ k, depth before ≤ k ∧ separatorAfter o comments before t = '\n' :: o.margin k) ∨
      separatorAfter o comments before t = [] ∨ separatorAfter o comments before t = [' '] := by
  unfold separatorAfter
  simp only [lineAfter, if_neg hbefore]
  split_ifs with hclause hdeeper
  · exact .inl ⟨_, Nat.le_refl _, rfl⟩
  · exact .inl ⟨_, Nat.le_succ _, rfl⟩
  · exact .inr (.inl rfl)
  · exact .inr (.inr rfl)

/-- Whether a line feed stands right before a token.  Where the text had none before its layout,
there are no other line feeds. -/
def startsLine (q : Text × Token) : Bool := q.1.head? == some '\n'

/-- The first token of a line is indented. -/
theorem exists_indented_separatorAfter (ho : o.indentText = [c]) (comments : List Text) (t : Token)
    (hline : before ≠ [] → startsLine (separatorAfter o comments before t, t) = true) :
    ∃ n, separatorAfter o comments before t =
        (if before = [] then [] else ['\n']) ++ List.replicate n c ∧ Indented o before t n := by
  by_cases hbefore : before = []
  · rw [if_pos hbefore, hbefore]
    exact exists_indented_separatorAfter_nil ho comments t
  · rw [if_neg hbefore]
    rcases separatorAfter_cases hbefore o comments t with ⟨k, hk, heq⟩ | heq | heq
    · rw [heq, margin_eq_replicate ho]
      exact ⟨_, rfl, indented_indentWidth hk (.inl hbefore)⟩
    · simp [startsLine, heq, hbefore] at hline
    · simp [startsLine, heq, hbefore] at hline

/-! ### Rows of tokens -/

/-- The tokens of a text with the separators that the layout pass puts before them. -/
def spaced (o : Options) (comments : List Text) (s : Text) : List (Text × Token) :=
  (Place.separators o comments {} (tokenize s)).zip (tokenize s)

/-- The tokens with separators are the tokens of the text. -/
theorem map_snd_spaced (o : Options) (comments : List Text) (s : Text) :
    (spaced o comments s).map Prod.snd = tokenize s :=
  map_snd_zip_separators o comments {} (tokenize s)

/-- Taking the tokens with separators apart takes the tokens apart. -/
theorem tokenize_eq_of_spaced {ps qs : List (Text × Token)} {e : Text}
    (h : spaced o comments s = ps ++ (e, t) :: qs) :
    tokenize s = ps.map Prod.snd ++ t :: qs.map Prod.snd := by
  rw [← map_snd_spaced o comments, h, List.map_append, List.map_cons]

/-- The separator of a token, told from the tokens before it. -/
theorem separator_of_spaced {ps qs : List (Text × Token)} {e : Text}
    (h : spaced o comments s = ps ++ (e, t) :: qs) :
    e = separatorAfter o comments (ps.map Prod.snd) t := by
  have htokens := tokenize_eq_of_spaced h
  have hfst : Place.separators o comments {} (tokenize s) =
      ps.map Prod.fst ++ e :: qs.map Prod.fst := by
    have := congrArg (List.map Prod.fst) h
    rw [spaced, List.map_fst_zip (by simp)] at this
    simpa using this
  rw [htokens, Place.separators_append, Place.separators_cons] at hfst
  -- the separators before this one are as many as the tokens before it
  obtain ⟨-, hcons⟩ := List.append_inj hfst (by simp)
  rw [← (List.cons.inj hcons).1]
  exact separator_after_eq o comments (complete_getLast?_of_tokenize htokens) t

/-- Tokens with their separators, line by line. -/
def rows (ps : List (Text × Token)) : List (List (Text × Token)) :=
  ps.splitBy fun _ q => !startsLine q

/-- A row begins with a line feed, unless it is the first one, and there is none later in it. -/
theorem exists_cons_of_rows {ps : List (Text × Token)} {above below : List (List (Text × Token))}
    {row : List (Text × Token)} (h : rows ps = above ++ row :: below) :
    ∃ e t rest, row = (e, t) :: rest ∧
      ps = above.flatten ++ (e, t) :: (rest ++ below.flatten) ∧
      (above ≠ [] → startsLine (e, t) = true) ∧ ∀ q ∈ rest, startsLine q = false := by
  obtain ⟨hflatten, hnil, hrow, hchain⟩ := List.splitBy_eq_iff.1 h
  have hmem : row ∈ above ++ row :: below := List.mem_append_right _ List.mem_cons_self
  cases row with
  | nil => exact absurd hmem hnil
  | cons q rest =>
    refine ⟨q.1, q.2, rest, rfl, by simpa using hflatten, ?_, ?_⟩
    · intro habove
      have hlast := (List.isChain_append.1 hchain).2.2 _ (List.getLast?_eq_getLast_of_ne_nil habove)
      obtain ⟨_, _, hbreak⟩ := hlast _ rfl
      simpa using hbreak
    -- whether a token starts a line does not depend on the one before it, so that it holds along
    -- the whole row
    · have : Trans (fun _ q : Text × Token => (!startsLine q) = true)
          (fun _ q => (!startsLine q) = true) (fun _ q => (!startsLine q) = true) := ⟨fun _ h => h⟩
      intro r hr
      simpa using (List.pairwise_cons.1 (hrow _ hmem).pairwise).1 r hr

/-- What the tokens before a row are tells whether it is the first one. -/
theorem map_snd_flatten_eq_nil_iff {ps : List (Text × Token)}
    {above below : List (List (Text × Token))} (h : rows ps = above ++ below) :
    above.flatten.map Prod.snd = [] ↔ above = [] := by
  obtain ⟨-, hnil, -⟩ := List.splitBy_eq_iff.1 h
  rw [List.map_eq_nil_iff, List.flatten_eq_nil_iff]
  constructor
  · intro hall
    cases above with
    | nil => rfl
    | cons a above =>
      have := hall a List.mem_cons_self
      exact absurd (by simp [this]) hnil
  · rintro rfl
    simp

/-! ### From rows to lines -/

/-- The line of a row.  Its indentation is the separator of its first token, but for a line feed. -/
def Line.ofRow : List (Text × Token) → Line
  | [] => ⟨0, []⟩
  | (e, t) :: rest => ⟨e.countP (· != '\n'), t ++ weave rest⟩

section Row

variable {above below : List (List (Text × Token))} {row : List (Text × Token)}

/-- Within a row there is a space before a token, or nothing. -/
theorem eq_nil_or_eq_space_of_mem_rest {ps qs rest : List (Text × Token)} {e : Text}
    (h : spaced o comments s = ps ++ (e, t) :: (rest ++ qs))
    (hrest : ∀ q ∈ rest, startsLine q = false) : ∀ q ∈ rest, q.1 = [] ∨ q.1 = [' '] := by
  rintro ⟨f, u⟩ hq
  obtain ⟨x, y, rfl⟩ := List.append_of_mem hq
  have hsplit : spaced o comments s = (ps ++ (e, t) :: x) ++ (f, u) :: (y ++ qs) := by
    rw [h]
    simp
  have hf := separator_of_spaced hsplit
  have hne : (ps ++ (e, t) :: x).map Prod.snd ≠ [] := by simp
  rcases separatorAfter_cases hne o comments u with ⟨k, -, hk⟩ | hk | hk
  · have := hrest _ hq
    rw [startsLine, hf, hk] at this
    cases this
  · exact .inl (hf.trans hk)
  · exact .inr (hf.trans hk)

/-- The tokens on the line of a row are those of the row. -/
theorem tokens_ofRow (h : rows (spaced o comments s) = above ++ row :: below) :
    (Line.ofRow row).tokens = row.map Prod.snd := by
  obtain ⟨e, t, rest, rfl, hps, -, hrest⟩ := exists_cons_of_rows h
  have hblank := eq_nil_or_eq_space_of_mem_rest hps hrest
  have hchain : ((e, t) :: rest).IsChain (Follows comments) := by
    have hall : (spaced o comments s).IsChain (Follows comments) :=
      isChain_follows_separators o comments {} (tokenize s)
    refine hall.infix ⟨above.flatten, below.flatten, ?_⟩
    rw [hps]
    simp
  -- the indentation is left out
  change tokenize (weave (([], t) :: rest)) = (([], t) :: rest).map Prod.snd
  refine tokenize_weave ?_ ?_ ?_
  · rw [List.forall_mem_cons]
    refine ⟨rfl, fun q hq => ?_⟩
    rcases hblank q hq with hq | hq <;> rw [hq] <;> rfl
  · intro x u y hxy
    have hsplit : tokenize s =
        (above.flatten.map Prod.snd ++ x) ++ u :: (y ++ below.flatten.map Prod.snd) := by
      rw [tokenize_eq_of_spaced hps, List.map_append, ← List.cons_append, List.append_assoc]
      exact congrArg _ (by simpa using congrArg (· ++ below.flatten.map Prod.snd) hxy)
    -- a span that is not closed is the last token of the text, and so of its row
    rcases complete_or_open_of_tokenize hsplit with hcomplete | ⟨hopen, hnil⟩
    · exact .inl hcomplete
    · exact .inr ⟨hopen, (List.append_eq_nil_iff.1 hnil).1⟩
  · rw [List.isChain_cons] at hchain ⊢
    exact ⟨fun q hq => (hchain.1 q hq).1, hchain.2.imp fun _ _ hfollows => hfollows.1⟩

/-- No line feed is left on the line of a row. -/
theorem lineFeed_notMem_text_ofRow (hc : c ≠ '\n') (hs : '\n' ∉ s)
    (h : rows (spaced o comments s) = above ++ row :: below) :
    '\n' ∉ (Line.ofRow row).text c := by
  obtain ⟨e, t, rest, rfl, hps, -, hrest⟩ := exists_cons_of_rows h
  have hblank := eq_nil_or_eq_space_of_mem_rest hps hrest
  have htoken : ∀ q ∈ (e, t) :: rest, '\n' ∉ q.2 := by
    intro q hq hmem
    have hsnd : q.2 ∈ tokenize s := by
      rw [← map_snd_spaced o comments, hps]
      refine List.mem_map_of_mem ?_
      rw [← List.cons_append]
      exact List.mem_append_right _ (List.mem_append_left _ hq)
    exact hs ((infix_of_mem_tokenize hsnd).subset hmem)
  rw [Line.text, Line.ofRow, List.mem_append, List.mem_append, weave, List.mem_flatMap]
  rintro (hmem | hmem | ⟨q, hq, hmem⟩)
  · exact hc (List.eq_of_mem_replicate hmem).symm
  · exact htoken _ List.mem_cons_self hmem
  · rcases List.mem_append.1 hmem with hmem | hmem
    · rcases hblank q hq with hq | hq <;> simp [hq] at hmem
    · exact htoken q (List.mem_cons_of_mem _ hq) hmem

/-- The line of a row is what the row is written as, after a line feed if it is not the first one,
and it is indented as its first token asks for. -/
theorem weave_row (ho : o.indentText = [c]) (hc : c ≠ '\n')
    (h : rows (spaced o comments s) = above ++ row :: below) :
    weave row = (if above = [] then [] else ['\n']) ++ (Line.ofRow row).text c ∧
      ∃ t, (row.map Prod.snd).head? = some t ∧ t <+: (Line.ofRow row).body ∧
        Indented o (above.flatten.map Prod.snd) t (Line.ofRow row).indent := by
  have hfirst := map_snd_flatten_eq_nil_iff h
  obtain ⟨e, t, rest, rfl, hps, hline, -⟩ := exists_cons_of_rows h
  have he := separator_of_spaced hps
  obtain ⟨n, hn, hindented⟩ := exists_indented_separatorAfter ho comments t fun hne => by
    rw [← he]
    exact hline (mt hfirst.2 hne)
  rw [← he] at hn
  simp only [hfirst] at hn
  have hindent : (Line.ofRow ((e, t) :: rest)).indent = n := by
    rw [Line.ofRow, hn]
    split <;> simp [List.countP_replicate, hc]
  refine ⟨?_, t, rfl, List.prefix_append t _, hindent.symm ▸ hindented⟩
  rw [weave_cons, Line.text, hindent, ← List.append_assoc _ (List.replicate n c), ← hn]
  rfl

end Row

/-! ### The lines of a laid-out text -/

/-- Lines that each come after a line feed, but for the first one. -/
theorem splitOn_append_flatten {x : Text} {ys : List Text} (hx : '\n' ∉ x)
    (hys : ∀ y ∈ ys, '\n' ∉ y) :
    (x ++ (ys.map ('\n' :: ·)).flatten).splitOn '\n' = x :: ys := by
  induction ys generalizing x with
  | nil => simpa using List.splitOn_eq_singleton hx
  | cons y ys ih =>
    rw [List.forall_mem_cons] at hys
    rw [List.map_cons, List.flatten_cons, List.cons_append,
      List.splitOn_append_cons_self_of_not_mem hx, ih hys.1 hys.2]

/-- Rows are written one after the other. -/
theorem weave_flatten (rs : List (List (Text × Token))) :
    weave rs.flatten = (rs.map weave).flatten := by
  induction rs with
  | nil => rfl
  | cons r rs ih => rw [List.flatten_cons, weave_append, ih, List.map_cons, List.flatten_cons]

/-- The lines of a laid-out text are those of its rows. -/
theorem splitOn_weave_spaced (ho : o.indentText = [c]) (hc : c ≠ '\n') (hs : '\n' ∉ s)
    (hne : tokenize s ≠ []) :
    (weave (spaced o comments s)).splitOn '\n' =
      ((rows (spaced o comments s)).map Line.ofRow).map (Line.text c) := by
  have hflatten := List.flatten_splitBy (fun _ q => !startsLine q) (spaced o comments s)
  cases hrows : rows (spaced o comments s) with
  | nil =>
    rw [rows, List.splitBy_eq_nil] at hrows
    exact absurd (by rw [← map_snd_spaced o comments, hrows]; rfl) hne
  | cons row rs =>
    have hfirst : rows (spaced o comments s) = [] ++ row :: rs := hrows
    have hweave := (weave_row ho hc hfirst).1
    -- every row but the first begins with a line feed and has no other
    have hlater : ∀ r ∈ rs, weave r = '\n' :: (Line.ofRow r).text c ∧
        '\n' ∉ (Line.ofRow r).text c := by
      intro r hr
      obtain ⟨x, y, rfl⟩ := List.append_of_mem hr
      have hsplit : rows (spaced o comments s) = (row :: x) ++ r :: y := hrows
      exact ⟨(weave_row ho hc hsplit).1, lineFeed_notMem_text_ofRow hc hs hsplit⟩
    have htexts : rs.map weave = (rs.map fun r => (Line.ofRow r).text c).map ('\n' :: ·) := by
      rw [List.map_map]
      exact List.map_congr_left fun r hr => (hlater r hr).1
    rw [← hflatten, ← rows, hrows, weave_flatten, List.map_cons, List.flatten_cons, htexts, hweave,
      if_pos rfl, List.nil_append, splitOn_append_flatten]
    · simp
    · exact lineFeed_notMem_text_ofRow hc hs hfirst
    · rw [List.forall_mem_map]
      exact fun r hr => (hlater r hr).2

/-- A laid-out text is made of indented lines. -/
theorem exists_lines (ho : o.indentText = [c]) (hc : c ≠ '\n') (comments : List Text)
    (hs : '\n' ∉ s) (hne : tokenize s ≠ []) :
    ∃ lines : List Line,
      (weave (spaced o comments s)).splitOn '\n' = lines.map (Line.text c) ∧
      tokenize s = lines.flatMap Line.tokens ∧
      ∀ above l below, lines = above ++ l :: below →
        ∃ t, l.tokens.head? = some t ∧ t <+: l.body ∧
          Indented o (above.flatMap Line.tokens) t l.indent := by
  have htokens : ∀ above below, rows (spaced o comments s) = above ++ below →
      (above.map Line.ofRow).flatMap Line.tokens = above.flatten.map Prod.snd := by
    intro above below h
    rw [List.flatMap_map, List.map_flatten, ← List.flatMap_def]
    refine List.flatMap_congr fun row hrow => ?_
    obtain ⟨x, y, rfl⟩ := List.append_of_mem hrow
    exact tokens_ofRow (h.trans (List.append_assoc _ _ _))
  -- the lines are those of the rows
  refine ⟨(rows (spaced o comments s)).map Line.ofRow, splitOn_weave_spaced ho hc hs hne, ?_, ?_⟩
  · rw [htokens _ [] (List.append_nil _).symm, rows, List.flatten_splitBy, map_snd_spaced]
  · intro above l below h
    obtain ⟨xs, ys, hrows, rfl, hys⟩ := List.map_eq_append_iff.1 h
    obtain ⟨row, zs, rfl, rfl, -⟩ := List.map_eq_cons_iff.1 hys
    rw [htokens xs _ hrows, tokens_ofRow hrows]
    exact (weave_row ho hc hrows).2

end Layout

/-- If indentation is made of one character other than the line feed, then every line of a laid-out
text is indented at least as far as the depth of parentheses before its first token asks for.  Only
the first line need not be: it is not indented unless its first token opens a clause or a join. -/
theorem exists_lines_laidOut {o : Options} {c : Char} (ho : o.indentText = [c]) (hc : c ≠ '\n')
    {s : Text} (hs : Text.isAllBlank s = false) (hfault : (formatReport o s).fault = none) :
    ∃ d lines, laidOut o s = .ok d ∧ (formatReport o s).text = d.restore.text ∧
      d.text.splitOn '\n' = lines.map (Layout.Line.text c) ∧
      d.tokens = lines.flatMap Layout.Line.tokens ∧
      ∀ above l below, lines = above ++ l :: below →
        ∃ t, l.tokens.head? = some t ∧ t <+: l.body ∧
          Layout.Indented o (above.flatMap Layout.Line.tokens) t l.indent := by
  obtain ⟨d, hd⟩ : ∃ d, laidOut o s = .ok d := by
    cases hd : laidOut o s with
    | error e => simp [(formatReport_of_laidOut_error hs hd).2] at hfault
    | ok d => exact ⟨d, rfl⟩
  obtain ⟨text, hlayout, rfl⟩ := Draft.exists_text_of_layout hd
  have htext := Layout.eq_weave_of_layout (fun _ => solid_of_mem_tokens_ready o hs) hlayout
  obtain ⟨lines, hlines, htokens, hindented⟩ :=
    Layout.exists_lines ho hc (ready o s).lineComments (lineFeed_notMem_ready o s)
      (tokenize_ne_nil (solid_ready o hs))
  refine ⟨_, lines, hd, (formatReport_of_laidOut_ok hs hd).1, ?_, htokens, hindented⟩
  rw [← hlines, htext]
  rfl

/-- A parenthesis too many, lines started by a clause, a select list, a comment and a join, and a
string that is not closed. -/
theorem exists_lines_laidOut_hyphens :
    let o : Options := { indentText := ['-'], indentSize := 2, baseIndent := 1 }
    let s := "explain)((select a,(b -- c\n)from t join 'x\ny'), 'z".toList
    Text.isAllBlank s = false ∧ (formatReport o s).fault = none ∧
    (laidOut o s).toOption.map Draft.text = some
      ("explain) ((\n-----SELECT\n-------a,\n-------(b ___COMMENT_0___\n---------)\n".toList ++
        "-----FROM t\n-------JOIN ___STRING_1___), 'z".toList) ∧
    ∃ d lines, laidOut o s = .ok d ∧ (formatReport o s).text = d.restore.text ∧
      d.text.splitOn '\n' = lines.map (Layout.Line.text '-') ∧
      d.tokens = lines.flatMap Layout.Line.tokens ∧
      ∀ above l below, lines = above ++ l :: below →
        ∃ t, l.tokens.head? = some t ∧ t <+: l.body ∧
          Layout.Indented o (above.flatMap Layout.Line.tokens) t l.indent := by
  intro o s
  have hs : Text.isAllBlank s = false := by decide
  have hfault : (formatReport o s).fault = none := by decide +kernel
  exact ⟨hs, hfault, by decide +kernel, exists_lines_laidOut rfl (by decide) hs hfault⟩

/-- The base indentation does not stand before the first line if its first token opens neither a
clause nor a join. -/
theorem first_line_not_indented :
    let o : Options := { baseIndent := 2 }
    let s := "values (1)".toList
    Text.isAllBlank s = false ∧ (formatReport o s).fault = none ∧
    ∃ d, laidOut o s = .ok d ∧
      ¬∀ line ∈ (d.text.splitOn '\n').head?,
        List.replicate (o.baseIndent + Layout.depth [] * o.indentSize) ' ' <+: line := by
  intro o s
  have htext : (laidOut o s).toOption.map Draft.text = some "VALUES (1)".toList := by
    decide +kernel
  refine ⟨by decide, by decide +kernel, ?_⟩
  cases hd : laidOut o s with
  | error e =>
    rw [hd] at htext
    cases htext
  | ok d =>
    rw [hd] at htext
    refine ⟨d, rfl, fun h => ?_⟩
    have hline := h "VALUES (1)".toList (by rw [Option.some.inj htext]; rfl)
    exact absurd hline (by decide)

end SqlTidy
