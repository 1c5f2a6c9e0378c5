import SqlTidy.Proofs.Absorption
import SqlTidy.Proofs.Levels
import SqlTidy.Proofs.Outline

/-!
# Statements in one text

Two statements that stand in one text on lines of their own are formatted as they would be alone, if
the second begins with a word that opens a clause and the first has closed its parentheses.  The
literals of the text are those of the two, the tokens are those of the two, and the word that opens
the clause starts a line whatever came before.

## Main definitions

* `Hit.shift k h` — the hit `h` with its number raised by `k`.
* `Parted o a b` — `b` is a statement of its own when it follows `a` on a new line.

## Main results

* `Marked.scans_append_newline` — a line feed between two marked texts keeps their literals apart.
* `marked_append_newline`, `tokens_append_newline` — the literals and the tokens of the two.
* `Layout.separators_append_opener` — the separators of the two.
* `format_append_newline` — each statement is formatted as if it were alone.
-/

namespace SqlTidy

open Literal (Kind)

/-! ### Literals -/

namespace Marked

/-- In front of a line feed, a text begins as it did or with the line feed. -/
theorem head?_append_newline {p : Char → Prop} {s : Text} (hs : ∀ c ∈ s.head?, p c) (hp : p '\n')
    (r : Text) : ∀ c ∈ (s ++ '\n' :: r).head?, p c := by
  cases s with
  | nil => simpa using hp
  | cons c s => simpa using hs

/-- No literal begins at a character in front of a line feed, if none did before. -/
theorem read_char_append_newline {c : Char} {m : Marked Kind}
    (hm : Literal.recogniser.Scans (.char c :: m)) (hc : Text.isQuote c = false)
    (hblock : ¬(ofText ['/', '*'] : Marked Kind) <:+: .char c :: m) (r : Text) :
    Literal.read (c :: (text m ++ '\n' :: r)) = none := by
  obtain ⟨-, hline, -⟩ := Literal.read_eq_none_iff.1 hm.1
  refine Literal.read_eq_none_iff.2 ⟨fun hq => by simp [hc] at hq, fun hc hhead => ?_, ?_⟩
  · exact head?_append_newline (p := (· ≠ '-')) (fun d hd hne => hline hc (hne ▸ hd)) (by decide)
      _ '-' hhead rfl
  · -- the asterisk would stand in the marked text
    rintro rfl r hr
    cases m with
    | nil => simp at hr
    | cons b m =>
      -- a literal does not begin with an asterisk either
      cases b with
      | char d =>
        obtain ⟨rfl, -⟩ : d = '*' ∧ _ := by simpa using hr
        exact absurd ⟨[], m, rfl⟩ hblock
      | hit h =>
        obtain ⟨d, t, hd, hbegin⟩ := (stands_of_scans hm.2).exists_cons
        obtain ⟨rfl, -⟩ : d = '*' ∧ _ := by simpa [hd] using hr
        exact absurd hbegin (by decide)

/-- A literal in front of a line feed is read as it was before. -/
theorem stands_append_newline {h : Hit Kind} {m : Marked Kind}
    (hm : Literal.recogniser.Scans (.hit h :: m)) (hfree : QuoteFree m) (r : Text) :
    Literal.Stands h.tag h.text (text m ++ '\n' :: r) := by
  have hstands := stands_of_scans hm
  refine hstands.before (fun q hq hhead => ?_) (fun hline => ?_)
  · have hne := head?_text_ne_of_scans hq hm hfree
    refine head?_append_newline (p := (· ≠ q)) (fun d hd hdq => hne (hdq ▸ hd)) ?_ _ q hhead rfl
    rintro rfl
    cases Literal.Kind.isQuote_of_quote? hq
  · exact head?_append_newline (hline ▸ hstands).isLineEnd_of_mem_head? (by decide) _

/-- A line feed between two marked texts keeps their literals apart, if no quote and no block
comment is left open in the first. -/
theorem scans_append_newline {m n : Marked Kind} (hm : Literal.recogniser.Scans m)
    (hn : Literal.recogniser.Scans n) (hfree : QuoteFree m)
    (hblock : ¬(ofText ['/', '*'] : Marked Kind) <:+: m) :
    Literal.recogniser.Scans (m ++ .char '\n' :: n) := by
  induction m with
  | nil => exact scans_cons_stop (by decide) (by decide) hn
  | cons a m ih =>
    have htext : text (m ++ .char '\n' :: n) = text m ++ '\n' :: text n := spell_append _ _ _
    obtain ⟨ha, hfree'⟩ := List.forall_mem_cons.1 hfree
    have hrest : Literal.recogniser.Scans m → Literal.recogniser.Scans (m ++ .char '\n' :: n) :=
      fun hm => ih hm hfree' fun h => hblock (h.trans (List.suffix_cons a m).isInfix)
    -- the front of the rest is the old one, or the line feed if there was nothing
    cases a with
    | char c =>
      refine ⟨?_, hrest hm.2⟩
      exact htext ▸ read_char_append_newline hm ha hblock _
    | hit h =>
      refine ⟨?_, hrest hm.2⟩
      exact htext ▸ Literal.read_append_iff.2 (stands_append_newline hm hfree' _)

end Marked

/-! ### Numbers -/

section Number

variable {α : Type}

/-- A hit with its number raised by `k`. -/
def Hit.shift (k : Nat) (h : Hit (α × Nat)) : Hit (α × Nat) := ⟨(h.tag.1, h.tag.2 + k), h.text⟩

namespace Marked

/-- The literals of the second text are numbered on from those of the first. -/
theorem number_append (n : Nat) (m m' : Marked α) :
    number n (m ++ m') = number n m ++ number (n + (hits m).length) m' := by
  induction m generalizing n with
  | nil => rfl
  | cons a m ih =>
    cases a with
    | char c => simp only [List.cons_append, number, hits, ih]
    | hit h => simp only [List.cons_append, number, hits, ih, List.length_cons, Nat.add_assoc,
        Nat.add_comm 1]

/-- Numbering from a later number on raises every number by the difference. -/
theorem number_add (n k : Nat) (m : Marked α) :
    number (n + k) m = mapHits (Hit.shift k) (number n m) := by
  induction m generalizing n with
  | nil => rfl
  | cons a m ih =>
    cases a with
    | char c => simp only [number, ih, mapHits_char]
    | hit h => simp only [number, mapHits_hit, ← ih, Nat.add_right_comm, Hit.shift]

/-- Numbers are not part of the text. -/
theorem text_mapHits_shift (k : Nat) (m : Marked (α × Nat)) :
    text (mapHits (Hit.shift k) m) = text m :=
  spell_mapHits _ _ m

end Marked
end Number

/-- The literals of two statements in one text are those of the two. -/
theorem marked_append_newline {a b : Text} (hfree : (marked a).QuoteFree)
    (hblock : ∀ g ∈ (Literal.cut a).gaps, ¬['/', '*'] <:+: g) :
    marked (a ++ '\n' :: b) =
      marked a ++ .char '\n' :: (marked b).mapHits (Hit.shift (Literal.cut a).hits.length) := by
  have hscans : Literal.recogniser.Scans
      ((Literal.cut a).symbols ++ .char '\n' :: (Literal.cut b).symbols) := by
    refine Marked.scans_append_newline (Literal.scans_cut a) (Literal.scans_cut b) ?_ fun h => ?_
    · rwa [← mapHits_marked, Marked.quoteFree_mapHits]
    · obtain ⟨g, hg, hrow⟩ := Cut.infix_gap_of_infix_symbols h
      exact hblock g hg hrow
  have htext : ∀ s, Marked.spell Hit.text (Literal.cut s).symbols = s := fun s =>
    (Cut.join_eq_text _).symm.trans (Recogniser.join_cut _ s)
  -- a cut is known from the hits that are scanned right, so it is that of the joined text
  have hcut := Literal.recogniser.cut_text_of_scans hscans
  rw [Marked.text, Marked.spell_append, Marked.spell_char, htext, htext] at hcut
  rw [marked, Literal.cut, hcut, Marked.symbols_cut, Marked.number_append, Marked.number,
    Marked.number_add, Cut.hits_symbols]
  rfl

/-! ### Tokens -/

namespace Marked

variable {α : Type} {m n : Marked α}

/-- A marked text with a token, collapsed and recased, is not blank. -/
theorem exists_solid_of_tokens_ne_nil {o : Options} (h : tokens (recase o (collapse m)) ≠ []) :
    ∃ a ∈ m, Symbol.isBlank a = false := by
  by_contra hblank
  have hstrip : strip m = [] := strip_eq_nil_iff.2 (by simpa using hblank)
  -- collapsing and recasing leave nothing but blanks of it
  have hstrip' : fold (strip (recase o (collapse m))) = [] := by
    rw [fold_strip_recase, strip_collapse, hstrip]
    rfl
  have hall := strip_eq_nil_iff.1 (List.map_eq_nil_iff.1 hstrip')
  refine h ?_
  simpa using tokens_blank_append hall []

/-- A blank parts the tokens before it from those behind it. -/
theorem tokens_append_blank (hm : QuoteFree m) {c : Char} (hc : Text.isBlank c = true) :
    tokens (m ++ .char c :: n) = tokens m ++ tokens n := by
  have hstop : Stopped (.char c :: n : Marked α) := by
    simpa [Stopped] using isPlain_of_isBlank hc
  rw [tokens_append hm hstop, tokens_blank hc]

end Marked

/-- The tokens of two statements in one text are those of the two. -/
theorem tokens_append_newline (o : Options) {a b : Text} (hfree : (marked a).QuoteFree)
    (hblock : ∀ g ∈ (Literal.cut a).gaps, ¬['/', '*'] <:+: g)
    (ha : ((marked a).collapse.recase o).tokens ≠ [])
    (hb : ((marked b).collapse.recase o).tokens ≠ []) :
    ((marked (a ++ '\n' :: b)).collapse.recase o).tokens =
      ((marked a).collapse.recase o).tokens ++
        ((marked b).collapse.recase o).tokens.map
          (Marked.mapHits (Hit.shift (Literal.cut a).hits.length)) := by
  have hfree' : ((marked a).collapse.recase o).QuoteFree := by
    refine Marked.quoteFree_of_fold_strip_eq ?_ hfree
    rw [Marked.fold_strip_recase, Marked.strip_collapse]
  have hsolid : ∃ x ∈ (marked b).mapHits (Hit.shift (Literal.cut a).hits.length),
      Symbol.isBlank x = false := by
    obtain ⟨x, hx, hblank⟩ := Marked.exists_solid_of_tokens_ne_nil hb
    exact ⟨_, List.mem_map_of_mem hx, by rwa [Symbol.isBlank_mapHit]⟩
  -- the line feed is collapsed to a space, which stops words on both sides
  rw [marked_append_newline hfree hblock,
    Marked.collapse_append_blank (Marked.exists_solid_of_tokens_ne_nil ha) hsolid rfl,
    Marked.recase_append_stop o _ _ (by decide), Marked.tokens_append_blank hfree' rfl,
    Marked.collapse_mapHits, Marked.recase, Marked.recase, Marked.mapGaps_mapHits,
    Marked.tokens_mapHits]
  rfl

/-! ### Places -/

namespace Layout

variable {o : Options} {comments : List Text} {p q : Place} {t : Token} {ts us : List Token}

/-- Tokens that are alike open a clause, or do not. -/
theorem any_opensClause_of_forall₂ {comments' : List Text}
    (h : List.Forall₂ (Alike comments comments') ts us) (hus : us.head?.any opensClause = true) :
    ts.head?.any opensClause = true := by
  cases h with
  | nil => simp at hus
  | @cons t u _ _ htu _ =>
    -- whether a token opens a clause can be told from its role
    have hrole := (htu.role_eq .other).trans (role_of_opensClause (by simpa using hus) .other)
    unfold role at hrole
    split_ifs at hrole with hopener
    exact hopener

/-- A token that opens a clause leaves nothing of the place before it but its depth. -/
theorem next_of_opensClause (ht : opensClause t = true) (hdepth : p.depth = q.depth) :
    p.next comments t = q.next comments t := by
  -- such a token sets the clause anew, and the role does not depend on the old one
  simp only [Place.next, role_of_opensClause ht, Role.depthAfter, Role.clauseAfter, hdepth]

/-- A token that opens a clause starts a line. -/
theorem separator_of_opensClause (ht : opensClause t = true) :
    p.separator o t =
      if p.ending = .start then o.margin p.depth else '\n' :: o.margin p.depth := by
  simp only [Place.separator, Place.lineLevel?, role_of_opensClause ht]

/-- After a token, the page is not at its start any more. -/
theorem ending_after_ne_start (h : ts ≠ []) : (p.after comments ts).ending ≠ .start := by
  obtain ⟨ts, t, rfl⟩ := (List.eq_nil_or_concat ts).resolve_left h
  rw [List.concat_eq_append, Place.after_append]
  exact Ending.after_ne_start _ _ _

/-- After tokens that close their parentheses, the depth is that of the start. -/
theorem depth_after (comments : List Text) (hdepth : depth ts = 0) :
    (Place.after comments {} ts).depth = ({} : Place).depth :=
  (reads_after comments ts).depth_eq.trans hdepth

/-- After tokens that close their parentheses, a token that opens a clause begins anew, on a line of
its own. -/
theorem separators_append_opener (o : Options) (comments : List Text) (hts : ts ≠ [])
    (hdepth : depth ts = 0) (hus : us.head?.any opensClause = true) :
    ∃ e es, Place.separators o comments {} us = e :: es ∧
      Place.separators o comments {} (ts ++ us) =
        Place.separators o comments {} ts ++ ('\n' :: e) :: es := by
  cases us with
  | nil => simp at hus
  | cons u us =>
    have hu : opensClause u = true := by simpa using hus
    have hplace := depth_after comments hdepth
    refine ⟨_, _, rfl, ?_⟩
    -- behind the first token the places are the same, and the separators with them
    rw [Place.separators_append, Place.separators_cons, next_of_opensClause hu hplace,
      separator_of_opensClause hu, separator_of_opensClause hu, if_neg (ending_after_ne_start hts),
      if_pos rfl, hplace]

/-- The tokens from there on ask for all levels that they would ask for alone. -/
theorem mem_allLevels_append_opener {comments : List Text} (hdepth : depth ts = 0)
    (hus : us.head?.any opensClause = true) {k : Nat}
    (hk : k ∈ Place.allLevels comments {} us) : k ∈ Place.allLevels comments {} (ts ++ us) := by
  cases us with
  | nil => simp at hus
  | cons u us =>
    have hu : opensClause u = true := by simpa using hus
    have hplace := depth_after comments hdepth
    rw [Place.allLevels_append]
    refine List.mem_append_right _ ?_
    rw [Place.allLevels, next_of_opensClause hu hplace]
    -- the first token asks for its level in both places, and the others come after the same place
    rcases List.mem_append.1 hk with hk | hk
    · refine List.mem_append_left _ (List.mem_append_right _ ?_)
      simpa [Place.levels, Place.commentLevel?, role_of_opensClause hu, hplace] using hk
    · exact List.mem_append_right _ hk

end Layout

/-! ### Two statements -/

namespace Marked

/-- Numbers are not part of the outline. -/
theorem outline_mapHits_shift (k : Nat) (m : Marked (Kind × Nat)) :
    outline (mapHits (Hit.shift k) m) = outline m := by
  induction m with
  | nil => rfl
  | cons a m ih =>
    cases a with
    | char c => rw [mapHits_char, outline_char, outline_char, ih]
    | hit h => rw [mapHits_hit, outline_hit, outline_hit, ih]; rfl

/-- A marked text without hits has none before its hits are changed. -/
theorem eq_ofText_of_mapHits_eq {α β : Type} {f : Hit α → Hit β} {m : Marked α} {x : Text}
    (h : mapHits f m = ofText x) : m = ofText x := by
  induction x generalizing m with
  | nil => simpa [mapHits] using h
  | cons c x ih =>
    rcases m with _ | ⟨⟨d⟩ | ⟨k⟩, m⟩
    · simp [mapHits] at h
    · obtain ⟨hd, hm⟩ := List.cons.inj h
      rw [Symbol.char.inj hd, ih hm, ofText_cons]
    · simp at h

/-- Changing hits makes no fence, since a fence has none. -/
theorem Unfenced.mapHits {α β : Type} {m : Marked α} (hm : Unfenced m) (f : Hit α → Hit β) :
    Unfenced (mapHits f m) := by
  rintro ⟨u, v, huv⟩
  obtain ⟨y, v', rfl, hy, -⟩ := List.map_eq_append_iff.1 huv.symm
  obtain ⟨u', x, rfl, -, hx⟩ := List.map_eq_append_iff.1 hy
  exact hm ⟨u', v', by rw [eq_ofText_of_mapHits_eq hx]⟩

end Marked

/-- A text with a token is not blank. -/
theorem isAllBlank_of_tokens_ne_nil {o : Options} {s : Text} (hs : (marked s).Unfenced)
    (h : (ready o s).tokens ≠ []) : Text.isAllBlank s = false := by
  refine Bool.eq_false_iff.2 fun hblank => ?_
  rw [← text_marked s, isAllBlank_text_iff fun _ => exists_solid_of_mem_hits] at hblank
  rw [(tokens_ready o hs).1, ne_eq, List.map_eq_nil_iff] at h
  obtain ⟨x, hx, hsolid⟩ := Marked.exists_solid_of_tokens_ne_nil h
  simp [hblank x hx] at hsolid

/-- The text `b` is a statement of its own when it follows the text `a` on a new line. -/
structure Parted (o : Options) (a b : Text) : Prop where
  /-- Nothing in a gap of `a` looks like a placeholder. -/
  left_unfenced : (marked a).Unfenced
  /-- Nothing in a gap of `b` does. -/
  right_unfenced : (marked b).Unfenced
  /-- No quote is left open in `a`. -/
  quoteFree : (marked a).QuoteFree
  /-- No block comment is left open in `a`. -/
  no_block : ∀ g ∈ (Literal.cut a).gaps, ¬['/', '*'] <:+: g
  /-- There is something in `a`. -/
  tokens_ne_nil : (ready o a).tokens ≠ []
  /-- All parentheses of `a` are closed. -/
  depth_eq : Layout.depth (ready o a).tokens = 0
  /-- The first word of `b` opens a clause. -/
  opensClause : (ready o b).tokens.head?.any Layout.opensClause = true

namespace Parted

variable {o : Options} {a b : Text}

/-- The literals of the two, those of `b` numbered on. -/
theorem marked_eq (h : Parted o a b) :
    marked (a ++ '\n' :: b) =
      marked a ++ .char '\n' :: (marked b).mapHits (Hit.shift (Literal.cut a).hits.length) :=
  marked_append_newline h.quoteFree h.no_block

/-- Nothing in a gap of the text looks like a placeholder, since the line feed is part of no fence.
-/
theorem unfenced (h : Parted o a b) : (marked (a ++ '\n' :: b)).Unfenced := by
  rw [h.marked_eq]
  intro hfence
  rcases (infix_append_cons_iff (by decide)).1 hfence with hfence | hfence
  · exact h.left_unfenced hfence
  · exact h.right_unfenced.mapHits _ hfence

/-- The tokens of the two. -/
theorem tokens_eq (h : Parted o a b) :
    ((marked (a ++ '\n' :: b)).collapse.recase o).tokens =
      ((marked a).collapse.recase o).tokens ++
        ((marked b).collapse.recase o).tokens.map
          (Marked.mapHits (Hit.shift (Literal.cut a).hits.length)) := by
  have hleft := h.tokens_ne_nil
  have hright := h.opensClause
  rw [(tokens_ready o h.left_unfenced).1] at hleft
  rw [(tokens_ready o h.right_unfenced).1] at hright
  refine tokens_append_newline o h.quoteFree h.no_block (fun hnil => ?_) (fun hnil => ?_)
  · simp [hnil] at hleft
  · simp [hnil] at hright

/-- The layout of the text sees the tokens of `a`, and then those of `b`. -/
theorem exists_tokens_ready (h : Parted o a b) :
    ∃ us, (ready o (a ++ '\n' :: b)).tokens = (ready o a).tokens ++ us ∧
      List.Forall₂ (Layout.Alike (ready o (a ++ '\n' :: b)).lineComments (ready o a).lineComments)
        (ready o a).tokens (ready o a).tokens ∧
      List.Forall₂ (Layout.Alike (ready o (a ++ '\n' :: b)).lineComments (ready o b).lineComments)
        us (ready o b).tokens := by
  have hknown := known_of_mem_tokens o h.unfenced
  rw [(tokens_ready o h.unfenced).1, (tokens_ready o h.left_unfenced).1,
    (tokens_ready o h.right_unfenced).1]
  rw [h.tokens_eq] at hknown ⊢
  rw [List.forall_mem_append] at hknown
  refine ⟨_, List.map_append, ?_, ?_⟩
  · exact Marked.forall₂_alike_spell hknown.1 (known_of_mem_tokens o h.left_unfenced) rfl
  -- the tokens of `b` have other numbers here, but the same outline
  · refine Marked.forall₂_alike_spell hknown.2 (known_of_mem_tokens o h.right_unfenced) ?_
    simp [Marked.outline_mapHits_shift]

/-- The separators are those of `a` and of `b`, with a line feed between. -/
theorem separators_eq (h : Parted o a b) :
    ∃ e es, Layout.Place.separators o (ready o b).lineComments {} (ready o b).tokens = e :: es ∧
      Layout.Place.separators o (ready o (a ++ '\n' :: b)).lineComments {}
          (ready o (a ++ '\n' :: b)).tokens =
        Layout.Place.separators o (ready o a).lineComments {} (ready o a).tokens ++
          ('\n' :: e) :: es := by
  obtain ⟨us, htokens, hleft, hright⟩ := h.exists_tokens_ready
  have hopener := Layout.any_opensClause_of_forall₂ hright h.opensClause
  rw [htokens, ← Layout.separators_congr hleft rfl, ← Layout.separators_congr hright rfl]
  exact Layout.separators_append_opener o _ h.tokens_ne_nil h.depth_eq hopener

/-- The levels that `a` and `b` ask for are asked for in the text. -/
theorem mem_allLevels (h : Parted o a b) {k : Nat}
    (hk : k ∈ Layout.Place.allLevels (ready o a).lineComments {} (ready o a).tokens ∨
      k ∈ Layout.Place.allLevels (ready o b).lineComments {} (ready o b).tokens) :
    k ∈ Layout.Place.allLevels (ready o (a ++ '\n' :: b)).lineComments {}
      (ready o (a ++ '\n' :: b)).tokens := by
  obtain ⟨us, htokens, hleft, hright⟩ := h.exists_tokens_ready
  have hopener := Layout.any_opensClause_of_forall₂ hright h.opensClause
  rw [← Layout.allLevels_congr hleft, ← Layout.allLevels_congr hright] at hk
  rw [htokens]
  rcases hk with hk | hk
  · rw [Layout.Place.allLevels_append]
    exact List.mem_append_left _ hk
  · exact Layout.mem_allLevels_append_opener h.depth_eq hopener hk

/-- The text is laid out as the two are, with a line feed between. -/
theorem weave_arranged (h : Parted o a b) :
    Marked.weave (arranged o (a ++ '\n' :: b)) =
      Marked.weave (arranged o a) ++ .char '\n' ::
        (Marked.weave (arranged o b)).mapHits (Hit.shift (Literal.cut a).hits.length) := by
  obtain ⟨e, es, hright, hboth⟩ := h.separators_eq
  have hlength : (Layout.Place.separators o (ready o a).lineComments {} (ready o a).tokens).length =
      ((marked a).collapse.recase o).tokens.length := by
    rw [Layout.Place.length_separators, (tokens_ready o h.left_unfenced).1, List.length_map]
  rw [arranged, arranged, arranged, hboth, hright, h.tokens_eq, List.zip_append hlength,
    Marked.weave_append, Marked.mapHits_weave]
  -- the line feed of the first separator of `b` goes between the two
  cases htokens : ((marked b).collapse.recase o).tokens with
  | nil => simp [(tokens_ready o h.right_unfenced).1, htokens] at hright
  | cons t us =>
    simp only [List.map_cons, List.zip_cons_cons, List.zip_map_right, Marked.weave_cons,
      Marked.ofText_cons, List.cons_append]
    rfl

/-- None of the two is left alone if the text is not. -/
theorem not_leftAlone (h : Parted o a b) (hformat : ¬LeftAlone o (a ++ '\n' :: b)) :
    ¬LeftAlone o a ∧ ¬LeftAlone o b := by
  have hright : (ready o b).tokens ≠ [] := by
    intro hnil
    have := h.opensClause
    simp [hnil] at this
  -- a statement is left alone if it is blank, which none is, or asks for a level that is too large
  constructor
  · rintro (hblank | ⟨k, hk, hfits⟩)
    · simp [isAllBlank_of_tokens_ne_nil h.left_unfenced h.tokens_ne_nil] at hblank
    · exact hformat (.inr ⟨k, h.mem_allLevels (.inl hk), hfits⟩)
  · rintro (hblank | ⟨k, hk, hfits⟩)
    · simp [isAllBlank_of_tokens_ne_nil h.right_unfenced hright] at hblank
    · exact hformat (.inr ⟨k, h.mem_allLevels (.inr hk), hfits⟩)

end Parted

/-- Each of two statements is formatted as if it were alone. -/
theorem format_append_newline {o : Options} (ho : Text.isAllBlank o.indentText = true) {a b : Text}
    (hfence : ∀ g ∈ (Literal.cut a).gaps ++ (Literal.cut b).gaps, ¬Placeholder.fence <:+: g)
    (hquote : ∀ g ∈ (Literal.cut a).gaps, ∀ c ∈ g, Text.isQuote c = false)
    (hblock : ∀ g ∈ (Literal.cut a).gaps, ¬['/', '*'] <:+: g)
    (htokens : (ready o a).tokens ≠ []) (hdepth : Layout.depth (ready o a).tokens = 0)
    (hopener : (ready o b).tokens.head?.any Layout.opensClause = true)
    (hfault : (formatReport o (a ++ '\n' :: b)).fault = none) :
    format o (a ++ '\n' :: b) = format o a ++ '\n' :: format o b := by
  rw [List.forall_mem_append] at hfence
  have h : Parted o a b :=
    { left_unfenced := unfenced_marked hfence.1
      right_unfenced := unfenced_marked hfence.2
      quoteFree := quoteFree_marked hquote
      no_block := hblock
      tokens_ne_nil := htokens
      depth_eq := hdepth
      opensClause := hopener }
  have hblank : Text.isAllBlank (a ++ '\n' :: b) = false := by
    have := isAllBlank_of_tokens_ne_nil h.left_unfenced h.tokens_ne_nil
    rw [Text.isAllBlank] at this ⊢
    rw [List.all_append, this, Bool.false_and]
  -- without a fault, the text is laid out
  have hboth : ¬LeftAlone o (a ++ '\n' :: b) := by
    refine not_leftAlone_iff.2 ⟨hblank, ?_⟩
    cases hlaid : laidOut o (a ++ '\n' :: b) with
    | ok d => exact ⟨d, rfl⟩
    | error e => simp [(formatReport_of_laidOut_error hblank hlaid).2] at hfault
  obtain ⟨hleft, hright⟩ := h.not_leftAlone hboth
  rw [← text_formatted ho h.unfenced, ← text_formatted ho h.left_unfenced,
    ← text_formatted ho h.right_unfenced, formatted, formatted, formatted, if_neg hboth,
    if_neg hleft, if_neg hright, h.weave_arranged]
  simp [Marked.text_mapHits_shift]

/-- The first statement ends in a comma of a select list and a comment, the second has a quote that
is not closed. -/
theorem format_append_newline_comment :
    let o : Options := { indentText := ['\t'], indentSize := 1 }
    let a := "select f('p'), -- c".toList
    let b := "select x from \"t".toList
    (ready o a).tokens ≠ [] ∧ Layout.depth (ready o a).tokens = 0 ∧
    (formatReport o (a ++ '\n' :: b)).fault = none ∧
    format o (a ++ '\n' :: b) = format o a ++ '\n' :: format o b ∧
    format o a = "SELECT\n\tf ('p'),\n\t-- c".toList ∧
    format o b = "SELECT\n\tx\nFROM \"t".toList := by
  intro o a b
  have hfence : ∀ g ∈ (Literal.cut a).gaps ++ (Literal.cut b).gaps, ¬Placeholder.fence <:+: g := by
    decide +kernel
  have hquote : ∀ g ∈ (Literal.cut a).gaps, ∀ c ∈ g, Text.isQuote c = false := by
    have hall : (Literal.cut a).gaps.all (fun g => g.all fun c => !Text.isQuote c) = true := by
      decide +kernel
    simpa only [List.all_eq_true, Bool.not_eq_true'] using hall
  have hblock : ∀ g ∈ (Literal.cut a).gaps, ¬['/', '*'] <:+: g := by decide +kernel
  have htokens : (ready o a).tokens ≠ [] := by decide +kernel
  have hdepth : Layout.depth (ready o a).tokens = 0 := by decide +kernel
  have hopener : (ready o b).tokens.head?.any Layout.opensClause = true := by decide +kernel
  have hfault : (formatReport o (a ++ '\n' :: b)).fault = none := by decide +kernel
  exact ⟨htokens, hdepth, hfault,
    format_append_newline rfl hfence hquote hblock htokens hdepth hopener hfault,
    by decide +kernel, by decide +kernel⟩

end SqlTidy
