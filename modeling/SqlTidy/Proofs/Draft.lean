import SqlTidy.Format
import SqlTidy.Proofs.Separator
import SqlTidy.Proofs.Tokens

/-!
# Drafts as marked texts

A draft stands for a marked text: its text is the marked text with placeholders for the hits, and
its table has the hits in it.  Every stage of formatting does to the marked text what it does to the
draft, and the last stage writes the marked text out.

## Main definitions

* `Marked.number n m` — the hits of `m` numbered from `n` on.
* `marked s` — the literals of `s` in their places, numbered.
* `Draft.Represents d m` — the draft `d` stands for the marked text `m`.
* `ready o s`, `laidOut o s` — the draft of `s` before and after its layout.
* `LaidTokens o s ps` — `ps` are the tokens of `s`, set apart as a layout may do it.
* `arranged o s` — the tokens of `s` as the layout does set them apart.
* `formatted o s` — the formatted text, with its literals as hits.
* `formattedCut o s` — its literals, and the gaps between them.

## Main results

* `represents_preserve` — setting literals aside gives a draft of `marked s`.
* `Draft.Represents.restore_text` — putting them back writes out the marked text.
* `laidTokens_arranged`, `represents_arranged` — a laid-out draft stands for the tokens of the text,
  with the separators of the layout.
* `formatReport_of_laidOut_ok`, `formatReport_of_laidOut_error` — what formatting makes of that.
* `text_formatted` — the formatted text is the text of `formatted`.
-/

namespace SqlTidy

open Literal (Kind)

/-! ### Numbered hits -/

section Number

variable {α : Type}

/-- A hit without its number.  Literals are numbered when they are set aside, and compared without
their numbers. -/
def Hit.unnumbered (h : Hit (α × Nat)) : Hit α := ⟨h.tag.1, h.text⟩

namespace Marked

/-- The hits of a marked text numbered from `n` on. -/
def number : (n : Nat) → Marked α → Marked (α × Nat)
  | _, [] => []
  | n, .char c :: m => .char c :: number n m
  | n, .hit h :: m => .hit ⟨(h.tag, n), h.text⟩ :: number (n + 1) m

/-- Numbering the hits and dropping the numbers changes nothing. -/
@[simp] theorem mapHits_number (n : Nat) (m : Marked α) :
    mapHits Hit.unnumbered (number n m) = m := by
  induction m generalizing n with
  | nil => rfl
  | cons a m ih =>
    cases a with
    | char c => rw [number, mapHits_char, ih]
    | hit h => rw [number, mapHits_hit, ih]; rfl

/-- The text does not depend on numbers. -/
theorem text_mapHits_unnumbered (m : Marked (α × Nat)) : text (mapHits Hit.unnumbered m) = text m :=
  spell_mapHits _ _ m

theorem text_number (n : Nat) (m : Marked α) : text (number n m) = text m := by
  rw [← text_mapHits_unnumbered, mapHits_number]

/-- Hits are numbered in order, without gaps. -/
theorem numbers_number (n : Nat) (m : Marked α) :
    (hits (number n m)).map (·.tag.2) = List.range' n (hits m).length := by
  induction m generalizing n with
  | nil => rfl
  | cons a m ih =>
    cases a with
    | char c => exact ih n
    | hit h =>
      rw [number, hits, hits, List.map_cons, ih, List.length_cons, List.range'_succ]

/-- A marked text whose hits are numbered in order is the numbering of itself. -/
theorem number_mapHits {n : Nat} {m : Marked (α × Nat)}
    (h : (hits m).map (·.tag.2) = List.range' n (hits m).length) :
    number n (mapHits Hit.unnumbered m) = m := by
  induction m generalizing n with
  | nil => rfl
  | cons a m ih =>
    cases a with
    | char c => rw [mapHits_char, number, ih h]
    | hit x =>
      rw [hits, List.map_cons, List.length_cons, List.range'_succ, List.cons.injEq] at h
      rw [mapHits_hit, number, ih h.2, ← h.1]
      rfl

end Marked

/-- Numbering a cut is numbering its marked text. -/
theorem Cut.symbols_numbered (n : Nat) (k : Cut α) :
    (k.numbered n).symbols = Marked.number n k.symbols := by
  -- a gap leaves the count where it is
  have hgap : ∀ (g : Text) (n : Nat) (m : Marked α),
      Marked.number n (Marked.ofText g ++ m) = Marked.ofText g ++ Marked.number n m := by
    intro g n m
    induction g with
    | nil => rfl
    | cons c g ih => rw [Marked.ofText_cons, List.cons_append, Marked.number, ih]; rfl
  obtain ⟨ps, rest⟩ := k
  induction ps generalizing n with
  | nil =>
    have := hgap rest n []
    simpa [Marked.number, numbered] using this.symm
  | cons p ps ih =>
    rw [symbols_cons, hgap, Marked.number, ← ih]
    simp [numbered, symbols]

end Number

/-- The literals of a text in their places, numbered. -/
def marked (s : Text) : Marked (Kind × Nat) := Marked.number 0 (Literal.cut s).symbols

/-- Nothing is lost when the literals of a text are marked. -/
theorem text_marked (s : Text) : (marked s).text = s := by
  rw [marked, Marked.text_number, ← Cut.join_eq_text]
  exact Recogniser.join_cut _ s

/-- Without their numbers, the hits are those that the recogniser found. -/
theorem mapHits_marked (s : Text) :
    (marked s).mapHits Hit.unnumbered = (Literal.cut s).symbols :=
  Marked.mapHits_number 0 _

/-- The cut of a text at its literals is the cut of its marked text. -/
theorem cut_eq_marked (s : Text) : Literal.cut s = ((marked s).mapHits Hit.unnumbered).cut := by
  rw [mapHits_marked, Marked.cut_symbols]

/-- No quote outside the literals of a text is closed. -/
theorem unclosed_marked (s : Text) : (marked s).Unclosed := by
  rw [← Marked.unclosed_mapHits Hit.unnumbered, mapHits_marked]
  exact Marked.unclosed_of_scans (Literal.scans_cut s)

/-- The literals of a text are literals of their kinds. -/
theorem exists_stands_of_mem_hits_cut (s : Text) :
    ∀ h ∈ (Literal.cut s).hits, ∃ r, Literal.Stands h.tag h.text r := by
  rw [← Cut.hits_symbols]
  exact Marked.exists_stands_of_scans (Literal.scans_cut s)

/-- Every literal of a text begins with a quote, a hyphen or a slash. -/
theorem exists_cons_of_mem_hits {s : Text} {h : Hit (Kind × Nat)} (hh : h ∈ (marked s).hits) :
    ∃ c b, h.text = c :: b ∧ (Text.isQuote c = true ∨ c = '-' ∨ c = '/') := by
  have hmem : h.unnumbered ∈ (Literal.cut s).symbols.hits := by
    rw [← mapHits_marked, Marked.hits_mapHits]
    exact List.mem_map_of_mem hh
  exact Marked.exists_cons_of_scans (Literal.scans_cut s) _ hmem

/-- Every literal of a text begins with something that is no blank. -/
theorem exists_solid_of_mem_hits {s : Text} {h : Hit (Kind × Nat)} (hh : h ∈ (marked s).hits) :
    ∃ c b, h.text = c :: b ∧ Text.isBlank c = false := by
  obtain ⟨c, b, hcb, hc⟩ := exists_cons_of_mem_hits hh
  refine ⟨c, b, hcb, ?_⟩
  rcases hc with hc | rfl | rfl
  · exact isBlank_of_isQuote hc
  · rfl
  · rfl

/-- A part of a text is blank if and only if its marked text is. -/
theorem isAllBlank_text_iff {m : Marked (Kind × Nat)}
    (hm : ∀ h ∈ m.hits, ∃ c b, h.text = c :: b ∧ Text.isBlank c = false) :
    Text.isAllBlank m.text = true ↔ ∀ a ∈ m, Symbol.isBlank a = true := by
  simp only [Text.isAllBlank, List.all_eq_true, Marked.text, Marked.spell, List.mem_flatMap]
  constructor
  · intro h a ha
    cases a with
    | char c => exact h c ⟨_, ha, List.mem_singleton_self c⟩
    | hit x =>
      -- a hit begins with something that is no blank
      obtain ⟨c, b, hcb, hc⟩ := hm x (Marked.mem_hits_iff.2 ha)
      have := h c ⟨_, ha, by rw [Symbol.spell, hcb]; exact List.mem_cons_self⟩
      simp [hc] at this
  · rintro h c ⟨a, ha, hc⟩
    have hblank := h a ha
    cases a with
    | char d =>
      obtain rfl : c = d := List.mem_singleton.1 hc
      exact hblank
    | hit x => cases hblank

/-- The literals of a text are numbered from zero on. -/
theorem numbers_marked (s : Text) :
    (marked s).hits.map (·.tag.2) = List.range' 0 (marked s).hits.length := by
  have hlength := congrArg List.length (Marked.numbers_number 0 (Literal.cut s).symbols)
  rw [List.length_map, List.length_range'] at hlength
  rw [marked, Marked.numbers_number, hlength]

/-- A text with no three underscores in a row outside its literals is marked so. -/
theorem unfenced_marked {s : Text} (h : ∀ g ∈ (Literal.cut s).gaps, ¬Placeholder.fence <:+: g) :
    (marked s).Unfenced := by
  intro hs
  have := hs.map (Symbol.mapHit Hit.unnumbered)
  refine Marked.unfenced_symbols h ?_
  rw [← mapHits_marked]
  exact this

/-- Literals that are numbered in order have different placeholders. -/
theorem nodup_placeholder {l : List (Hit (Kind × Nat))} {n : Nat}
    (h : l.map (·.tag.2) = List.range' n l.length) : (l.map Draft.placeholder).Nodup := by
  have hnodup : (l.map (·.tag.2)).Nodup := h ▸ List.nodup_range' 1
  rw [List.Nodup, List.pairwise_map] at hnodup ⊢
  exact hnodup.imp fun hne heq => hne (Placeholder.ofLiteral_inj heq).2

/-! ### Tables of literals -/

/-- Entries with new keys are put at the end of a table, in order. -/
theorem Table.foldl_insert {β : Type} (key : β → Text) (val : β → Text) (xs : List β)
    {t : Table Text} (h : (keys t ++ xs.map key).Nodup) :
    xs.foldl (fun t x => insert (key x) (val x) t) t = t ++ xs.map fun x => (key x, val x) := by
  induction xs generalizing t with
  | nil => simp
  | cons x xs ih =>
    have hnew : key x ∉ keys t := by
      intro hx
      exact List.disjoint_of_nodup_append h hx (by simp)
    rw [List.foldl_cons, insert_of_not_mem _ hnew, ih, List.append_assoc, List.singleton_append,
      List.map_cons]
    simpa [keys] using h

/-- A table with different keys has every entry where it is looked up. -/
theorem Table.lookup_of_mem {β : Type} {key : β → Text} {val : β → Text} {xs : List β}
    (h : (xs.map key).Nodup) {x : β} (hx : x ∈ xs) :
    (xs.map fun x => (key x, val x)).lookup (key x) = some (val x) := by
  induction xs with
  | nil => simp at hx
  | cons y xs ih =>
    rw [List.map_cons, List.nodup_cons] at h
    rw [List.map_cons, List.lookup_cons]
    rcases List.mem_cons.1 hx with rfl | hx
    · simp
    · have hne : (key x == key y) = false := by
        rw [beq_eq_false_iff_ne]
        intro heq
        exact h.1 (heq ▸ List.mem_map_of_mem hx)
      rw [hne]
      exact ih h.2 hx

/-- Whether a hit is a line comment. -/
def Hit.isLine (h : Hit (Kind × Nat)) : Bool := h.tag.1 = .lineComment

/-- The placeholders of line comments are collected in reverse order, since each new one is put in
front. -/
theorem foldl_insert_comments (hs : List (Hit (Kind × Nat))) {l : List Text}
    (h : (l ++ hs.map Draft.placeholder).Nodup) :
    hs.foldl (fun l hit =>
        if hit.tag.1 = .lineComment then l.insert (Draft.placeholder hit) else l) l =
      ((hs.filter Hit.isLine).map Draft.placeholder).reverse ++ l := by
  induction hs generalizing l with
  | nil => rfl
  | cons x hs ih =>
    have hnew : Draft.placeholder x ∉ l := by
      intro hx
      exact List.disjoint_of_nodup_append h hx (by simp)
    rw [List.map_cons, List.nodup_append_comm, List.cons_append, List.nodup_cons,
      List.nodup_append_comm] at h
    rw [List.foldl_cons]
    by_cases hx : x.tag.1 = .lineComment
    · rw [if_pos hx, List.insert_of_not_mem hnew, ih,
        List.filter_cons_of_pos (by simpa [Hit.isLine])]
      · simp
      · rw [List.cons_append, List.nodup_cons]
        exact ⟨fun hmem => h.1 (by simpa [or_comm] using hmem), h.2⟩
    · rw [if_neg hx, ih h.2, List.filter_cons_of_neg (by simpa [Hit.isLine])]

/-! ### The stages -/

namespace Draft

/-- A draft stands for a marked text. -/
structure Represents (d : Draft) (m : Marked (Kind × Nat)) : Prop where
  /-- Its text has placeholders for the hits. -/
  text_eq : d.text = m.spell placeholder
  /-- Its table has the hits in order. -/
  literals_eq : d.literals = m.hits.map fun h => (placeholder h, h.text)
  /-- It knows which hits are line comments. -/
  lineComments_eq : d.lineComments = ((m.hits.filter Hit.isLine).map placeholder).reverse
  /-- No two hits share a placeholder. -/
  nodup : (m.hits.map placeholder).Nodup

/-- Putting literals back, in one form for tables with and without entries: what stands in the table
is put for its placeholder, and what only looks like a placeholder stays. -/
theorem restore_text (d : Draft) :
    d.restore.text = (Placeholder.cut d.text).joinWith id fun hit =>
      (d.literals.lookup hit.text).getD hit.text := by
  unfold restore
  split
  · next hnil =>
    simp only [hnil, List.lookup_nil, Option.getD_none]
    exact (Recogniser.join_cut _ d.text).symm
  · rfl

variable {d : Draft} {m : Marked (Kind × Nat)}

/-- Setting the literals of a text aside gives a draft of the marked text. -/
theorem represents_preserve (s : Text) :
    ({ text := s } : Draft).preserve.Represents (marked s) := by
  have hfound : ({ text := s } : Draft).found.symbols = marked s := Cut.symbols_numbered 0 _
  have hhits : ({ text := s } : Draft).found.hits = (marked s).hits := by
    rw [← hfound, Cut.hits_symbols]
  have hnodup : ((marked s).hits.map placeholder).Nodup :=
    nodup_placeholder (numbers_marked s)
  refine ⟨?_, ?_, ?_, hnodup⟩
  · rw [preserve, Cut.joinWith_id, hfound]
  · rw [preserve, hhits]
    exact (Table.foldl_insert placeholder Hit.text _ (by simpa using hnodup)).trans (by simp)
  · rw [preserve, hhits]
    exact (foldl_insert_comments _ (by simpa using hnodup)).trans (by simp)

/-- Collapsing blanks does to the marked text what it does to the draft. -/
theorem Represents.collapse (h : d.Represents m) : d.collapse.Represents m.collapse where
  text_eq := by rw [Draft.collapse, h.text_eq, Marked.collapse_spell wordlike_placeholder]
  literals_eq := by rw [Marked.hits_collapse]; exact h.literals_eq
  lineComments_eq := by rw [Marked.hits_collapse]; exact h.lineComments_eq
  nodup := by rw [Marked.hits_collapse]; exact h.nodup

/-- Recasing words does to the marked text what it does to the draft. -/
theorem Represents.recase (h : d.Represents m) (hm : m.Unfenced) (o : Options) :
    (d.recase o).Represents (m.recase o) where
  text_eq := by rw [Draft.recase, h.text_eq, Marked.recase_spell o hm]
  literals_eq := by rw [Marked.recase, Marked.hits_mapGaps]; exact h.literals_eq
  lineComments_eq := by rw [Marked.recase, Marked.hits_mapGaps]; exact h.lineComments_eq
  nodup := by rw [Marked.recase, Marked.hits_mapGaps]; exact h.nodup

/-- Putting the literals back writes out the marked text. -/
theorem Represents.restore_text (h : d.Represents m) (hm : m.Unfenced) :
    d.restore.text = m.text := by
  rw [Draft.restore_text, h.text_eq, Marked.cut_spell_placeholder hm, Cut.joinWith_id,
    Marked.symbols_cut, Marked.spell_mapHits]
  -- the placeholders found are those of the hits, and each is in the table
  refine Marked.spell_congr fun x hx => ?_
  simp only [Function.comp_apply, Marked.placeholderHit, h.literals_eq,
    Table.lookup_of_mem h.nodup hx, Option.getD_some]

/-! ### The layout stage -/

section Layout

variable {o : Options} {t u : Marked (Kind × Nat)}

/-- A token is written so that it ends in no blank if its last symbol is none. -/
theorem solid_spell {x : Marked (Kind × Nat)} {a : Symbol (Kind × Nat)} (ha : a.isBlank = false) :
    Token.Solid (Marked.spell placeholder (x ++ [a])) := by
  cases a with
  | char c => exact ⟨Marked.spell placeholder x, c, by simp, ha⟩
  | hit h =>
    have hne := wordlike_placeholder.ne_nil h
    refine ⟨Marked.spell placeholder x ++ (placeholder h).dropLast, (placeholder h).getLast hne, ?_,
      isBlank_of_isPlain (wordlike_placeholder.plain h _ (List.getLast_mem hne))⟩
    rw [List.append_assoc, List.dropLast_append_getLast]
    simp

/-- A token that is written with an opening parenthesis at its end has it there. -/
theorem getLast?_of_suffix_spell (h : ['('] <:+ Marked.spell placeholder t) :
    t.getLast? = some (.char '(') := by
  obtain ⟨y, hy⟩ := h
  rcases List.eq_nil_or_concat t with rfl | ⟨x, a, rfl⟩
  · simp at hy
  · rw [List.concat_eq_append] at hy ⊢
    rw [List.getLast?_concat]
    cases a with
    | char c =>
      rw [Marked.spell_append, Marked.spell_char, Marked.spell_nil] at hy
      cases (List.append_inj' hy rfl).2
      rfl
    | hit k =>
      -- a placeholder ends in no parenthesis
      have hne := wordlike_placeholder.ne_nil k
      have hplain := wordlike_placeholder.plain k _ (List.getLast_mem hne)
      rw [Marked.spell_append, Marked.spell_hit, Marked.spell_nil, List.append_nil,
        ← List.dropLast_append_getLast hne, ← List.append_assoc] at hy
      have hlast : '(' = (placeholder k).getLast hne := by
        simpa using (List.append_inj' hy rfl).2
      rw [← hlast] at hplain
      cases hplain

/-- A token that is written as a punctuation mark is one. -/
theorem isMark_of_isMark_spell (h : Token.isMark (Marked.spell placeholder t) = true) :
    t.IsMark := by
  obtain ⟨c, hc, hspell⟩ : ∃ c, isPunctuation c = true ∧ Marked.spell placeholder t = [c] := by
    unfold Token.isMark at h
    split at h
    · next c hc => exact ⟨c, h, hc⟩
    · cases h
  cases t with
  | nil => simp at hspell
  | cons a t =>
    cases a with
    | char d =>
      obtain ⟨rfl, hrest⟩ : d = c ∧ Marked.spell placeholder t = [] := by simpa using hspell
      refine ⟨d, hc, ?_⟩
      rcases t with _ | ⟨⟨e⟩ | ⟨k⟩, t⟩
      · rfl
      · simp at hrest
      · simp [wordlike_placeholder.ne_nil k] at hrest
    | hit k =>
      -- a placeholder begins with no punctuation mark
      have hmem : c ∈ placeholder k := by
        obtain ⟨e, r, hr⟩ := List.exists_cons_of_ne_nil (wordlike_placeholder.ne_nil k)
        rw [Marked.spell_hit, hr, List.cons_append] at hspell
        rw [hr, (List.cons.inj hspell).1]
        exact List.mem_cons_self
      have := isPunctuation_of_isPlain (wordlike_placeholder.plain k c hmem)
      simp [hc] at this

/-- A token whose last hit is a line comment ends in the placeholder of one. -/
theorem endsInComment_spell {comments : List Text} {h : Hit (Kind × Nat)}
    (ht : t.getLast? = some (.hit h)) (hline : h.isLine = true) (hmem : placeholder h ∈ comments) :
    Layout.endsInComment comments (Marked.spell placeholder t) = true := by
  obtain ⟨x, rfl⟩ := List.getLast?_eq_some_iff.1 ht
  have hkind : h.tag.1 = .lineComment := by simpa [Hit.isLine] using hline
  -- the placeholder of a line comment has the tag of a comment
  have hph : placeholder h =
      Placeholder.make Placeholder.Tag.comment.word (Text.ofNat h.tag.2) := by
    rw [placeholder, Placeholder.ofLiteral, hkind]
    rfl
  have htrailing := Placeholder.trailingComment?_append (Marked.spell placeholder x)
    (Placeholder.isNumber_ofNat h.tag.2)
  rw [← hph] at htrailing
  simp [Layout.endsInComment, htrailing, hmem]

/-- Separators keep the hits of the tokens. -/
theorem hits_weave {ps : List (Text × Marked (Kind × Nat))}
    (hblank : ∀ p ∈ ps, Text.isAllBlank p.1 = true) (htokens : ps.map Prod.snd = m.tokens) :
    (Marked.weave ps).hits = m.hits := by
  rw [← Marked.hits_strip, Marked.strip_weave hblank, htokens, Marked.strip_tokens,
    Marked.hits_strip]

/-- The separators of the layout are right for the tokens of the marked text. -/
theorem Represents.isChain_follows (h : d.Represents m)
    (htokens : d.tokens = m.tokens.map (Marked.spell placeholder)) :
    ((Layout.Place.separators o d.lineComments {} d.tokens).zip m.tokens).IsChain
      (Marked.Follows fun h => h.isLine = true ∧ h ∈ m.hits) := by
  have hchain := Layout.isChain_follows_separators o d.lineComments {} d.tokens
  nth_rewrite 2 [htokens] at hchain
  rw [List.zip_map_right, List.isChain_map] at hchain
  -- what the layout says of the written tokens is true of the tokens as marked texts
  refine hchain.imp fun p q hpq => ⟨fun hnil => ?_, fun x hx hline => ?_⟩
  · exact (hpq.1 hnil).imp getLast?_of_suffix_spell isMark_of_isMark_spell
  · refine hpq.2 (endsInComment_spell hx hline.1 ?_)
    rw [h.lineComments_eq, List.mem_reverse]
    exact List.mem_map_of_mem (List.mem_filter.2 ⟨hline.2, hline.1⟩)

/-- A layout that goes well changes the text and nothing else. -/
theorem exists_text_of_layout {d' : Draft} (h : d.layout o = .ok d') :
    ∃ text, Layout.layout o d.lineComments d.tokens = .ok text ∧ d' = { d with text } := by
  unfold Draft.layout at h
  cases hlay : Layout.layout o d.lineComments d.tokens with
  | error e => simp [hlay, bind, Except.bind] at h
  | ok text =>
    simp only [hlay, bind, Except.bind, pure, Except.pure, Except.ok.injEq] at h
    exact ⟨text, rfl, h.symm⟩

/-- A laid-out draft stands for the tokens with the separators of the layout. -/
theorem Represents.weave (h : d.Represents m) (ho : Text.isAllBlank o.indentText = true)
    (hlast : ∀ a ∈ m.getLast?, Symbol.isBlank a = false)
    (htokens : d.tokens = m.tokens.map (Marked.spell placeholder)) {d' : Draft}
    (hd' : d.layout o = .ok d') :
    d'.Represents
      (Marked.weave ((Layout.Place.separators o d.lineComments {} d.tokens).zip m.tokens)) := by
  obtain ⟨s, hlay, rfl⟩ := exists_text_of_layout hd'
  have hsolid : ∀ t ∈ d.tokens, Token.Solid t := by
    intro t ht
    rw [htokens, List.mem_map] at ht
    obtain ⟨u, hu, rfl⟩ := ht
    obtain ⟨x, a, rfl, ha⟩ := Marked.exists_concat_of_mem_tokens hlast hu
    exact solid_spell ha
  have hs := Layout.eq_weave_of_layout hsolid hlay
  nth_rewrite 2 [htokens] at hs
  rw [List.zip_map_right] at hs
  have hblank : ∀ p ∈ (Layout.Place.separators o d.lineComments {} d.tokens).zip m.tokens,
      Text.isAllBlank p.1 = true :=
    fun p hp => Layout.isAllBlank_of_mem_separators ho _ (List.of_mem_zip hp).1
  have hhits := hits_weave hblank (List.map_snd_zip (by simp [htokens]))
  exact ⟨hs.trans (Marked.spell_weave _ _).symm, by rw [hhits, ← h.literals_eq],
    by rw [hhits, ← h.lineComments_eq], by rw [hhits]; exact h.nodup⟩

end Layout

end Draft

/-! ### Formatting -/

/-- The draft of a text before its layout. -/
def ready (o : Options) (s : Text) : Draft :=
  (({ text := s } : Draft).preserve.collapse.recase o).tokenize

/-- The draft of a text after its layout, before its literals are put back. -/
def laidOut (o : Options) (s : Text) : Except Fault Draft := (ready o s).layout o

/-- The layout finds the tokens that are there. -/
theorem Draft.ensureTokens_tokenize (d : Draft) : d.tokenize.ensureTokens = d.tokenize := by
  unfold Draft.ensureTokens
  split <;> rfl

/-- A text whose layout goes well is formatted by putting its literals back.  The stages before the
layout do not fail, so that `laidOut` decides. -/
theorem formatReport_of_laidOut_ok {o : Options} {s : Text} (hs : Text.isAllBlank s = false)
    {d : Draft} (h : laidOut o s = .ok d) :
    (formatReport o s).text = d.restore.text ∧ (formatReport o s).fault = none := by
  unfold laidOut ready at h
  simp [formatReport, formatWith, hs, standardSteps, Pass.all, Pass.step, Step.runAll, Pass.run,
    Draft.ensureTokens_tokenize, h]

/-- A text whose layout fails is left as it was. -/
theorem formatReport_of_laidOut_error {o : Options} {s : Text} (hs : Text.isAllBlank s = false)
    {e : Fault} (h : laidOut o s = .error e) :
    (formatReport o s).text = s ∧ (formatReport o s).fault = some e := by
  unfold laidOut ready at h
  simp [formatReport, formatWith, hs, standardSteps, Pass.all, Pass.step, Step.runAll, Pass.run,
    Draft.ensureTokens_tokenize, h]

/-- A text of blanks is left as it was. -/
theorem formatReport_of_isAllBlank (o : Options) {s : Text} (hs : Text.isAllBlank s = true) :
    formatReport o s = { text := s } := by
  simp [formatReport, formatWith, hs]

/-- The tokens of a text are those of the marked text, with its words recased.  The draft that they
are found in stands for the marked text. -/
theorem tokens_ready (o : Options) {s : Text} (hs : (marked s).Unfenced) :
    (ready o s).tokens =
        (((marked s).collapse.recase o).tokens).map (Marked.spell Draft.placeholder) ∧
      (ready o s).Represents ((marked s).collapse.recase o) := by
  have hrep := ((Draft.represents_preserve s).collapse).recase hs.collapse o
  refine ⟨?_, hrep.text_eq, hrep.literals_eq, hrep.lineComments_eq, hrep.nodup⟩
  rw [ready, Draft.tokenize]
  exact (congrArg tokenize hrep.text_eq).trans (Marked.tokenize_spell Draft.wordlike_placeholder
    ((unclosed_marked s).collapse.of_fold_eq (Marked.fold_recase o _).symm))

/-- The tokens of a text, recased by the options `o`, as the layout sets them apart. -/
structure LaidTokens (o : Options) (s : Text) (ps : List (Text × Marked (Kind × Nat))) : Prop where
  /-- The tokens come in order. -/
  tokens_eq : ps.map Prod.snd = ((marked s).collapse.recase o).tokens
  /-- The separators are blank. -/
  blank : ∀ p ∈ ps, Text.isAllBlank p.1 = true
  /-- Every separator is right for its place. -/
  follows : ps.IsChain (Marked.Follows fun h => h.isLine = true ∧ h ∈ (marked s).hits)
  /-- Nothing in a gap looks like a placeholder. -/
  unfenced : (Marked.weave ps).Unfenced

/-- The stages before the layout keep the hits. -/
theorem hits_collapse_recase (o : Options) (m : Marked (Kind × Nat)) :
    (m.collapse.recase o).hits = m.hits := by
  rw [Marked.recase, Marked.hits_mapGaps, Marked.hits_collapse]

/-- The layout keeps the hits. -/
theorem LaidTokens.hits_eq {o : Options} {s : Text} {ps : List (Text × Marked (Kind × Nat))}
    (h : LaidTokens o s ps) : (Marked.weave ps).hits = (marked s).hits := by
  rw [Draft.hits_weave h.blank h.tokens_eq, hits_collapse_recase]

/-- Nothing but blanks and case tells the laid-out tokens from the text. -/
theorem LaidTokens.fold_strip {o : Options} {s : Text} {ps : List (Text × Marked (Kind × Nat))}
    (h : LaidTokens o s ps) : (Marked.weave ps).strip.fold = (marked s).strip.fold := by
  rw [Marked.strip_weave h.blank, h.tokens_eq, Marked.strip_tokens, Marked.fold_strip_recase,
    Marked.strip_collapse]

/-- The tokens of a text with the separators that the layout gives them. -/
def arranged (o : Options) (s : Text) : List (Text × Marked (Kind × Nat)) :=
  (Layout.Place.separators o (ready o s).lineComments {} (ready o s).tokens).zip
    ((marked s).collapse.recase o).tokens

/-- The separators of the layout set the tokens of a text apart as they should. -/
theorem laidTokens_arranged {o : Options} (ho : Text.isAllBlank o.indentText = true) {s : Text}
    (hs : (marked s).Unfenced) : LaidTokens o s (arranged o s) := by
  obtain ⟨htokens, hrep⟩ := tokens_ready o hs
  have hchain := hrep.isChain_follows (o := o) htokens
  rw [hits_collapse_recase] at hchain
  have hblank : ∀ p ∈ arranged o s, Text.isAllBlank p.1 = true := fun p hp =>
    Layout.isAllBlank_of_mem_separators ho _ (List.of_mem_zip hp).1
  refine ⟨List.map_snd_zip (by simp [htokens]), hblank, hchain,
    Marked.unfenced_weave hblank hchain fun p hp => ?_⟩
  have hfence : ((marked s).collapse.recase o).Unfenced :=
    hs.collapse.of_fold_eq (Marked.fold_recase o _).symm
  exact hfence.of_isInfix (Marked.infix_of_mem_tokens (List.of_mem_zip hp).2)

/-- A laid-out draft stands for the tokens of the text, with the separators of the layout. -/
theorem represents_arranged {o : Options} (ho : Text.isAllBlank o.indentText = true) {s : Text}
    (hs : (marked s).Unfenced) {d : Draft} (h : laidOut o s = .ok d) :
    d.Represents (Marked.weave (arranged o s)) := by
  obtain ⟨htokens, hrep⟩ := tokens_ready o hs
  have hfold := Marked.fold_recase o (marked s).collapse
  have hlast := Marked.isBlank_getLast?_of_fold_eq hfold.symm (Marked.isBlank_getLast?_collapse _)
  exact hrep.weave ho hlast htokens h

/-- A laid-out draft stands for tokens that are set apart as they should be. -/
theorem exists_weave_of_laidOut {o : Options} (ho : Text.isAllBlank o.indentText = true) {s : Text}
    (hs : (marked s).Unfenced) {d : Draft} (h : laidOut o s = .ok d) :
    ∃ ps, LaidTokens o s ps ∧ d.Represents (Marked.weave ps) :=
  ⟨arranged o s, laidTokens_arranged ho hs, represents_arranged ho hs h⟩

/-- The layout of a text fails if and only if some level does not fit. -/
theorem exists_laidOut_eq_error_iff {o : Options} {s : Text} :
    (∃ e, laidOut o s = .error e) ↔
      ∃ k ∈ Layout.Place.allLevels (ready o s).lineComments {} (ready o s).tokens, ¬o.Fits k := by
  rw [← Layout.exists_layout_eq_error_iff, laidOut, Draft.layout]
  cases Layout.layout o (ready o s).lineComments (ready o s).tokens <;>
    simp [bind, Except.bind, pure, Except.pure]

/-- Formatting leaves a text alone if it is blank or some level does not fit. -/
def LeftAlone (o : Options) (s : Text) : Prop :=
  Text.isAllBlank s = true ∨
    ∃ k ∈ Layout.Place.allLevels (ready o s).lineComments {} (ready o s).tokens, ¬o.Fits k

instance (o : Options) (s : Text) : Decidable (LeftAlone o s) :=
  inferInstanceAs (Decidable (_ ∨ _))

/-- The formatted text, with its literals as hits. -/
def formatted (o : Options) (s : Text) : Marked (Kind × Nat) :=
  if LeftAlone o s then marked s else Marked.weave (arranged o s)

/-- A text is not left alone if there is something in it and its layout goes well. -/
theorem not_leftAlone_iff {o : Options} {s : Text} :
    ¬LeftAlone o s ↔ Text.isAllBlank s = false ∧ ∃ d, laidOut o s = .ok d := by
  rw [LeftAlone, ← exists_laidOut_eq_error_iff, not_or, Bool.not_eq_true]
  cases laidOut o s <;> simp

/-- The formatted text is the text of `formatted`.  This is the link between the formatter and
everything that is proved about marked texts. -/
theorem text_formatted {o : Options} (ho : Text.isAllBlank o.indentText = true) {s : Text}
    (hs : (marked s).Unfenced) : (formatted o s).text = format o s := by
  unfold formatted
  split
  · next h =>
    rw [text_marked, format]
    rcases h with hblank | h
    · rw [formatReport_of_isAllBlank o hblank]
    · obtain ⟨e, he⟩ := exists_laidOut_eq_error_iff.2 h
      cases hblank : Text.isAllBlank s with
      | true => rw [formatReport_of_isAllBlank o hblank]
      | false => rw [(formatReport_of_laidOut_error hblank he).1]
  · next h =>
    obtain ⟨hblank, d, hd⟩ := not_leftAlone_iff.1 h
    rw [format, (formatReport_of_laidOut_ok hblank hd).1,
      (represents_arranged ho hs hd).restore_text (laidTokens_arranged ho hs).unfenced]

/-- A formatted text has the literals of the text it came from, in the same order. -/
theorem hits_formatted {o : Options} (ho : Text.isAllBlank o.indentText = true) {s : Text}
    (hs : (marked s).Unfenced) : (formatted o s).hits = (marked s).hits := by
  unfold formatted
  split
  · rfl
  · exact (laidTokens_arranged ho hs).hits_eq

/-- The literals of a formatted text, and the gaps between them. -/
def formattedCut (o : Options) (s : Text) : Cut Kind :=
  ((formatted o s).mapHits Hit.unnumbered).cut

/-- The cut of a formatted text makes it up. -/
theorem join_formattedCut {o : Options} (ho : Text.isAllBlank o.indentText = true) {s : Text}
    (hs : (marked s).Unfenced) : (formattedCut o s).join = format o s := by
  rw [formattedCut, Cut.join_eq_text, Marked.symbols_cut, Marked.text_mapHits_unnumbered,
    text_formatted ho hs]

/-- A formatted text has the same literals, without regard to their numbers. -/
theorem hits_formattedCut {o : Options} (ho : Text.isAllBlank o.indentText = true) {s : Text}
    (hs : (marked s).Unfenced) : (formattedCut o s).hits = (Literal.cut s).hits := by
  rw [formattedCut, Marked.hits_cut, Marked.hits_mapHits, hits_formatted ho hs,
    ← Marked.hits_mapHits, mapHits_marked, Cut.hits_symbols]

end SqlTidy
