import SqlTidy.Proofs.Draft

/-!
# The table of literals

The passes may be run on a draft in any order and any number of times, each with options of its own,
and a pass may be run after another has failed.  Only the first of them, which sets literals aside,
touches the table of literals, and it numbers them on from those that are there.  So the table only
ever grows at its end, and its placeholders are numbered in the order of its entries.

## Main definitions

* `Draft.after d passes` — the draft after some passes.
* `Draft.Keeps d hits` — the table of `d` has the literals `hits` in it, numbered from zero on.

## Main results

* `Draft.Keeps.preserve`, `Draft.Keeps.run`, `Draft.Keeps.after` — what setting literals aside, one
  pass, and a run of passes add to the table.
* `literals_after` — the table of literals after any run of passes.
-/

namespace SqlTidy

open Literal (Kind)

/-! ### Literals by themselves -/

namespace Literal.Stands

variable {kind : Kind} {t r : Text}

/-- A literal is still one where nothing follows it. -/
theorem alone (h : Stands kind t r) : Stands kind t [] :=
  h.before (fun _ _ => by simp) (fun _ => by simp)

/-- A literal that stands alone is read as a whole. -/
theorem read_eq (h : Stands kind t []) : read t = some (kind, t.length) := by
  have := read_append_iff.2 h
  rwa [List.append_nil] at this

/-- A line comment is known by the two hyphens at its front. -/
theorem hyphens_prefix_iff (h : Stands kind t r) : ['-', '-'] <+: t ↔ kind = .lineComment := by
  -- a line comment begins with hyphens, the others with a quote or a slash
  cases h with
  | @quoted _ q b _ hkind _ =>
    constructor
    · intro hprefix
      obtain rfl : '-' = q := (List.cons_prefix_cons.1 hprefix).1
      cases Kind.isQuote_of_quote? hkind
    · rintro rfl
      cases hkind
  | line => simp [List.cons_prefix_cons]
  | block => simp [List.cons_prefix_cons]

end Literal.Stands

/-! ### Setting literals aside -/

namespace Draft

/-- The table of a draft has the given literals in it, numbered from zero on. -/
structure Keeps (d : Draft) (hits : List (Hit (Kind × Nat))) : Prop where
  /-- The entries are the literals by their placeholders. -/
  literals_eq : d.literals = hits.map fun h => (placeholder h, h.text)
  /-- The literals are numbered in order. -/
  numbers_eq : hits.map (·.tag.2) = List.range' 0 hits.length
  /-- They are literals of their kinds. -/
  stands : ∀ h ∈ hits, Literal.Stands h.tag.1 h.text []
  /-- The draft knows which of them are line comments. -/
  mem_lineComments_iff : ∀ p, p ∈ d.lineComments ↔ ∃ h ∈ hits, h.isLine = true ∧ placeholder h = p

variable {d : Draft} {hits : List (Hit (Kind × Nat))}

/-- A new draft has no literals in its table. -/
theorem keeps_nil (s : Text) : ({ text := s } : Draft).Keeps [] :=
  ⟨rfl, rfl, by simp, by simp⟩

/-- The literals that are found in a draft, numbered on from those in its table. -/
theorem hits_found (d : Draft) :
    d.found.hits = (Marked.number d.literals.length (Literal.cut d.text).symbols).hits := by
  rw [found, ← Cut.hits_symbols, Cut.symbols_numbered]

/-- The literals that are found are numbered on from those in the table. -/
theorem numbers_found (d : Draft) :
    d.found.hits.map (·.tag.2) = List.range' d.literals.length d.found.hits.length := by
  have hnumbers := Marked.numbers_number d.literals.length (Literal.cut d.text).symbols
  rw [← hits_found] at hnumbers
  have hlength := congrArg List.length hnumbers
  rw [List.length_map, List.length_range'] at hlength
  rw [hnumbers, hlength]

/-- The literals that are found are literals of their kinds, also by themselves. -/
theorem stands_of_mem_found (d : Draft) :
    ∀ h ∈ d.found.hits, Literal.Stands h.tag.1 h.text [] := by
  intro h hh
  -- without its number, the literal is one that the recogniser found
  have hmem : h.unnumbered ∈ (Literal.cut d.text).hits := by
    rw [← Cut.hits_symbols, ← Marked.mapHits_number d.literals.length (Literal.cut d.text).symbols,
      Marked.hits_mapHits, ← hits_found]
    exact List.mem_map_of_mem hh
  obtain ⟨r, hr⟩ := exists_stands_of_mem_hits_cut d.text h.unnumbered hmem
  exact hr.alone

/-- Line comments are collected beside those that are known, whatever the order. -/
theorem mem_foldl_insert_comments_iff {p : Text} (hs : List (Hit (Kind × Nat))) (l : List Text) :
    p ∈ hs.foldl (fun l hit =>
        if hit.tag.1 = .lineComment then l.insert (placeholder hit) else l) l ↔
      p ∈ l ∨ ∃ h ∈ hs, h.isLine = true ∧ placeholder h = p := by
  induction hs generalizing l with
  | nil => simp
  | cons x hs ih =>
    rw [List.foldl_cons, ih]
    by_cases hx : x.tag.1 = .lineComment
    · rw [if_pos hx, List.mem_insert_iff, or_comm (a := p = placeholder x), or_assoc]
      simp [hx, Hit.isLine, eq_comm]
    · simp [hx, Hit.isLine]

/-- Setting literals aside adds them at the end of the table. -/
theorem Keeps.preserve (h : d.Keeps hits) : d.preserve.Keeps (hits ++ d.found.hits) := by
  have hlength : d.literals.length = hits.length := by rw [h.literals_eq, List.length_map]
  have hnumbers : (hits ++ d.found.hits).map (·.tag.2) =
      List.range' 0 (hits ++ d.found.hits).length := by
    rw [List.map_append, h.numbers_eq, numbers_found, hlength, List.length_append]
    simpa using List.range'_append_1 (s := 0) (m := hits.length) (n := d.found.hits.length)
  -- the numbers go on, so that no new placeholder is in the table
  have hnodup := nodup_placeholder hnumbers
  refine ⟨?_, hnumbers, ?_, fun p => ?_⟩
  · have hkeys : Table.keys d.literals = hits.map placeholder := by
      rw [h.literals_eq, Table.keys, List.map_map]
      rfl
    rw [Draft.preserve, List.map_append, ← h.literals_eq]
    refine Table.foldl_insert placeholder Hit.text _ ?_
    rwa [hkeys, ← List.map_append]
  · intro x hx
    rcases List.mem_append.1 hx with hx | hx
    · exact h.stands x hx
    · exact stands_of_mem_found d x hx
  · rw [Draft.preserve, mem_foldl_insert_comments_iff, h.mem_lineComments_iff]
    simp only [List.mem_append, or_and_right, exists_or]

/-! ### Runs of passes -/

/-- Nothing but the table and the line comments matters. -/
theorem Keeps.of_literals_eq (h : d.Keeps hits) {d' : Draft} (hliterals : d'.literals = d.literals)
    (hcomments : d'.lineComments = d.lineComments) : d'.Keeps hits :=
  ⟨hliterals.trans h.literals_eq, h.numbers_eq, h.stands, hcomments ▸ h.mem_lineComments_iff⟩

/-- Splitting into tokens leaves the table alone. -/
theorem ensureTokens_literals (d : Draft) :
    d.ensureTokens.literals = d.literals ∧ d.ensureTokens.lineComments = d.lineComments := by
  unfold ensureTokens
  split <;> exact ⟨rfl, rfl⟩

/-- No pass but the first touches the table. -/
theorem run_literals (o : Options) {p : Pass} (hp : p ≠ .preserve) (d : Draft) :
    (p.run o d).draft.literals = d.literals ∧ (p.run o d).draft.lineComments = d.lineComments := by
  cases p with
  | preserve => exact absurd rfl hp
  | collapse => exact ⟨rfl, rfl⟩
  | recase => exact ⟨rfl, rfl⟩
  | tokenize => exact ⟨rfl, rfl⟩
  -- the layout changes the text if it goes well, and the draft is kept if it fails
  | layout =>
    have htokens := ensureTokens_literals d
    simp only [Pass.run]
    split
    · next d' hd' =>
      obtain ⟨text, -, rfl⟩ := exists_text_of_layout hd'
      exact htokens
    · exact htokens
  | restore =>
    simp only [Pass.run, restore]
    split <;> exact ⟨rfl, rfl⟩

/-- A pass adds to the table at its end, or not at all. -/
theorem Keeps.run (h : d.Keeps hits) (o : Options) (p : Pass) :
    ∃ more, (p.run o d).draft.Keeps (hits ++ more) := by
  by_cases hp : p = .preserve
  · subst hp
    exact ⟨_, h.preserve⟩
  · obtain ⟨hliterals, hcomments⟩ := run_literals o hp d
    exact ⟨[], by simpa using h.of_literals_eq hliterals hcomments⟩

/-- The draft after some passes, each with its options.  A pass that fails leaves the draft to the
next one as it is then. -/
def after (d : Draft) (passes : List (Options × Pass)) : Draft :=
  passes.foldl (fun d p => (p.2.run p.1 d).draft) d

/-- Passes can be run in two stages. -/
theorem after_append (d : Draft) (passes more : List (Options × Pass)) :
    d.after (passes ++ more) = (d.after passes).after more := List.foldl_append

/-- A run of passes adds to the table at its end. -/
theorem Keeps.after (h : d.Keeps hits) (passes : List (Options × Pass)) :
    ∃ more, (d.after passes).Keeps (hits ++ more) := by
  induction passes generalizing d hits with
  | nil => exact ⟨[], by rwa [List.append_nil]⟩
  | cons p passes ih =>
    obtain ⟨more, hmore⟩ := h.run p.1 p.2
    obtain ⟨rest, hrest⟩ := ih hmore
    exact ⟨more ++ rest, by rwa [← List.append_assoc]⟩

/-- The number of a literal is its place in the table. -/
theorem Keeps.exists_kind (h : d.Keeps hits) {i : Nat} {p t : Text}
    (hi : d.literals[i]? = some (p, t)) :
    ∃ kind, p = Placeholder.ofLiteral kind i ∧ Literal.read t = some (kind, t.length) := by
  rw [h.literals_eq, List.getElem?_map, Option.map_eq_some_iff] at hi
  obtain ⟨x, hx, heq⟩ := hi
  obtain ⟨rfl, rfl⟩ := Prod.mk.inj heq
  -- the numbers are those of the places
  have hnumber : x.tag.2 = i := by
    have hlt : i < hits.length := (List.getElem?_eq_some_iff.1 hx).1
    have hget : (hits.map (·.tag.2))[i]? = some i := by
      rw [h.numbers_eq, List.getElem?_range' hlt, Nat.zero_add, Nat.one_mul]
    rw [List.getElem?_map, hx] at hget
    exact Option.some.inj hget
  refine ⟨x.tag.1, ?_, (h.stands x (List.mem_of_getElem? hx)).read_eq⟩
  rw [placeholder, hnumber]

/-- The line comments in the table are known by the hyphens at their front. -/
theorem Keeps.mem_lineComments_iff_hyphens (h : d.Keeps hits) (p : Text) :
    p ∈ d.lineComments ↔ ∃ t, (p, t) ∈ d.literals ∧ ['-', '-'] <+: t := by
  have hline : ∀ x ∈ hits, x.isLine = true ↔ ['-', '-'] <+: x.text := by
    intro x hx
    rw [(h.stands x hx).hyphens_prefix_iff, Hit.isLine, decide_eq_true_iff]
  rw [h.mem_lineComments_iff, h.literals_eq]
  constructor
  · rintro ⟨x, hx, hxline, rfl⟩
    exact ⟨x.text, List.mem_map_of_mem hx, (hline x hx).1 hxline⟩
  · rintro ⟨t, ht, hprefix⟩
    obtain ⟨x, hx, heq⟩ := List.mem_map.1 ht
    obtain ⟨rfl, rfl⟩ := Prod.mk.inj heq
    exact ⟨x, hx, (hline x hx).2 hprefix, rfl⟩

end Draft

/-- After any run of passes over a new draft, the placeholders in the table of literals are numbered
in the order of the entries, every entry is a complete literal of the kind that its placeholder
says, and the line comments are the entries that begin with two hyphens.  Whatever is run after that
leaves these entries as they are. -/
theorem literals_after (s : Text) (passes more : List (Options × Pass)) :
    let d := ({ text := s } : Draft).after passes
    (∀ i p t, d.literals[i]? = some (p, t) →
      ∃ kind, p = Placeholder.ofLiteral kind i ∧ Literal.read t = some (kind, t.length)) ∧
    (∀ p, p ∈ d.lineComments ↔ ∃ t, (p, t) ∈ d.literals ∧ ['-', '-'] <+: t) ∧
    d.literals <+: (({ text := s } : Draft).after (passes ++ more)).literals := by
  intro d
  obtain ⟨hits, hkeeps⟩ := (Draft.keeps_nil s).after passes
  rw [List.nil_append] at hkeeps
  -- what is run later adds literals behind these
  obtain ⟨rest, hrest⟩ := hkeeps.after more
  refine ⟨fun i p t => hkeeps.exists_kind, hkeeps.mem_lineComments_iff_hyphens, ?_⟩
  rw [Draft.after_append, hkeeps.literals_eq, hrest.literals_eq, List.map_append]
  exact List.prefix_append _ _

/-- Literals are set aside, a layout fails, the literals are put back and set aside once more. -/
theorem literals_after_fault :
    let wide : Options := { indentSize := 9223372036854775808 }
    let passes : List (Options × Pass) :=
      [({}, .preserve), (wide, .layout), ({}, .restore), ({}, .preserve)]
    let more : List (Options × Pass) := [({}, .restore), ({}, .preserve)]
    let start : Draft := { text := "select 'a' --b\n'c".toList }
    (Pass.layout.run wide (start.after [({}, .preserve)])).fault = some .indentTooWide ∧
    (start.after passes).literals[3]? = some ("___COMMENT_3___".toList, "--b".toList) ∧
    (∃ kind, "___COMMENT_3___".toList = Placeholder.ofLiteral kind 3 ∧
      Literal.read "--b".toList = some (kind, "--b".toList.length)) ∧
    "___COMMENT_3___".toList ∈ (start.after passes).lineComments ∧
    (start.after passes).literals <+: (start.after (passes ++ more)).literals ∧
    (start.after (passes ++ more)).literals.length = 6 := by
  intro wide passes more start
  obtain ⟨hentries, hcomments, hgrows⟩ := literals_after "select 'a' --b\n'c".toList passes more
  have hentry : (start.after passes).literals[3]? =
      some ("___COMMENT_3___".toList, "--b".toList) := by
    decide +kernel
  refine ⟨by decide +kernel, hentry, hentries 3 _ _ hentry, (hcomments _).2 ⟨"--b".toList, ?_, ?_⟩,
    hgrows, by decide +kernel⟩
  · exact List.mem_of_getElem? hentry
  · exact ⟨['b'], rfl⟩

end SqlTidy
