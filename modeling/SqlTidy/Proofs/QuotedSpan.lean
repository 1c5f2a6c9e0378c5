import SqlTidy.Proofs.Literal

/-!
# Units of a quoted span

A quoted span is read in units: a backslash with the character after it, the quote written twice, or
any one other character.  A scan takes units as long as there are any.  It stops at a quote that is
not written twice, or it runs off the end of the text.  A token ends where the scan does.  A literal
ends there too if the scan was stopped; if it ran off the end, the last quote that was written twice
is torn apart, and its first half closes the literal.

## Main definitions

* `Text.SpanUnit`, `Text.ofUnits` — units of a span, and how they are written.
* `Text.scan q s` — the units at the front of `s`, and what is left of it.
* `Text.Scanned q s us rest` — what a scan that takes `us` and leaves `rest` says about `s`.
* `Text.Completes q s n` — the first `n` characters of `s` are units and a closing quote.

## Main results

* `Text.closing_eq_some_iff` — a literal takes as much as it can to be complete.
* `Text.completes_ofUnits_append_iff` — where a span can be completed that begins with given units.
* `Text.read_spanEnd_of_scan` — how far a literal and a token go, by the units of the span.
-/

namespace SqlTidy
namespace Text

/-! ### Units -/

/-- A unit of a quoted span. -/
inductive SpanUnit
  /-- A backslash and the character after it. -/
  | escaped (c : Char)
  /-- The quote of the span, written twice. -/
  | doubled
  /-- Any other character. -/
  | single (c : Char)
  deriving DecidableEq, Repr

/-- A unit as it is written in a span opened by `q`. -/
def SpanUnit.text (q : Char) : SpanUnit → Text
  | escaped c => ['\\', c]
  | doubled => [q, q]
  | single c => [c]

/-- A unit can stand in a span opened by `q`: a single character is neither a backslash nor `q`. -/
def SpanUnit.Fits (q : Char) : SpanUnit → Prop
  | single c => c ≠ '\\' ∧ c ≠ q
  | _ => True

/-- Units as they are written in a span opened by `q`. -/
def ofUnits (q : Char) (us : List SpanUnit) : Text := us.flatMap (SpanUnit.text q)

@[simp] theorem ofUnits_nil (q : Char) : ofUnits q [] = [] := rfl

@[simp] theorem ofUnits_cons (q : Char) (u : SpanUnit) (us : List SpanUnit) :
    ofUnits q (u :: us) = u.text q ++ ofUnits q us := rfl

@[simp] theorem ofUnits_append (q : Char) (us vs : List SpanUnit) :
    ofUnits q (us ++ vs) = ofUnits q us ++ ofUnits q vs :=
  List.flatMap_append

/-- Takes units from the front of a text as long as there are any, and gives them with what is left
of the text. -/
def scan (q : Char) : Text → List SpanUnit × Text
  | [] => ([], [])
  | [c] => if c = '\\' ∨ c = q then ([], [c]) else ([.single c], [])
  | c :: d :: r =>
    if c = '\\' then (.escaped d :: (scan q r).1, (scan q r).2)
    else if c = q then
      if d = q then (.doubled :: (scan q r).1, (scan q r).2) else ([], c :: d :: r)
    else (.single c :: (scan q (d :: r)).1, (scan q (d :: r)).2)

/-- What is left after a scan: nothing, a backslash that escapes nothing, or a quote that is not
written twice. -/
def Stops (q : Char) (rest : Text) : Prop :=
  rest = [] ∨ rest = ['\\'] ∨ ∃ r, rest = q :: r ∧ r.head? ≠ some q

/-- The text `s` is made of the units `us` and of `rest`, where a scan stops. -/
structure Scanned (q : Char) (s : Text) (us : List SpanUnit) (rest : Text) : Prop where
  /-- Nothing is left out. -/
  eq_append : s = ofUnits q us ++ rest
  /-- The units can stand in the span. -/
  fits : ∀ u ∈ us, u.Fits q
  /-- There is no further unit. -/
  stops : Stops q rest

variable {q : Char} {s rest : Text} {us : List SpanUnit}

/-- A unit in front of a text is one more unit of its scan. -/
theorem Scanned.cons {u : SpanUnit} (hu : u.Fits q) (h : Scanned q s us rest) :
    Scanned q (u.text q ++ s) (u :: us) rest where
  eq_append := by rw [ofUnits_cons, List.append_assoc, ← h.eq_append]
  fits := List.forall_mem_cons.2 ⟨hu, h.fits⟩
  stops := h.stops

/-- A scan takes units, and stops where there is none. -/
theorem scanned_scan (q : Char) (s : Text) : Scanned q s (scan q s).1 (scan q s).2 := by
  fun_induction scan q s with
  | case1 => exact ⟨rfl, by simp, .inl rfl⟩
  | case2 c hc =>
    refine ⟨rfl, by simp, .inr ?_⟩
    rcases hc with rfl | rfl
    · exact .inl rfl
    · exact .inr ⟨[], rfl, by simp⟩
  | case3 c hc => exact ⟨rfl, by simpa [SpanUnit.Fits] using hc, .inl rfl⟩
  | case4 d r ih => exact ih.cons (u := .escaped d) trivial
  | case5 r hq ih => exact ih.cons (u := .doubled) trivial
  | case6 d r hd hq => exact ⟨rfl, by simp, .inr (.inr ⟨d :: r, rfl, by simpa using hd⟩)⟩
  | case7 c d r hc hcq ih => exact ih.cons (u := .single c) ⟨hc, hcq⟩

/-! ### Tokens -/

/-- A unit belongs to the span of a token. -/
theorem spanLength_unit_append (hq : q ≠ '\\') {u : SpanUnit} (hu : u.Fits q) (s : Text) :
    spanLength q (u.text q ++ s) = (u.text q).length + spanLength q s := by
  cases u with
  | escaped c =>
    show spanLength q ('\\' :: c :: s) = 2 + spanLength q s
    rw [spanLength, if_pos rfl, Nat.add_comm]
  | doubled =>
    show spanLength q (q :: q :: s) = 2 + spanLength q s
    rw [spanLength, if_neg hq, if_pos rfl, if_pos rfl, Nat.add_comm]
  | single c =>
    show spanLength q (c :: s) = 1 + spanLength q s
    cases s with
    | nil => rfl
    | cons d s => rw [spanLength, if_neg hu.1, if_neg hu.2, Nat.add_comm]

/-- Units belong to the span of a token, however many. -/
theorem spanLength_ofUnits_append (hq : q ≠ '\\') (hus : ∀ u ∈ us, u.Fits q) (s : Text) :
    spanLength q (ofUnits q us ++ s) = (ofUnits q us).length + spanLength q s := by
  induction us with
  | nil => simp
  | cons u us ih =>
    obtain ⟨hu, hus⟩ := List.forall_mem_cons.1 hus
    rw [ofUnits_cons, List.append_assoc, spanLength_unit_append hq hu, ih hus, List.length_append,
      Nat.add_assoc]

/-- A quote that is not written twice closes the span. -/
theorem spanLength_quote (hq : q ≠ '\\') {r : Text} (hr : r.head? ≠ some q) :
    spanLength q (q :: r) = 1 := by
  cases r with
  | nil => rfl
  | cons d r =>
    have hd : d ≠ q := by simpa using hr
    rw [spanLength, if_neg hq, if_pos rfl, if_neg hd]

/-- A span that a scan finds no end of takes the whole text. -/
theorem Scanned.spanLength_of_head?_ne (h : Scanned q s us rest) (hq : q ≠ '\\')
    (hrest : rest.head? ≠ some q) : spanLength q s = s.length := by
  -- the scan stopped at the end of the text or at its last backslash
  have hlast : spanLength q rest = rest.length := by
    rcases h.stops with rfl | rfl | ⟨r, rfl, -⟩
    · rfl
    · rfl
    · exact absurd rfl hrest
  rw [h.eq_append, spanLength_ofUnits_append hq h.fits, hlast, List.length_append]

/-- A span that a scan finds the end of ends there. -/
theorem Scanned.spanLength_of_head?_eq (h : Scanned q s us rest) (hq : q ≠ '\\')
    (hrest : rest.head? = some q) : spanLength q s = (ofUnits q us).length + 1 := by
  rcases h.stops with rfl | rfl | ⟨r, rfl, hr⟩
  · cases hrest
  · exact absurd (Option.some.inj hrest).symm hq
  · rw [h.eq_append, spanLength_ofUnits_append hq h.fits, spanLength_quote hq hr]

/-! ### Literals -/

/-- The first `n` characters of a text are units and a closing quote. -/
inductive Completes (q : Char) : Text → Nat → Prop
  /-- The quote closes the span, whatever follows it. -/
  | quote (s : Text) : Completes q (q :: s) 1
  /-- A unit comes first. -/
  | unit {u : SpanUnit} {s : Text} {n : Nat} :
    u.Fits q → Completes q s n → Completes q (u.text q ++ s) ((u.text q).length + n)

/-- Nothing completes a span. -/
theorem not_completes_nil {n : Nat} : ¬Completes q [] n := by
  generalize hs : ([] : Text) = s
  intro h
  cases h with
  | quote => cases hs
  | @unit u => cases u <;> cases hs

/-- A backslash alone is no unit. -/
theorem not_completes_backslash (hq : q ≠ '\\') {n : Nat} : ¬Completes q ['\\'] n := by
  generalize hs : ['\\'] = s
  intro h
  cases h with
  | quote => exact hq (List.cons.inj hs).1.symm
  | @unit u _ _ hu _ =>
    cases u with
    | escaped c => cases hs
    | doubled => cases hs
    | single c => exact hu.1 (List.cons.inj hs).1.symm

/-- A quote that is not written twice can only close the span. -/
theorem completes_quote_iff {r : Text} (hq : q ≠ '\\') (hr : r.head? ≠ some q) {n : Nat} :
    Completes q (q :: r) n ↔ n = 1 := by
  constructor
  · generalize hs : q :: r = s
    intro h
    cases h with
    | quote => rfl
    | @unit u _ _ hu _ =>
      exfalso
      cases u with
      | escaped c => exact hq (List.cons.inj hs).1
      | doubled => exact hr (by rw [(List.cons.inj hs).2]; rfl)
      | single c => exact hu.2 (List.cons.inj hs).1.symm
  · rintro rfl
    exact .quote r

/-- Where a span can be completed that begins with a unit: behind it, or in the middle of a quote
that is written twice. -/
theorem completes_unit_append_iff (hq : q ≠ '\\') {u : SpanUnit} (hu : u.Fits q) {s : Text}
    {n : Nat} :
    Completes q (u.text q ++ s) n ↔
      (u = .doubled ∧ n = 1) ∨ ∃ m, Completes q s m ∧ n = (u.text q).length + m := by
  constructor
  · generalize hs : u.text q ++ s = s'
    intro h
    cases h with
    | quote =>
      refine .inl ⟨?_, rfl⟩
      cases u with
      | escaped c => exact absurd (List.cons.inj hs).1.symm hq
      | doubled => rfl
      | single c => exact absurd (List.cons.inj hs).1 hu.2
    | @unit v r m hv hm =>
      -- the first character tells the kinds of units apart
      right
      cases u <;> cases v
      case escaped.escaped | doubled.doubled | single.single =>
        cases hs
        exact ⟨m, hm, rfl⟩
      case escaped.doubled => exact absurd (List.cons.inj hs).1.symm hq
      case escaped.single => exact absurd (List.cons.inj hs).1.symm hv.1
      case doubled.escaped => exact absurd (List.cons.inj hs).1 hq
      case doubled.single => exact absurd (List.cons.inj hs).1.symm hv.2
      case single.escaped => exact absurd (List.cons.inj hs).1 hu.1
      case single.doubled => exact absurd (List.cons.inj hs).1 hu.2
  · rintro (⟨rfl, rfl⟩ | ⟨m, hm, rfl⟩)
    · exact .quote (q :: s)
    · exact .unit hu hm

/-- Where a span can be completed that begins with units: behind them, or in the middle of a quote
among them that is written twice. -/
theorem completes_ofUnits_append_iff (hq : q ≠ '\\') (hus : ∀ u ∈ us, u.Fits q) {s : Text}
    {n : Nat} :
    Completes q (ofUnits q us ++ s) n ↔
      (∃ before after, us = before ++ .doubled :: after ∧ n = (ofUnits q before).length + 1) ∨
        ∃ m, Completes q s m ∧ n = (ofUnits q us).length + m := by
  induction us generalizing n with
  | nil => simp
  | cons u us ih =>
    obtain ⟨hu, hus⟩ := List.forall_mem_cons.1 hus
    rw [ofUnits_cons, List.append_assoc, completes_unit_append_iff hq hu]
    constructor
    · rintro (⟨rfl, rfl⟩ | ⟨m, hm, rfl⟩)
      · exact .inl ⟨[], us, rfl, rfl⟩
      · rcases (ih hus).1 hm with ⟨before, after, rfl, rfl⟩ | ⟨k, hk, rfl⟩
        · refine .inl ⟨u :: before, after, rfl, ?_⟩
          rw [ofUnits_cons, List.length_append, Nat.add_assoc]
        · exact .inr ⟨k, hk, by rw [List.length_append, Nat.add_assoc]⟩
    · rintro (⟨before, after, hsplit, rfl⟩ | ⟨k, hk, rfl⟩)
      · cases before with
        | nil =>
          obtain ⟨rfl, rfl⟩ := List.cons.inj hsplit
          exact .inl ⟨rfl, rfl⟩
        | cons v before =>
          obtain ⟨rfl, rfl⟩ := List.cons.inj hsplit
          refine .inr ⟨_, (ih hus).2 (.inl ⟨before, after, rfl, rfl⟩), ?_⟩
          rw [ofUnits_cons, List.length_append, Nat.add_assoc]
      · refine .inr ⟨_, (ih hus).2 (.inr ⟨k, hk, rfl⟩), ?_⟩
        rw [List.length_append, Nat.add_assoc]

/-- A literal can be completed where it is. -/
theorem completes_of_closing {n : Nat} (h : closing q s = some n) : Completes q s n := by
  fun_induction closing q s generalizing n with
  | case1 => cases h
  | case2 => cases h
  | case3 =>
    cases h
    exact .quote []
  | case4 => cases h
  | case5 d r ih =>
    obtain ⟨m, hm, rfl⟩ := Option.map_eq_some_iff.1 h
    rw [Nat.add_comm]
    exact .unit (u := .escaped d) trivial (ih hm)
  | case6 r _ ih =>
    rw [Option.or_eq_some_iff] at h
    rcases h with h | ⟨-, h⟩
    · obtain ⟨m, hm, rfl⟩ := Option.map_eq_some_iff.1 h
      rw [Nat.add_comm]
      exact .unit (u := .doubled) trivial (ih hm)
    · cases h
      exact .quote (q :: r)
  | case7 d r =>
    cases h
    exact .quote (d :: r)
  | case8 c d r hc hcq ih =>
    obtain ⟨m, hm, rfl⟩ := Option.map_eq_some_iff.1 h
    rw [Nat.add_comm]
    exact .unit (u := .single c) ⟨hc, hcq⟩ (ih hm)

/-- A unit in front of a span that can be completed leaves it so, and moves its end. -/
theorem closing_unit_append (hq : q ≠ '\\') {u : SpanUnit} (hu : u.Fits q) {s : Text} {n : Nat}
    (h : closing q s = some n) : closing q (u.text q ++ s) = some ((u.text q).length + n) := by
  cases u with
  | escaped c =>
    show closing q ('\\' :: c :: s) = some (2 + n)
    rw [closing_escaped, h, Option.map_some, Nat.add_comm]
  | doubled =>
    show closing q (q :: q :: s) = some (2 + n)
    rw [closing_doubled hq, h, Option.map_some, Option.some_or, Nat.add_comm]
  | single c =>
    show closing q (c :: s) = some (1 + n)
    rw [closing_other hu.1 hu.2, h, Option.map_some, Nat.add_comm]

/-- Where a literal can be completed, it is, and not before. -/
theorem exists_closing_of_completes (hq : q ≠ '\\') {m : Nat} (h : Completes q s m) :
    ∃ n, closing q s = some n ∧ m ≤ n := by
  -- by the units in front of the quote; each moves both lengths by its own
  induction h with
  | quote r =>
    by_cases hr : r.head? = some q
    · -- the quote may be half of one that is written twice
      obtain ⟨r, rfl⟩ := List.head?_eq_some_iff.1 hr
      rw [closing_doubled hq]
      cases closing q r with
      | none => exact ⟨1, rfl, Nat.le_refl 1⟩
      | some k => exact ⟨k + 2, rfl, by omega⟩
    · exact ⟨1, closing_single hq hr, Nat.le_refl 1⟩
  | unit hu _ ih =>
    obtain ⟨n, hn, hle⟩ := ih
    exact ⟨_, closing_unit_append hq hu hn, by omega⟩

/-- A literal takes as much as it can to be complete. -/
theorem closing_eq_some_iff (hq : q ≠ '\\') {n : Nat} :
    closing q s = some n ↔ Completes q s n ∧ ∀ m, Completes q s m → m ≤ n := by
  constructor
  · intro h
    refine ⟨completes_of_closing h, fun m hm => ?_⟩
    obtain ⟨n', hn', hle⟩ := exists_closing_of_completes hq hm
    rw [h] at hn'
    cases hn'
    exact hle
  · rintro ⟨hn, hmax⟩
    obtain ⟨n', hn', hle⟩ := exists_closing_of_completes hq hn
    have hle' := hmax n' (completes_of_closing hn')
    rw [hn', Nat.le_antisymm hle' hle]

/-- There is a literal if and only if one can be completed. -/
theorem closing_isSome_iff (hq : q ≠ '\\') :
    (closing q s).isSome = true ↔ ∃ n, Completes q s n := by
  rw [Option.isSome_iff_exists]
  constructor
  · rintro ⟨n, hn⟩
    exact ⟨n, completes_of_closing hn⟩
  · rintro ⟨m, hm⟩
    obtain ⟨n, hn, -⟩ := exists_closing_of_completes hq hm
    exact ⟨n, hn⟩

/-! ### By the units of the span -/

/-- Where a span can be completed that a scan finds the end of. -/
theorem Scanned.closing_of_head?_eq (h : Scanned q s us rest) (hq : q ≠ '\\')
    (hrest : rest.head? = some q) : closing q s = some ((ofUnits q us).length + 1) := by
  rcases h.stops with rfl | rfl | ⟨r, rfl, hr⟩
  · cases hrest
  · exact absurd (Option.some.inj hrest).symm hq
  · rw [h.eq_append, closing_eq_some_iff hq]
    constructor
    · exact (completes_ofUnits_append_iff hq h.fits).2 (.inr ⟨1, .quote r, rfl⟩)
    · intro m hm
      -- a quote among the units comes earlier, and behind them there is one way only
      rcases (completes_ofUnits_append_iff hq h.fits).1 hm with
        ⟨before, after, rfl, rfl⟩ | ⟨k, hk, rfl⟩
      · simp
      · rw [(completes_quote_iff hq hr).1 hk]

/-- Where a span can be completed that a scan finds no end of. -/
theorem Scanned.completes_iff (h : Scanned q s us rest) (hq : q ≠ '\\')
    (hrest : rest.head? ≠ some q) {n : Nat} :
    Completes q s n ↔
      ∃ before after, us = before ++ .doubled :: after ∧ n = (ofUnits q before).length + 1 := by
  -- what the scan leaves cannot be completed
  have hnone : ∀ m, ¬Completes q rest m := by
    intro m
    rcases h.stops with rfl | rfl | ⟨r, rfl, -⟩
    · exact not_completes_nil
    · exact not_completes_backslash hq
    · exact absurd rfl hrest
  rw [h.eq_append, completes_ofUnits_append_iff hq h.fits]
  simp [hnone]

/-- A span that a scan finds no end of is a literal if and only if a quote is written twice in it.
-/
theorem Scanned.closing_isSome_iff (h : Scanned q s us rest) (hq : q ≠ '\\')
    (hrest : rest.head? ≠ some q) : (closing q s).isSome = true ↔ .doubled ∈ us := by
  rw [Text.closing_isSome_iff hq]
  simp only [h.completes_iff hq hrest]
  constructor
  · rintro ⟨n, before, after, rfl, -⟩
    simp
  · intro hmem
    obtain ⟨before, after, rfl⟩ := List.append_of_mem hmem
    exact ⟨_, before, after, rfl, rfl⟩

/-- The first half of the last quote that is written twice closes a span that a scan finds no end
of. -/
theorem Scanned.closing_of_head?_ne {before after : List SpanUnit}
    (h : Scanned q s (before ++ .doubled :: after) rest) (hq : q ≠ '\\')
    (hrest : rest.head? ≠ some q) (hafter : .doubled ∉ after) :
    closing q s = some ((ofUnits q before).length + 1) := by
  rw [closing_eq_some_iff hq]
  simp only [h.completes_iff hq hrest]
  constructor
  · exact ⟨before, after, rfl, rfl⟩
  · rintro m ⟨before', after', hsplit, rfl⟩
    -- no other such quote comes later
    rcases List.append_eq_append_iff.1 hsplit with ⟨x, rfl, hx⟩ | ⟨x, rfl, -⟩
    · cases x with
      | nil => simp
      | cons v x =>
        obtain ⟨-, rfl⟩ := List.cons.inj hx
        exact absurd (by simp) hafter
    · simp

/-- How far a literal and a token go that begin with the quote at index `start`.  If the scan of its
units is stopped by a quote, both end there.  If it runs off the end of the text, the token takes
all the rest, and there is a literal if and only if a quote is written twice: it ends in the middle
of the last such quote. -/
theorem read_spanEnd_of_scan {s : Text} {start : Nat} {kind : Literal.Kind}
    (hkind : kind.quote? = some q) (hstart : s[start]? = some q)
    (hscan : scan q (s.drop (start + 1)) = (us, rest)) :
    (rest.head? = some q →
      Literal.read (s.drop start) = some (kind, (ofUnits q us).length + 2) ∧
        spanEnd s start = some (start + ((ofUnits q us).length + 2 : Nat))) ∧
    (rest.head? ≠ some q →
      spanEnd s start = some s.length ∧
        ((Literal.read (s.drop start)).isSome = true ↔ .doubled ∈ us) ∧
        ∀ before after, us = before ++ .doubled :: after → .doubled ∉ after →
          Literal.read (s.drop start) = some (kind, (ofUnits q before).length + 2)) := by
  have hq : q ≠ '\\' := ne_backslash_of_isQuote (Literal.Kind.isQuote_of_quote? hkind)
  obtain ⟨hlt, hget⟩ := List.getElem?_eq_some_iff.1 hstart
  have hdrop : s.drop start = q :: s.drop (start + 1) := by
    rw [List.drop_eq_getElem_cons hlt, hget]
  have hscanned : Scanned q (s.drop (start + 1)) us rest := by
    have := scanned_scan q (s.drop (start + 1))
    rwa [hscan] at this
  -- behind the opening quote, the literal goes as far as `closing` says and the token as
  -- `spanLength` does
  have hread : Literal.read (s.drop start) =
      (closing q (s.drop (start + 1))).map fun n => (kind, n + 1) := by
    rw [hdrop, Literal.read_quote hkind]
  have hend : spanEnd s start = some (start + 1 + spanLength q (s.drop (start + 1)) : Int) := by
    rw [spanEnd, if_pos (Int.natCast_nonneg start), Int.toNat_natCast, hdrop]
  constructor
  · intro hrest
    rw [hread, hend, hscanned.closing_of_head?_eq hq hrest,
      hscanned.spanLength_of_head?_eq hq hrest]
    refine ⟨rfl, congrArg some ?_⟩
    omega
  · intro hrest
    refine ⟨?_, ?_, ?_⟩
    · rw [hend, hscanned.spanLength_of_head?_ne hq hrest, List.length_drop]
      refine congrArg some ?_
      omega
    · rw [hread, Option.isSome_map, hscanned.closing_isSome_iff hq hrest]
    · rintro before after rfl hafter
      rw [hread, hscanned.closing_of_head?_ne hq hrest hafter]
      rfl

/-- A string that is not closed, with escapes, quotes that are written twice and a backslash at its
end. -/
theorem read_spanEnd_of_scan_torn :
    let s := "x'a''b\\'''c\\".toList
    s[1]? = some singleQuote ∧
    scan singleQuote (s.drop 2) =
      ([.single 'a', .doubled, .single 'b', .escaped singleQuote, .doubled, .single 'c'],
        ['\\']) ∧
    spanEnd s 1 = some 12 ∧ Literal.read (s.drop 1) = some (.string, 8) := by
  intro s
  have hkind : Literal.Kind.string.quote? = some singleQuote := rfl
  have hstart : s[1]? = some singleQuote := rfl
  have hscan : scan singleQuote (s.drop 2) =
      ([.single 'a', .doubled, .single 'b', .escaped singleQuote, .doubled, .single 'c'],
        ['\\']) := by decide
  obtain ⟨-, hopen⟩ := read_spanEnd_of_scan hkind hstart hscan
  obtain ⟨hend, -, hread⟩ := hopen (by decide)
  exact ⟨hstart, hscan, hend,
    hread [.single 'a', .doubled, .single 'b', .escaped singleQuote] [.single 'c'] rfl (by decide)⟩

end Text
end SqlTidy
