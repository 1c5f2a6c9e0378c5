import SqlTidy.Proofs.Placeholder

/-!
# Reading literals

When a literal stands at the front of a text, and how much of what follows it that depends on.  A
quoted literal depends on whether the next character is its own quote, a line comment on whether the
line ends, a block comment on nothing.

## Main definitions

* `Text.exposes q pending s` — a quote `q` stands in `s` that no backslash escapes.
* `Literal.Kind.quote?` — the quote that a kind of literal is written in.
* `Literal.Stands kind t r` — a literal with text `t` stands in front of `r`.

## Main results

* `Text.closing_eq_none_iff`, `Text.spanLength_of_exposes` — an unclosed span has no exposed quote
  and goes on to the end of the text.
* `Text.closing_eq_some` — where a span is closed, and what that depends on.
* `Literal.read_append_iff`, `Literal.read_eq_none_iff` — when a literal is read, and when none is.
-/

namespace SqlTidy

/-! ### Quoted spans -/

namespace Text

/-- Whether a quote `q` stands in a text that no backslash escapes.  `pending` says whether the
first character is escaped. -/
def exposes (q : Char) : (pending : Bool) → Text → Bool
  | _, [] => false
  | true, _ :: s => exposes q false s
  | false, c :: s => if c = '\\' then exposes q true s else c = q || exposes q false s

variable {q : Char}

/-- The character after a backslash closes nothing. -/
theorem closing_escaped (q d : Char) (r : Text) :
    closing q ('\\' :: d :: r) = (closing q r).map (· + 2) := by
  rw [closing, if_pos rfl]

/-- A character that is neither a backslash nor the quote is passed over. -/
theorem closing_other {c : Char} (hc : c ≠ '\\') (hq : c ≠ q) (r : Text) :
    closing q (c :: r) = (closing q r).map (· + 1) := by
  cases r with
  | nil => simp [closing, hc, hq]
  | cons d r => rw [closing, if_neg hc, if_neg hq]

/-- A quote that is written twice stands for itself where the span can be closed later, and closes
the span if not. -/
theorem closing_doubled (hq : q ≠ '\\') (r : Text) :
    closing q (q :: q :: r) = ((closing q r).map (· + 2)).or (some 1) := by
  rw [closing, if_neg hq, if_pos rfl, if_pos rfl]

/-- A quote that is not written twice closes the span. -/
theorem closing_single (hq : q ≠ '\\') {r : Text} (hr : r.head? ≠ some q) :
    closing q (q :: r) = some 1 := by
  cases r with
  | nil => simp [closing, hq]
  | cons d r =>
    have hd : d ≠ q := by simpa using hr
    rw [closing, if_neg hq, if_pos rfl, if_neg hd]

/-- A span cannot be completed if and only if no quote is exposed. -/
theorem closing_eq_none_iff {s : Text} :
    closing q s = none ↔ exposes q false s = false := by
  -- an exposed quote is always the end of some span, since even the first of two closes it if need
  -- be
  fun_induction closing q s with
  | case1 => simp [exposes]
  | case2 => simp [exposes]
  | case3 hc => simp [exposes, hc]
  | case4 c hc hcq => simp [exposes, hc, hcq]
  | case5 d r ih => simpa [exposes] using ih
  | case6 r hc ih => simp [exposes, hc]
  | case7 d r hd hc => simp [exposes, hc]
  | case8 c d r hc hcq ih => simpa [exposes, hc, hcq] using ih

/-- A span without an exposed quote goes on to the end of the text. -/
theorem spanLength_of_exposes {s : Text} (h : exposes q false s = false) :
    spanLength q s = s.length := by
  fun_induction spanLength q s with
  | case1 => rfl
  | case2 => rfl
  | case3 d r ih => rw [ih (by simpa [exposes] using h)]; rfl
  | case4 r hc ih => simp [exposes, hc] at h
  | case5 d r hd hc => simp [exposes, hc] at h
  | case6 c d r hc hcq ih =>
    simp only [exposes, hc, if_false, hcq, decide_false, Bool.false_or] at h
    rw [ih (by simpa [exposes] using h)]
    rfl

/-- A span is closed by a quote.  Anything else may follow it there but another such quote, which
follows only if no span begins with the two of them taken as one. -/
theorem closing_eq_some (hq : q ≠ '\\') {s : Text} {n : Nat} (h : closing q s = some n) :
    ∃ x r, s = x ++ q :: r ∧ n = x.length + 1 ∧
      (∀ v : Text, v.head? ≠ some q → closing q (x ++ q :: v) = some n) ∧
      ∀ r', r = q :: r' → closing q r' = none := by
  -- units in front of the end are carried over from the shorter text; only a quote written twice
  -- has two cases, by whether a later quote closes the span
  fun_induction closing q s generalizing n with
  | case1 => cases h
  | case2 => cases h
  | case3 hc =>
    cases h
    exact ⟨[], [], rfl, rfl, fun v hv => closing_single hq hv, by simp⟩
  | case4 => cases h
  | case5 d r ih =>
    obtain ⟨k, hk, rfl⟩ := Option.map_eq_some_iff.1 h
    obtain ⟨x, r, rfl, rfl, hlocal, hnext⟩ := ih hk
    refine ⟨'\\' :: d :: x, r, rfl, rfl, fun v hv => ?_, hnext⟩
    rw [List.cons_append, List.cons_append, closing_escaped, hlocal v hv]
    rfl
  | case6 r hc ih =>
    cases hr : closing q r with
    | none =>
      obtain rfl : n = 1 := by simpa [hr] using h.symm
      refine ⟨[], q :: r, rfl, rfl, fun v hv => closing_single hq hv, ?_⟩
      rintro r' hr'
      obtain rfl : r = r' := by simpa using hr'
      exact hr
    | some k =>
      obtain rfl : n = k + 2 := by simpa [hr] using h.symm
      obtain ⟨x, r, rfl, rfl, hlocal, hnext⟩ := ih hr
      refine ⟨q :: q :: x, r, rfl, rfl, fun v hv => ?_, hnext⟩
      rw [List.cons_append, List.cons_append, closing_doubled hq, hlocal v hv]
      rfl
  | case7 d r hd hc =>
    cases h
    refine ⟨[], d :: r, rfl, rfl, fun v hv => closing_single hq hv, ?_⟩
    rintro r' hr'
    exact absurd (List.cons.inj hr').1 hd
  | case8 c d r hc hcq ih =>
    obtain ⟨k, hk, rfl⟩ := Option.map_eq_some_iff.1 h
    obtain ⟨x, r, hr, rfl, hlocal, hnext⟩ := ih hk
    refine ⟨c :: x, r, by rw [hr]; rfl, rfl, fun v hv => ?_, hnext⟩
    rw [List.cons_append, closing_other hc hcq, hlocal v hv]
    rfl

/-- A closed span `b` ends in its quote, and is closed in front of anything that does not begin with
that quote. -/
theorem closing_append (hq : q ≠ '\\') {b r : Text} (h : closing q (b ++ r) = some b.length) :
    (∃ x, b = x ++ [q]) ∧ (∀ v : Text, v.head? ≠ some q → closing q (b ++ v) = some b.length) ∧
      ∀ r', r = q :: r' → closing q r' = none := by
  obtain ⟨x, y, hxy, hlength, hlocal, hnext⟩ := closing_eq_some hq h
  have hsplit : b ++ r = (x ++ [q]) ++ y := by simpa using hxy
  obtain ⟨rfl, rfl⟩ := List.append_inj hsplit (by simpa using hlength)
  exact ⟨⟨x, rfl⟩, fun v hv => by simpa using hlocal v hv, hnext⟩

end Text

namespace Literal

/-! ### Block comments -/

/-- A block comment is not closed if and only if its end mark does not occur. -/
theorem blockLength_eq_none_iff {s : Text} : blockLength s = none ↔ ¬['*', '/'] <:+: s := by
  fun_induction blockLength s with
  | case1 => simp
  | case2 c => simp [List.infix_cons_iff]
  | case3 c d r hc =>
    obtain ⟨rfl, rfl⟩ := hc
    simp [List.infix_cons_iff]
  | case4 c d r hc ih =>
    -- the mark does not stand at the front, so it occurs in the rest or nowhere
    rw [Option.map_eq_none_iff, ih, @List.infix_cons_iff _ _ _ (d :: r), not_or]
    refine (and_iff_right ?_).symm
    simpa [List.cons_prefix_cons, eq_comm] using hc

/-- A block comment ends where it ends whatever follows it. -/
theorem blockLength_eq_some {s : Text} {n : Nat} (h : blockLength s = some n) :
    ∃ x r, s = x ++ '*' :: '/' :: r ∧ n = x.length + 2 ∧
      ∀ v, blockLength (x ++ '*' :: '/' :: v) = some n := by
  fun_induction blockLength s generalizing n with
  | case1 => cases h
  | case2 => cases h
  | case3 c d r hc =>
    obtain ⟨rfl, rfl⟩ := hc
    cases h
    exact ⟨[], r, rfl, rfl, fun v => by simp [blockLength]⟩
  | case4 c d r hc ih =>
    obtain ⟨k, hk, rfl⟩ := Option.map_eq_some_iff.1 h
    obtain ⟨x, r', hx, rfl, hlocal⟩ := ih hk
    refine ⟨c :: x, r', by rw [hx]; rfl, rfl, fun v => ?_⟩
    -- the second character is the same before `v`
    obtain ⟨y, hy⟩ : ∃ y, x ++ '*' :: '/' :: v = d :: y := by
      cases x with
      | nil =>
        obtain ⟨rfl, -⟩ := List.cons.inj hx
        exact ⟨_, rfl⟩
      | cons e x =>
        obtain ⟨rfl, -⟩ := List.cons.inj hx
        exact ⟨_, rfl⟩
    have := hlocal v
    rw [hy] at this
    rw [List.cons_append, hy, blockLength, if_neg hc, this]
    rfl

/-- A block comment `b` ends in its end mark, and is as long in front of any other text. -/
theorem blockLength_append {b r : Text} (h : blockLength (b ++ r) = some b.length) :
    (∃ x, b = x ++ ['*', '/']) ∧ ∀ v, blockLength (b ++ v) = some b.length := by
  obtain ⟨x, y, hxy, hlength, hlocal⟩ := blockLength_eq_some h
  have hsplit : b ++ r = (x ++ ['*', '/']) ++ y := by simpa using hxy
  obtain ⟨rfl, rfl⟩ := List.append_inj hsplit (by simpa using hlength)
  exact ⟨⟨x, rfl⟩, fun v => by simpa using hlocal v⟩

/-! ### Literals -/

/-- The quote that a kind of literal is written in. -/
def Kind.quote? : Kind → Option Char
  | .string => some Text.singleQuote
  | .identifier => some Text.doubleQuote
  | .lineComment => none
  | .blockComment => none

/-- The two kinds that are written in quotes are those of the two quotes. -/
theorem Kind.isQuote_of_quote? {kind : Kind} {q : Char} (h : kind.quote? = some q) :
    Text.isQuote q = true := by
  cases kind <;> cases h <;> rfl

/-- Each of the two quotes writes a kind of literal. -/
theorem Kind.exists_quote? {q : Char} (h : Text.isQuote q = true) :
    ∃ kind : Kind, kind.quote? = some q := by
  simp only [Text.isQuote, Bool.or_eq_true, beq_iff_eq] at h
  rcases h with rfl | rfl
  · exact ⟨.string, rfl⟩
  · exact ⟨.identifier, rfl⟩

/-- A literal of the given kind and with text `t` stands in front of `r`. -/
inductive Stands : Kind → (t r : Text) → Prop
  /-- A string or a quoted identifier, which is closed. -/
  | quoted {kind : Kind} {q : Char} {b r : Text} :
    kind.quote? = some q → Text.closing q (b ++ r) = some b.length → Stands kind (q :: b) r
  /-- A line comment, which goes on to the end of its line. -/
  | line {b r : Text} :
    (∀ c ∈ b, isLineEnd c = false) → (∀ c ∈ r.head?, isLineEnd c = true) →
      Stands .lineComment ('-' :: '-' :: b) r
  /-- A block comment, which is closed. -/
  | block {b r : Text} :
    blockLength (b ++ r) = some b.length → Stands .blockComment ('/' :: '*' :: b) r

/-- A literal stands in front of any text that does not go on with its quote or its line. -/
theorem Stands.before {kind : Kind} {t r : Text} (h : Stands kind t r) {v : Text}
    (hquote : ∀ q, kind.quote? = some q → v.head? ≠ some q)
    (hline : kind = .lineComment → ∀ c ∈ v.head?, isLineEnd c = true) : Stands kind t v := by
  cases h with
  | @quoted _ q b _ hkind hclose =>
    have hq := ne_backslash_of_isQuote (Kind.isQuote_of_quote? hkind)
    -- the end of the span does not depend on what follows, short of one more quote
    exact .quoted hkind ((Text.closing_append hq hclose).2.1 v (hquote q hkind))
  | line hb _ => exact .line hb (hline rfl)
  | block hb => exact .block ((blockLength_append hb).2 v)

/-- Where a quote follows that closed a literal, it closes nothing with the text after it. -/
theorem Stands.closing_eq_none {kind : Kind} {t r : Text} {q : Char} (h : Stands kind t (q :: r))
    (hq : kind.quote? = some q) : Text.closing q r = none := by
  have hne := ne_backslash_of_isQuote (Kind.isQuote_of_quote? hq)
  cases h with
  | quoted hkind hclose =>
    obtain rfl := Option.some.inj (hq.symm.trans hkind)
    exact (Text.closing_append hne hclose).2.2 r rfl
  | line => cases hq
  | block => cases hq

/-- A literal that begins with a quote is closed. -/
theorem Stands.closing_ne_none {kind : Kind} {b r : Text} {q : Char} (h : Stands kind (q :: b) r)
    (hq : Text.isQuote q = true) : Text.closing q (b ++ r) ≠ none := by
  cases h with
  | quoted _ hclose => simp [hclose]
  | line => cases hq
  | block => cases hq

/-- After a quote, what is read is how far the span goes. -/
theorem read_quote {kind : Kind} {q : Char} (h : kind.quote? = some q) (r : Text) :
    read (q :: r) = (Text.closing q r).map fun n => (kind, n + 1) := by
  cases kind <;> cases h <;> rfl

/-- After two dashes, what is read is the rest of the line. -/
theorem read_line (r : Text) :
    read ('-' :: '-' :: r) = some (.lineComment, (r.takeWhile (!isLineEnd ·)).length + 2) := by
  simp [read, Text.after?, Text.singleQuote, Text.doubleQuote]

/-- After the mark that opens a block comment, what is read is how far the comment goes. -/
theorem read_block (r : Text) :
    read ('/' :: '*' :: r) = (blockLength r).map fun n => (.blockComment, n + 2) := by
  simp [read, Text.after?, Text.singleQuote, Text.doubleQuote]

/-- A text begins with a quote, with `--`, with `/*`, or with no literal. -/
theorem read_cases (s : Text) :
    (∃ kind q r, Kind.quote? kind = some q ∧ s = q :: r) ∨ (∃ r, s = '-' :: '-' :: r) ∨
      (∃ r, s = '/' :: '*' :: r) ∨ read s = none := by
  cases s with
  | nil => exact .inr (.inr (.inr rfl))
  | cons c r =>
    by_cases hc : Text.isQuote c = true
    · obtain ⟨kind, hkind⟩ := Kind.exists_quote? hc
      exact .inl ⟨kind, c, r, hkind, rfl⟩
    · have hquotes : c ≠ Text.singleQuote ∧ c ≠ Text.doubleQuote := by
        simpa [Text.isQuote] using hc
      simp only [read, if_neg hquotes.1, if_neg hquotes.2]
      split
      · next x y hx => exact .inr (.inl ⟨_, Text.eq_append_of_after? hx⟩)
      · next hx hy => exact .inr (.inr (.inl ⟨_, Text.eq_append_of_after? hy⟩))
      · exact .inr (.inr (.inr rfl))

/-- When the literal with text `t` is read in front of `r`.  By this, what the scanner does at a
place is a statement about `t` and `r`, in which `r` can be exchanged by `Stands.before`. -/
theorem read_append_iff {kind : Kind} {t r : Text} :
    read (t ++ r) = some (kind, t.length) ↔ Stands kind t r := by
  constructor
  · intro h
    have hpos := pos_of_read h
    rcases read_cases (t ++ r) with ⟨kind', q, s, hkind, hs⟩ | ⟨s, hs⟩ | ⟨s, hs⟩ | hnone
    · rw [hs, read_quote hkind] at h
      obtain ⟨n, hn, heq⟩ := Option.map_eq_some_iff.1 h
      obtain ⟨rfl, hlen⟩ : kind' = kind ∧ n + 1 = t.length := by simpa using heq
      obtain ⟨c, b, rfl⟩ : ∃ c b, t = c :: b := by
        cases t with
        | nil => simp at hpos
        | cons c b => exact ⟨c, b, rfl⟩
      obtain ⟨rfl, rfl⟩ := List.cons.inj hs
      obtain rfl : n = b.length := by simpa using hlen
      exact .quoted hkind hn
    · rw [hs, read_line] at h
      obtain ⟨rfl, hlen⟩ : Kind.lineComment = kind ∧
          (s.takeWhile (!isLineEnd ·)).length + 2 = t.length := by simpa using h
      obtain ⟨c, d, b, rfl⟩ : ∃ c d b, t = c :: d :: b := by
        rcases t with _ | ⟨c, _ | ⟨d, b⟩⟩
        · simp at hlen
        · simp at hlen
        · exact ⟨c, d, b, rfl⟩
      obtain ⟨rfl, rfl, rfl⟩ : c = '-' ∧ d = '-' ∧ b ++ r = s := by simpa using hs
      -- the text `b` is as much of the line as there is, since the lengths agree
      have hb : (b ++ r).takeWhile (!isLineEnd ·) = b := by
        have htake := List.takeWhile_prefix (l := b ++ r) (!isLineEnd ·)
        exact (List.prefix_of_prefix_length_le htake (List.prefix_append b r)
          (by simp at hlen; omega)).eq_of_length (by simpa using hlen)
      have hall : ∀ c ∈ b, (!isLineEnd c) = true := by
        intro c hc
        rw [← hb] at hc
        exact List.mem_takeWhile_imp (p := (!isLineEnd ·)) hc
      refine .line (by simpa using hall) (fun c hc => ?_)
      rw [List.takeWhile_append_of_pos hall] at hb
      obtain ⟨r, rfl⟩ := List.head?_eq_some_iff.1 (Option.mem_def.1 hc)
      -- otherwise the comment would go on
      by_contra hend
      simp [hend] at hb
    · rw [hs, read_block] at h
      obtain ⟨n, hn, heq⟩ := Option.map_eq_some_iff.1 h
      obtain ⟨rfl, hlen⟩ : Kind.blockComment = kind ∧ n + 2 = t.length := by simpa using heq
      obtain ⟨c, d, b, rfl⟩ : ∃ c d b, t = c :: d :: b := by
        rcases t with _ | ⟨c, _ | ⟨d, b⟩⟩
        · simp at hlen
        · simp at hlen
        · exact ⟨c, d, b, rfl⟩
      obtain ⟨rfl, rfl, rfl⟩ : c = '/' ∧ d = '*' ∧ b ++ r = s := by simpa using hs
      obtain rfl : n = b.length := by simpa using hlen
      exact .block hn
    · rw [hnone] at h
      cases h
  · intro h
    cases h with
    | @quoted _ q b _ hkind hclose => rw [List.cons_append, read_quote hkind, hclose]; rfl
    | @line b _ hb hr =>
      have hstop : r.takeWhile (!isLineEnd ·) = [] := by
        cases r with
        | nil => rfl
        | cons c r => simp [hr c rfl]
      rw [List.cons_append, List.cons_append, read_line,
        List.takeWhile_append_of_pos (by simpa using hb), hstop, List.append_nil]
      rfl
    | @block b _ hb => rw [List.cons_append, List.cons_append, read_block, hb]; rfl

/-- When no literal is read: at a quote that is not closed, at a dash with no other after it, at a
slash that opens no closed comment, and at any other character. -/
theorem read_eq_none_iff {c : Char} {r : Text} :
    read (c :: r) = none ↔
      (Text.isQuote c = true → Text.closing c r = none) ∧ (c = '-' → r.head? ≠ some '-') ∧
        (c = '/' → ∀ r', r = '*' :: r' → ¬['*', '/'] <:+: r') := by
  constructor
  · intro h
    refine ⟨fun hc => ?_, ?_, ?_⟩
    · obtain ⟨kind, hkind⟩ := Kind.exists_quote? hc
      rw [read_quote hkind] at h
      simpa using h
    · rintro rfl hr
      obtain ⟨r, rfl⟩ : ∃ r', r = '-' :: r' := List.head?_eq_some_iff.1 hr
      rw [read_line] at h
      cases h
    · rintro rfl r rfl
      rw [read_block] at h
      rw [← blockLength_eq_none_iff]
      simpa using h
  · rintro ⟨hquote, hline, hblock⟩
    rcases read_cases (c :: r) with ⟨kind, q, s, hkind, hs⟩ | ⟨s, hs⟩ | ⟨s, hs⟩ | hnone
    · obtain ⟨rfl, rfl⟩ := List.cons.inj hs
      rw [read_quote hkind, hquote (Kind.isQuote_of_quote? hkind)]
      rfl
    · obtain ⟨rfl, rfl⟩ := List.cons.inj hs
      exact absurd rfl (hline rfl)
    · obtain ⟨rfl, rfl⟩ := List.cons.inj hs
      rw [read_block, blockLength_eq_none_iff.2 (hblock rfl s rfl)]
      rfl
    · exact hnone

/-- No literal goes beyond the end of the text. -/
theorem length_le_of_read {s : Text} {kind : Kind} {n : Nat} (h : read s = some (kind, n)) :
    n ≤ s.length := by
  rcases read_cases s with ⟨kind', q, r, hkind, rfl⟩ | ⟨r, rfl⟩ | ⟨r, rfl⟩ | hnone
  · rw [read_quote hkind] at h
    obtain ⟨k, hk, heq⟩ := Option.map_eq_some_iff.1 h
    obtain ⟨x, y, rfl, rfl, -⟩ :=
      Text.closing_eq_some (ne_backslash_of_isQuote (Kind.isQuote_of_quote? hkind)) hk
    obtain ⟨-, rfl⟩ := Prod.mk.inj heq
    simp
  · rw [read_line] at h
    obtain ⟨-, rfl⟩ : Kind.lineComment = kind ∧ _ = n := by simpa using h
    simpa using (List.takeWhile_prefix _).length_le
  · rw [read_block] at h
    obtain ⟨k, hk, heq⟩ := Option.map_eq_some_iff.1 h
    obtain ⟨x, y, rfl, rfl, -⟩ := blockLength_eq_some hk
    obtain ⟨-, rfl⟩ := Prod.mk.inj heq
    simp
  · rw [hnone] at h
    cases h

/-- The literals of a text are read where they stand in it. -/
theorem scans_cut (s : Text) : recogniser.Scans (cut s).symbols :=
  recogniser.scans_symbols_cut length_le_of_read s

end Literal
end SqlTidy
