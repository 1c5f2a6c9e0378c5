import SqlTidy.Layout.Page
import SqlTidy.Proofs.Character
import SqlTidy.Proofs.Marked

/-!
# Tokens with separators

A laid-out text is made of tokens with a separator before each.  It is written on a page line by
line.  What matters of a page is the text written so far and what is going to stand before the next
token; that finished lines are trimmed takes nothing from a token, since no token ends in a blank.

## Main definitions

* `weave ps` — separators and tokens in turn.
* `Token.Solid t` — the token `t` does not end in a blank.
* `Page.done`, `Page.pending` — what has been written, and what will stand before the next token.

## Main results

* `infix_of_infix_weave` — a row of symbols that no separator breaks lies in one token.
* `Page.done_write`, `Page.done_startLine` — what the two operations on a page do to its text.
-/

namespace SqlTidy

/-- Separators and what follows them, in turn.  The symbols are left open, since both texts and
marked texts are laid out. -/
def weave {σ : Type} (ps : List (List σ × List σ)) : List σ := ps.flatMap fun p => p.1 ++ p.2

@[simp] theorem weave_nil {σ : Type} : weave ([] : List (List σ × List σ)) = [] := rfl

@[simp] theorem weave_cons {σ : Type} (p : List σ × List σ) (ps : List (List σ × List σ)) :
    weave (p :: ps) = p.1 ++ (p.2 ++ weave ps) := by
  simp [weave]

@[simp] theorem weave_append {σ : Type} (ps qs : List (List σ × List σ)) :
    weave (ps ++ qs) = weave ps ++ weave qs := by
  simp [weave]

/-- A row of symbols comes after everything that has nothing in common with it. -/
theorem infix_of_infix_append {σ : Type} {x : List σ} (hx : x ≠ []) {e y : List σ}
    (he : ∀ s ∈ e, s ∉ x) (h : x <:+: e ++ y) : x <:+: y := by
  induction e with
  | nil => exact h
  | cons s e ih =>
    obtain ⟨hs, he⟩ := List.forall_mem_cons.1 he
    -- the first symbol is not in the row, so that the row lies behind it
    rcases (infix_append_cons_iff (a := []) hs).1 h with h | h
    · exact absurd (List.infix_nil.1 h) hx
    · exact ih he h

/-- A row of symbols lies in one token, if separators have nothing in common with it and something
that it does not hold stands where there is no separator. -/
theorem infix_of_infix_weave {σ : Type} {x : List σ} (hx : x ≠ []) {ps : List (List σ × List σ)}
    (hsep : ∀ p ∈ ps, ∀ s ∈ p.1, s ∉ x)
    (hchain : ps.IsChain fun p q => q.1 = [] →
      (∃ s ∉ x, p.2.getLast? = some s) ∨ ∃ s ∉ x, q.2.head? = some s)
    (h : x <:+: weave ps) : ∃ p ∈ ps, x <:+: p.2 := by
  induction ps with
  | nil => exact absurd (List.infix_nil.1 h) hx
  | cons p ps ih =>
    obtain ⟨hp, hsep⟩ := List.forall_mem_cons.1 hsep
    rw [List.isChain_cons] at hchain
    rw [weave_cons] at h
    have h := infix_of_infix_append hx hp h
    -- the row lies in the first token or behind it
    have hsplit : x <:+: p.2 ∨ x <:+: weave ps := by
      cases ps with
      | nil => exact .inl (by simpa using h)
      | cons q ps =>
        -- the next token is set apart by a separator, by its own front or by the end of this token
        have hfront : (∃ s ∉ x, p.2.getLast? = some s) ∨
            ∃ s ∉ x, ∃ r, weave (q :: ps) = s :: r := by
          obtain ⟨e, u⟩ := q
          cases e with
          | nil =>
            refine (hchain.1 _ rfl rfl).imp_right fun ⟨s, hs, hu⟩ => ?_
            obtain ⟨r, hr⟩ := List.head?_eq_some_iff.1 hu
            exact ⟨s, hs, r ++ weave ps, by rw [weave_cons, hr]; rfl⟩
          | cons s e =>
            exact .inr ⟨s, hsep _ List.mem_cons_self s List.mem_cons_self, _, weave_cons _ _⟩
        rcases hfront with ⟨s, hs, hlast⟩ | ⟨s, hs, r, hr⟩
        · obtain ⟨y, hy⟩ := List.getLast?_eq_some_iff.1 hlast
          rw [hy, List.append_assoc, List.singleton_append, infix_append_cons_iff hs] at h
          exact h.imp_left fun h => hy ▸ h.trans (List.prefix_append y [s]).isInfix
        · rw [hr, infix_append_cons_iff hs] at h
          exact h.imp_right fun h => hr ▸ h.trans (List.suffix_cons s r).isInfix
    rcases hsplit with h | h
    · exact ⟨p, List.mem_cons_self, h⟩
    · obtain ⟨q, hq, h⟩ := ih hsep hchain.2 h
      exact ⟨q, List.mem_cons_of_mem p hq, h⟩

/-- A token that does not end in a blank. -/
def Token.Solid (t : Token) : Prop := ∃ x c, t = x ++ [c] ∧ Text.isBlank c = false

/-- Such a token is not empty. -/
theorem Token.Solid.ne_nil {t : Token} (h : t.Solid) : t ≠ [] := by
  obtain ⟨x, c, rfl, -⟩ := h
  simp

/-- Trimming stops at a token. -/
theorem Text.trimEnd_append_solid (s : Text) {t : Token} (h : t.Solid) :
    Text.trimEnd (s ++ t) = s ++ t := by
  obtain ⟨x, c, rfl, hc⟩ := h
  simp [Text.trimEnd, hc]

/-- Something in front of a token does not change how it ends. -/
theorem Token.Solid.append {t : Token} (ht : t.Solid) (s : Text) : Token.Solid (s ++ t) := by
  obtain ⟨x, c, rfl, hc⟩ := ht
  exact ⟨s ++ x, c, by simp, hc⟩

/-- Nothing is trimmed from a token. -/
theorem Token.Solid.trimEnd_eq {t : Token} (ht : t.Solid) : Text.trimEnd t = t :=
  Text.trimEnd_append_solid [] ht

/-- Nothing is trimmed from tokens that end in no blank. -/
theorem trimEnd_weave {ps : List (Text × Token)} (hps : ∀ q ∈ ps, Token.Solid q.2) :
    Text.trimEnd (weave ps) = weave ps := by
  rcases List.eq_nil_or_concat ps with rfl | ⟨qs, q, rfl⟩
  · rfl
  · have hq := hps q (by simp)
    rw [List.concat_eq_append, weave_append, weave_cons, weave_nil, List.append_nil,
      ← List.append_assoc, Text.trimEnd_append_solid _ hq]

/-- One more line comes after a line feed, unless it is the first. -/
theorem Text.joinLines_concat (ls : List Text) (l : Text) :
    Text.joinLines (ls ++ [l]) = if ls = [] then l else Text.joinLines ls ++ '\n' :: l := by
  induction ls with
  | nil => rfl
  | cons a ls ih =>
    rw [if_neg (List.cons_ne_nil a ls)]
    cases ls with
    | nil => rfl
    | cons b ls =>
      rw [if_neg (List.cons_ne_nil b ls)] at ih
      simp only [List.cons_append, Text.joinLines_cons_cons] at ih ⊢
      rw [ih, List.append_assoc, List.cons_append]

/-! ### Pages -/

namespace Page

/-- The text of the lines that count. -/
def done (p : Page) : Text := Text.joinLines p.allLines

/-- What stands between that text and the next thing written. -/
def pending (p : Page) : Text :=
  if p.hasContent then [] else if p.lines = [] then p.current else '\n' :: p.current

@[simp] theorem pending_write (p : Page) (s : Text) : (p.write s).pending = [] := rfl

/-- Writing puts what is pending before what is written. -/
theorem done_write (p : Page) (s : Text) : (p.write s).done = p.done ++ (p.pending ++ s) := by
  obtain ⟨lines, current, hasContent⟩ := p
  cases hasContent with
  | true =>
    simp only [done, pending, allLines, write, if_true, List.nil_append, Text.joinLines_concat]
    split <;> simp
  | false =>
    simp only [done, pending, allLines, write, if_true, Bool.false_eq_true, if_false,
      Text.joinLines_concat]
    split
    · next h => simp [h]
    · simp

/-- Starting a line leaves the text as it is, if the finished line has no blanks at its end to be
trimmed. -/
theorem done_startLine {p : Page} (h : p.hasContent = true → Text.trimEnd p.current = p.current)
    (indent : Text) : (p.startLine indent).done = p.done := by
  obtain ⟨lines, current, hasContent⟩ := p
  cases hasContent with
  | true => simp [done, allLines, startLine, h rfl]
  | false => simp [done, allLines, startLine]

/-- After a line is started, its indentation is pending, and a line feed unless it is the first
line. -/
theorem pending_startLine (p : Page) (indent : Text) :
    (p.startLine indent).pending = if p.allLines = [] then indent else '\n' :: indent := by
  obtain ⟨lines, current, hasContent⟩ := p
  cases hasContent with
  | true => simp [pending, allLines, startLine]
  | false => simp [pending, allLines, startLine]

/-- Writing twice is writing once. -/
theorem write_write (p : Page) (s t : Text) : (p.write s).write t = p.write (s ++ t) := by
  simp [write]

/-- A line on which nothing was written leaves no trace when another is started. -/
theorem startLine_startLine (m m' : Text) (p : Page) :
    (p.startLine m).startLine m' = p.startLine m' := by
  simp [startLine]

end Page
end SqlTidy
