import SqlTidy.Proofs.Draft

/-!
# Levels of indentation

Which levels of indentation a text asks for can be read off its tokens: from the depth of
parentheses before a token, the clause that was opened last, and the token just before.  The layout
pass keeps all of this as it goes along, and asks for the indentation of these levels and no others,
also for indentation that it is going to drop again.

## Main definitions

* `Layout.depth`, `Layout.lastOpener?`, `Layout.SelectPending` — what tokens say about the token
  after them.
* `Layout.Requests comments before t k` — the token `t` after the tokens `before` asks for level
  `k`.
* `Layout.Requested comments ts k` — one of the tokens `ts` does.

## Main results

* `Layout.reads_after` — the place that the layout pass keeps is what the tokens before it say.
* `Layout.mem_allLevels_iff_requested` — the levels that the layout pass asks for.
-/

namespace SqlTidy
namespace Layout

/-! ### What tokens say -/

/-- The depth of parentheses after tokens; a parenthesis too many that closes does not count. -/
def depth (ts : List Token) : Nat :=
  ts.foldl (fun d t => if t = ['('] then d + 1 else if t = [')'] then d - 1 else d) 0

/-- Whether a token opens a clause. -/
def opensClause (t : Token) : Bool := clauseOpeners.contains t.upper

/-- The words that open clauses are compared in their upper-case forms. -/
theorem opensClause_iff {t : Token} : opensClause t = true ↔ t.upper ∈ clauseOpeners :=
  List.contains_iff_mem

theorem opensClause_eq_false_iff {t : Token} :
    opensClause t = false ↔ t.upper ∉ clauseOpeners := by
  rw [← opensClause_iff, Bool.not_eq_true]

/-- The upper-case form of the last token that opens a clause. -/
def lastOpener? (ts : List Token) : Option Text := (ts.reverse.find? opensClause).map Token.upper

/-- The tokens after the last one that opens a clause, in reverse order. -/
def sinceOpener (ts : List Token) : List Token := ts.reverse.takeWhile fun t => !opensClause t

/-- A token that may stand before the first item of a select list. -/
def MayPrecedeItem (t : Token) : Prop :=
  t = ['('] ∨ t = [')'] ∨ t.upper ∈ joinWords ∨ t.upper ∈ selectModifiers

instance (t : Token) : Decidable (MayPrecedeItem t) := inferInstanceAs (Decidable (_ ∨ _))

/-- After these tokens, the first item of a select list is still to come. -/
def SelectPending (ts : List Token) : Prop :=
  lastOpener? ts = some "SELECT".toList ∧ ∀ t ∈ sinceOpener ts, MayPrecedeItem t

instance (ts : List Token) : Decidable (SelectPending ts) := inferInstanceAs (Decidable (_ ∧ _))

/-- The token `t` begins the select list that the tokens before it have opened. -/
def IsFirstItem (before : List Token) (t : Token) : Prop :=
  SelectPending before ∧ t.upper ∉ clauseOpeners ∧ t.upper ∉ selectModifiers ∧
    t ≠ ['('] ∧ t ≠ [')'] ∧ t ≠ [',']

instance (before : List Token) (t : Token) : Decidable (IsFirstItem before t) :=
  inferInstanceAs (Decidable (_ ∧ _))

/-- The token `t` asks for a line one level deeper than the parentheses around it. -/
def GoesDeeper (comments : List Text) (before : List Token) (t : Token) : Prop :=
  t.upper ∈ joinWords ∨
  (t.upper = "ON".toList ∧ lastOpener? before = some "FROM".toList) ∨
  IsFirstItem before t ∨
  (t = [','] ∧ lastOpener? before = some "SELECT".toList) ∨
  before.getLast?.any (endsInComment comments) = true

instance (comments : List Text) (before : List Token) (t : Token) :
    Decidable (GoesDeeper comments before t) :=
  inferInstanceAs (Decidable (_ ∨ _))

/-- The token `t` after the tokens `before` asks for the indentation of level `k`. -/
def Requests (comments : List Text) (before : List Token) (t : Token) (k : Nat) : Prop :=
  (t.upper ∈ clauseOpeners ∧ k = depth before) ∨
    (GoesDeeper comments before t ∧ k = depth before + 1)

/-- One of the tokens asks for the indentation of level `k`. -/
def Requested (comments : List Text) (ts : List Token) (k : Nat) : Prop :=
  ∃ before t rest, ts = before ++ t :: rest ∧ Requests comments before t k

@[simp] theorem depth_nil : depth [] = 0 := rfl

/-- One more token changes the depth by itself, whatever came before. -/
theorem depth_concat (ts : List Token) (t : Token) :
    depth (ts ++ [t]) =
      if t = ['('] then depth ts + 1 else if t = [')'] then depth ts - 1 else depth ts := by
  simp [depth]

/-- One more token opens a clause, or leaves the last one. -/
theorem lastOpener?_concat (ts : List Token) (t : Token) :
    lastOpener? (ts ++ [t]) = if opensClause t then some t.upper else lastOpener? ts := by
  cases h : opensClause t <;> simp [lastOpener?, h]

/-- One more token begins the count anew, or adds to it. -/
theorem sinceOpener_concat (ts : List Token) (t : Token) :
    sinceOpener (ts ++ [t]) = if opensClause t then [] else t :: sinceOpener ts := by
  cases h : opensClause t <;> simp [sinceOpener, h]

/-- A token that opens no clause leaves a select list to come if it may stand before its first
item. -/
theorem selectPending_concat {t : Token} (ht : opensClause t = false) (ts : List Token) :
    SelectPending (ts ++ [t]) ↔ SelectPending ts ∧ MayPrecedeItem t := by
  rw [SelectPending, SelectPending, lastOpener?_concat, sinceOpener_concat, if_neg (by simp [ht]),
    if_neg (by simp [ht]), List.forall_mem_cons]
  tauto

/-! ### Places -/

/-- A place is what the tokens before it say. -/
structure Place.Reads (comments : List Text) (ts : List Token) (p : Place) : Prop where
  /-- The depth is that of the parentheses. -/
  depth_eq : p.depth = Layout.depth ts
  /-- The clause is a select list if `SELECT` came last. -/
  isSelect_iff : p.clause.isSelect = true ↔ lastOpener? ts = some "SELECT".toList
  /-- The clause is a from list if `FROM` came last. -/
  isFrom_iff : p.clause.isFrom = true ↔ lastOpener? ts = some "FROM".toList
  /-- The first item of a select list is still to come. -/
  isPending_iff : p.clause.isPending = true ↔ SelectPending ts
  /-- The last token ends in a line comment. -/
  lineComment_iff : p.ending = .lineComment ↔ ts.getLast?.any (endsInComment comments) = true

variable {comments : List Text} {p : Place} {ts : List Token}

/-- Parentheses count in every clause, and nothing else changes the depth. -/
theorem depthAfter_role (clause : Clause) (d : Nat) (t : Token) :
    (role clause t).depthAfter d =
      if t = ['('] then d + 1 else if t = [')'] then d - 1 else d := by
  by_cases hopen : t = ['(']
  · rw [if_pos hopen, hopen, role_open, Role.depthAfter]
  · rw [if_neg hopen]
    by_cases hclose : t = [')']
    · rw [if_pos hclose, hclose, role_close, Role.depthAfter]
    · rw [if_neg hclose]
      cases hrole : role clause t with
      | openParen => exact absurd (eq_open_of_role hrole) hopen
      | closeParen => exact absurd (eq_close_of_role hrole) hclose
      | _ => rfl

/-- A word that opens a clause does so everywhere. -/
theorem role_of_opensClause {t : Token} (ht : opensClause t = true) (clause : Clause) :
    role clause t = .opener (.opened t.upper) :=
  if_pos ht

/-- A token that opens no clause leaves the clause as it is, but for the first item of a select
list. -/
theorem clauseAfter_role {t : Token} (ht : opensClause t = false) (clause : Clause) :
    ((role clause t).clauseAfter clause).isSelect = clause.isSelect ∧
      ((role clause t).clauseAfter clause).isFrom = clause.isFrom ∧
      (((role clause t).clauseAfter clause).isPending = true ↔
        clause.isPending = true ∧ MayPrecedeItem t) := by
  -- a token that may precede the first item leaves the clause alone
  have hsame : (clause.isPending = true → MayPrecedeItem t) →
      (clause.isPending = true ↔ clause.isPending = true ∧ MayPrecedeItem t) := by
    tauto
  unfold role
  rw [if_neg (by simpa [opensClause] using ht)]
  -- the roles in the order in which they are tried
  split_ifs with hlist hjoin hopen hclose hitem
  · obtain ⟨rfl, hselect⟩ := hlist
    have hcomma : ¬MayPrecedeItem [','] := by decide
    cases clause with
    | selectList pending => simp [Role.clauseAfter, Clause.isSelect, Clause.isFrom,
        Clause.isPending, hcomma]
    | fromList => cases hselect
    | other => cases hselect
  -- a join word; it may precede an item, and `ON` is one in a from list only
  · refine ⟨rfl, rfl, hsame fun hpending => ?_⟩
    rcases hjoin with hjoin | ⟨-, hfrom⟩
    · exact .inr (.inr (.inl (by simpa using hjoin)))
    · cases clause with
      | fromList => cases hpending
      | _ => cases hfrom
  · exact ⟨rfl, rfl, hsame fun _ => .inl hopen⟩
  · exact ⟨rfl, rfl, hsame fun _ => .inr (.inl hclose)⟩
  -- the first item; it is none of the tokens that may precede one
  · obtain ⟨hpending, hmodifier⟩ := hitem
    have hnot : ¬MayPrecedeItem t := by
      simp only [MayPrecedeItem, not_or]
      exact ⟨hopen, hclose, by simpa using (not_or.1 hjoin).1, by simpa using hmodifier⟩
    cases clause with
    | selectList pending => simp [Role.clauseAfter, Clause.isSelect, Clause.isFrom,
        Clause.isPending, hnot]
    | fromList => cases hpending
    | other => cases hpending
  · refine ⟨rfl, rfl, hsame fun hpending => ?_⟩
    exact .inr (.inr (.inr (by simpa [hpending] using hitem)))

/-- Of the words that open clauses, only `SELECT` opens a select list. -/
theorem isSelect_opened_iff {u : Text} :
    (Clause.opened u).isSelect = true ↔ u = "SELECT".toList := by
  unfold Clause.opened
  split_ifs with hselect hfrom <;> simp only [hselect, Clause.isSelect, Bool.false_eq_true]

/-- Only `FROM` opens a from list. -/
theorem isFrom_opened_iff {u : Text} : (Clause.opened u).isFrom = true ↔ u = "FROM".toList := by
  unfold Clause.opened
  split_ifs with hselect hfrom
  · rw [hselect]
    decide
  · simp only [hfrom, Clause.isFrom]
  · simp only [hfrom, Clause.isFrom, Bool.false_eq_true]

/-- A select list that was just opened has no item yet. -/
theorem isPending_opened (u : Text) : (Clause.opened u).isPending = (Clause.opened u).isSelect := by
  unfold Clause.opened
  split_ifs <;> rfl

/-- The place after one more token is what the tokens say.  This is the step of the invariant that
`reads_after` carries along. -/
theorem Place.Reads.next (h : p.Reads comments ts) (t : Token) :
    (p.next comments t).Reads comments (ts ++ [t]) := by
  have hdepth : (p.next comments t).depth = Layout.depth (ts ++ [t]) := by
    rw [depth_concat, ← h.depth_eq]
    exact depthAfter_role p.clause p.depth t
  have hcomment : (p.next comments t).ending = .lineComment ↔
      (ts ++ [t]).getLast?.any (endsInComment comments) = true := by
    rw [List.getLast?_concat]
    exact Ending.after_eq_lineComment_iff
  have hclause : (p.next comments t).clause = (role p.clause t).clauseAfter p.clause := rfl
  -- a word that opens a clause sets the clause anew; any other token keeps it
  cases ht : opensClause t with
  | true =>
    rw [role_of_opensClause ht, Role.clauseAfter] at hclause
    refine ⟨hdepth, ?_, ?_, ?_, hcomment⟩
    · rw [hclause, isSelect_opened_iff, lastOpener?_concat, if_pos ht, Option.some_inj]
    · rw [hclause, isFrom_opened_iff, lastOpener?_concat, if_pos ht, Option.some_inj]
    · rw [hclause, isPending_opened, isSelect_opened_iff, SelectPending, lastOpener?_concat,
        sinceOpener_concat, if_pos ht, if_pos ht, Option.some_inj]
      simp
  | false =>
    obtain ⟨hselect, hfrom, hpending⟩ := clauseAfter_role ht p.clause
    refine ⟨hdepth, ?_, ?_, ?_, hcomment⟩
    · rw [hclause, hselect, h.isSelect_iff, lastOpener?_concat, if_neg (by simp [ht])]
    · rw [hclause, hfrom, h.isFrom_iff, lastOpener?_concat, if_neg (by simp [ht])]
    · rw [hclause, hpending, h.isPending_iff, selectPending_concat ht]

/-- The place that the layout pass keeps is what the tokens before it say. -/
theorem reads_after (comments : List Text) (ts : List Token) :
    (Place.after comments {} ts).Reads comments ts := by
  induction ts using List.reverseRecOn with
  | nil =>
    rw [Place.after_nil]
    exact ⟨rfl, by decide, by decide, by decide, by simp⟩
  | append_singleton ts t ih =>
    rw [Place.after_append]
    exact ih.next t

/-- When a token that opens no clause starts a line or ends one. -/
theorem level?_role_eq_some_iff {t : Token} (ht : opensClause t = false) {clause : Clause}
    {d k : Nat} :
    (role clause t).level? d = some k ↔
      (t.upper ∈ joinWords ∨ (t.upper = "ON".toList ∧ clause.isFrom = true) ∨
        (clause.isPending = true ∧ t.upper ∉ selectModifiers ∧ t ≠ ['('] ∧ t ≠ [')'] ∧ t ≠ [',']) ∨
        (t = [','] ∧ clause.isSelect = true)) ∧ k = d + 1 := by
  unfold role
  rw [if_neg (by simpa [opensClause] using ht)]
  simp only [List.contains_iff_mem]
  -- a role is ruled out by those that are tried before it
  split_ifs with hlist hjoin hopen hclose hitem <;>
    simp only [Role.level?, Option.some_inj, reduceCtorEq, false_iff, eq_comm (b := k)]
  · exact ⟨fun hk => ⟨.inr (.inr (.inr hlist)), hk⟩, And.right⟩
  · exact ⟨fun hk => ⟨hjoin.imp_right .inl, hk⟩, And.right⟩
  · rintro ⟨hword | hon | ⟨-, -, hne, -⟩ | ⟨rfl, -⟩, -⟩
    · exact hjoin (.inl hword)
    · exact hjoin (.inr hon)
    · exact hne hopen
    · cases hopen
  · rintro ⟨hword | hon | ⟨-, -, -, hne, -⟩ | ⟨rfl, -⟩, -⟩
    · exact hjoin (.inl hword)
    · exact hjoin (.inr hon)
    · exact hne hclose
    · cases hclose
  -- an item is still to come in a select list only, where a comma has another role
  · have hselect : clause.isSelect = true := by
      cases clause with
      | selectList pending => rfl
      | _ => cases hitem.1
    have hcomma : t ≠ [','] := fun h => hlist ⟨h, hselect⟩
    have hmodifier : t.upper ∉ selectModifiers := by simpa using hitem.2
    exact ⟨fun hk => ⟨.inr (.inr (.inl ⟨hitem.1, hmodifier, hopen, hclose, hcomma⟩)), hk⟩,
      And.right⟩
  · rintro ⟨hword | hon | ⟨hpending, hmodifier, -⟩ | hcomma, -⟩
    · exact hjoin (.inl hword)
    · exact hjoin (.inr hon)
    · exact hitem ⟨hpending, by simpa using hmodifier⟩
    · exact hlist hcomma

/-- A token that opens a clause asks for nothing deeper of its own. -/
theorem goesDeeper_iff_of_opensClause {t : Token} (ht : opensClause t = true) :
    GoesDeeper comments ts t ↔ ts.getLast?.any (endsInComment comments) = true := by
  have hopener := opensClause_iff.1 ht
  -- no word that opens a clause is a join word, or `ON`, or a comma
  have hjoin : t.upper ∉ joinWords := fun h =>
    (by decide : ∀ w ∈ joinWords, w ∉ clauseOpeners) _ h hopener
  have hon : t.upper ≠ "ON".toList := fun h =>
    (by decide : "ON".toList ∉ clauseOpeners) (h ▸ hopener)
  have hcomma : t ≠ [','] := by
    rintro rfl
    exact absurd ht (by decide)
  simp only [GoesDeeper, IsFirstItem, hopener, hjoin, hon, hcomma, not_true_eq_false, false_and,
    and_false, false_or]

/-- The levels of a token in a place are those that it asks for after the tokens before it. -/
theorem Place.Reads.mem_levels_iff (h : p.Reads comments ts) {t : Token} {k : Nat} :
    k ∈ p.levels t ↔ Requests comments ts t k := by
  -- the level of the line that closes a comment is one of the deeper ones
  have hcomment : k ∈ p.commentLevel?.toList ↔
      ts.getLast?.any (endsInComment comments) = true ∧ k = Layout.depth ts + 1 := by
    rw [← h.lineComment_iff, ← h.depth_eq, Option.mem_toList, Place.commentLevel?,
      Option.ite_none_right_eq_some, Option.some_inj, eq_comm (b := k)]
  rw [Place.levels, List.mem_append, hcomment, Option.mem_toList, Requests]
  cases ht : opensClause t with
  | true =>
    have hopener := opensClause_iff.1 ht
    rw [goesDeeper_iff_of_opensClause ht, role_of_opensClause ht, Role.level?, ← h.depth_eq,
      Option.some_inj, eq_comm (b := k), or_comm]
    simp only [hopener, true_and]
  | false =>
    have hopener := opensClause_eq_false_iff.1 ht
    rw [level?_role_eq_some_iff ht, h.isFrom_iff, h.isPending_iff, h.isSelect_iff, h.depth_eq]
    simp only [GoesDeeper, IsFirstItem, hopener, not_false_eq_true, false_and, true_and, false_or]
    rw [← or_and_right, or_comm, or_assoc, or_assoc, or_assoc]

/-- The layout pass asks for the levels that the tokens request. -/
theorem mem_allLevels_iff_requested {k : Nat} :
    k ∈ Place.allLevels comments {} ts ↔ Requested comments ts k := by
  rw [Place.mem_allLevels_iff]
  simp only [(reads_after comments _).mem_levels_iff, Requested]

end Layout
end SqlTidy
