import SqlTidy.Proofs.Draft
import SqlTidy.Proofs.TokenSpans
import SqlTidy.Text.Splice

/-!
# Splicing as simultaneous replacement

Edits that do not overlap cut a text into the ranges that they replace and the gaps between them.
Splicing keeps the gaps and puts the new texts where the ranges were, all of them at once: the order
in which the edits are given does not matter, and no edit moves the place of another.

## Main definitions

* `Cut.edits k` — the edits that put the tag of every hit of `k` in the place of its text.
* `Edit.Separate n edits` — the edits are within a text of length `n` and do not overlap.
* `Cut.retag f k` — the cut `k` with other tags.

## Main results

* `Cut.splice_edits` — splicing the edits of a cut keeps its gaps and replaces its hits.
* `Edit.Separate.exists_cut` — separate edits are the edits of a cut.
* `Text.splice_of_separate` — splicing replaces all ranges at once, whatever the order of the edits.
* `Draft.text_preserve_eq_splice` — setting literals aside is splicing in their placeholders.
-/

namespace SqlTidy

/-! ### The edits of a cut -/

namespace Cut

/-- The edits that put the tags of the hits in their places, if `i` characters come before. -/
def editsFrom (i : Nat) : List (Text × Hit Text) → List Edit
  | [] => []
  | (gap, hit) :: ps =>
    ⟨(i + gap.length : Nat), (i + gap.length + hit.text.length : Nat), hit.tag⟩ ::
      editsFrom (i + gap.length + hit.text.length) ps

/-- The edits that put the tag of every hit in the place of its text. -/
def edits (k : Cut Text) : List Edit := editsFrom 0 k.pieces

/-- The edits of a cut have their ranges from left to right. -/
theorem range_of_mem_editsFrom {i : Nat} {ps : List (Text × Hit Text)} {e : Edit}
    (he : e ∈ editsFrom i ps) : (i : Int) ≤ e.start ∧ e.start ≤ e.stop := by
  induction ps generalizing i with
  | nil => cases he
  | cons p ps ih =>
    rcases List.mem_cons.1 he with rfl | he
    · dsimp only
      omega
    · have := ih he
      omega

/-- The edits of a cut are in their order. -/
theorem pairwise_editsFrom (i : Nat) (ps : List (Text × Hit Text)) :
    (editsFrom i ps).Pairwise fun a b => a.le b = true := by
  induction ps generalizing i with
  | nil => exact .nil
  | cons p ps ih =>
    refine List.pairwise_cons.2 ⟨fun e he => ?_, ih _⟩
    have := range_of_mem_editsFrom he
    simp only [Edit.le, Bool.or_eq_true, Bool.and_eq_true, decide_eq_true_eq, beq_iff_eq]
    omega

/-- Splicing from the position `m` on, where the cut begins. -/
theorem spliceFrom_editsFrom {s : Text} {m : Nat} {ps : List (Text × Hit Text)} {rest : Text}
    (h : s.drop m = (⟨ps, rest⟩ : Cut Text).join) :
    s.spliceFrom m (editsFrom m ps) = (⟨ps, rest⟩ : Cut Text).joinWith id Hit.tag := by
  induction ps generalizing m with
  | nil =>
    -- at the end, what is left of the text is copied
    have hindex : Text.index s.length m = min m s.length := by
      rw [Text.index, if_neg (by omega), Int.toNat_natCast]
    rw [editsFrom, Text.spliceFrom, Text.sliceFrom, hindex, ← List.drop_eq_drop_min, h]
    rfl
  | cons p ps ih =>
    obtain ⟨gap, hit⟩ := p
    have hgap : s.drop m = gap ++ (hit.text ++ (⟨ps, rest⟩ : Cut Text).join) := by
      rw [h]
      simp [join, joinWith]
    -- after the edit, the cut goes on behind the range
    have hrest := Text.drop_add_length (Text.drop_add_length hgap)
    rw [editsFrom, Text.spliceFrom, if_neg (Int.not_lt.2 (by dsimp only; omega)),
      Text.slice_add_length hgap, ih hrest]
    simp [joinWith]

/-- Splicing the edits of a cut keeps its gaps and replaces its hits. -/
theorem splice_edits (k : Cut Text) : k.join.splice k.edits = k.joinWith id Hit.tag := by
  rw [Text.splice, edits, List.mergeSort_of_pairwise (pairwise_editsFrom 0 k.pieces)]
  exact spliceFrom_editsFrom (m := 0) rfl

/-- What the edits of a cut do to the length of the text. -/
theorem length_joinWith_tag (k : Cut Text) :
    ((k.joinWith id Hit.tag).length : Int) =
      k.join.length + (k.edits.map fun e => (e.text.length - (e.stop - e.start) : Int)).sum := by
  obtain ⟨ps, rest⟩ := k
  rw [edits]
  -- how long an edit is does not depend on where it stands
  generalize 0 = i
  induction ps generalizing i with
  | nil => simp [editsFrom, join, joinWith]
  | cons p ps ih =>
    have := ih (i + p.1.length + p.2.text.length)
    simp only [editsFrom, join, joinWith, List.flatMap_cons, List.map_cons, List.sum_cons,
      List.length_append, id] at this ⊢
    omega

end Cut

/-! ### Separate edits -/

namespace Edit

/-- Edits to a text of length `n`: their ranges lie within the text, no two of them are the same,
and no two overlap.  An empty range may stand at either end of another one. -/
structure Separate (n : Nat) (edits : List Edit) : Prop where
  /-- Every range lies within the text. -/
  within : ∀ e ∈ edits, 0 ≤ e.start ∧ e.start ≤ e.stop ∧ e.stop ≤ n
  /-- No two ranges are the same. -/
  distinct : (edits.map fun e => (e.start, e.stop)).Nodup
  /-- Of two ranges, one ends before the other begins. -/
  apart : edits.Pairwise fun a b => a.stop ≤ b.start ∨ b.stop ≤ a.start

/-- Edits are ordered by where they start, and where they stop. -/
theorem le_trans (a b c : Edit) (hab : a.le b = true) (hbc : b.le c = true) : a.le c = true := by
  simp only [le, Bool.or_eq_true, Bool.and_eq_true, decide_eq_true_eq, beq_iff_eq] at *
  omega

/-- Of two edits, one comes first. -/
theorem le_total (a b : Edit) : (a.le b || b.le a) = true := by
  simp only [le, Bool.or_eq_true, Bool.and_eq_true, decide_eq_true_eq, beq_iff_eq]
  omega

/-- Edits that none of the two comes before have the same range. -/
theorem range_eq_of_le {a b : Edit} (hab : a.le b = true) (hba : b.le a = true) :
    (a.start, a.stop) = (b.start, b.stop) := by
  simp only [le, Bool.or_eq_true, Bool.and_eq_true, decide_eq_true_eq, beq_iff_eq] at *
  simp only [Prod.mk.injEq]
  omega

/-- Sorted edits are in order. -/
theorem pairwise_mergeSort (edits : List Edit) :
    (edits.mergeSort le).Pairwise fun a b => a.le b = true :=
  List.pairwise_mergeSort le_trans le_total edits

namespace Separate

variable {n : Nat} {edits edits' : List Edit}

/-- The order of edits does not matter for being separate. -/
theorem of_perm (h : Separate n edits) (hperm : edits'.Perm edits) : Separate n edits' where
  within e he := h.within e (hperm.mem_iff.1 he)
  distinct := ((hperm.map _).nodup_iff).2 h.distinct
  apart := hperm.symm.pairwise h.apart Or.symm

/-- Separate edits have one order only. -/
theorem mergeSort_eq (h : Separate n edits) (hperm : edits'.Perm edits) :
    edits'.mergeSort le = edits.mergeSort le := by
  have hsorted : (edits'.mergeSort le).Perm (edits.mergeSort le) :=
    (List.mergeSort_perm _ _).trans (hperm.trans (List.mergeSort_perm _ _).symm)
  -- edits in the same place of the order have the same range, and no two have
  refine hsorted.eq_of_pairwise ?_ (pairwise_mergeSort _) (pairwise_mergeSort _)
  intro a b ha hb hab hba
  refine List.inj_on_of_nodup_map h.distinct ?_ (List.mem_mergeSort.1 hb) (range_eq_of_le hab hba)
  exact hperm.mem_iff.1 (List.mem_mergeSort.1 ha)

/-- In their order, separate edits end before the next ones begin. -/
theorem pairwise_stop_le (h : Separate n edits) :
    (edits.mergeSort le).Pairwise fun a b => a.stop ≤ b.start := by
  obtain ⟨hwithin, hdistinct, hapart⟩ := h.of_perm (List.mergeSort_perm edits le)
  rw [List.Nodup, List.pairwise_map] at hdistinct
  refine (((pairwise_mergeSort edits).and hdistinct).and hapart).imp_of_mem ?_
  rintro a b ha hb ⟨⟨hab, hne⟩, hends⟩
  have hra := hwithin a ha
  have hrb := hwithin b hb
  simp only [le, Bool.or_eq_true, Bool.and_eq_true, decide_eq_true_eq, beq_iff_eq] at hab
  -- an edit that starts no later stops no later, unless the range is the same
  simp only [ne_eq, Prod.mk.injEq, not_and] at hne
  omega

end Separate

/-- Edits that come one after the other, from the position `m` on, are those of a cut of what stands
there. -/
theorem exists_cut_from {s : Text} {es : List Edit} {m : Nat}
    (hwithin : ∀ e ∈ es, (m : Int) ≤ e.start ∧ e.start ≤ e.stop ∧ e.stop ≤ s.length)
    (hsorted : es.Pairwise fun a b => a.stop ≤ b.start) :
    ∃ k : Cut Text, k.join = s.drop m ∧ Cut.editsFrom m k.pieces = es := by
  induction es generalizing m with
  | nil => exact ⟨⟨[], s.drop m⟩, rfl, rfl⟩
  | cons e es ih =>
    obtain ⟨⟨hfirst, hstart, hstop⟩, hwithin⟩ := List.forall_mem_cons.1 hwithin
    obtain ⟨hnext, hsorted⟩ := List.pairwise_cons.1 hsorted
    -- the edit replaces `old` characters after `gap` others, and what is left is cut in turn
    obtain ⟨gap, hgap⟩ : ∃ gap : Nat, e.start = (m + gap : Nat) :=
      ⟨(e.start - m).toNat, by omega⟩
    obtain ⟨old, hold⟩ : ∃ old : Nat, e.stop = (m + gap + old : Nat) :=
      ⟨(e.stop - e.start).toNat, by omega⟩
    obtain ⟨k, hjoin, hedits⟩ := ih (m := m + gap + old)
      (fun e' he' => ⟨hold ▸ hnext e' he', (hwithin e' he').2⟩) hsorted
    refine ⟨⟨((s.drop m).take gap, ⟨e.text, ((s.drop m).drop gap).take old⟩) :: k.pieces, k.rest⟩,
      ?_, ?_⟩
    · have hk : k.join = ((s.drop m).drop gap).drop old := by
        rw [hjoin, List.drop_drop, List.drop_drop, Nat.add_assoc]
      simp only [Cut.join, Cut.joinWith, List.flatMap_cons, id, List.append_assoc] at hk ⊢
      rw [hk, List.take_append_drop, List.take_append_drop]
    · have hgaplen : ((s.drop m).take gap).length = gap := by
        rw [List.length_take, List.length_drop]
        omega
      have holdlen : (((s.drop m).drop gap).take old).length = old := by
        rw [List.length_take, List.length_drop, List.length_drop]
        omega
      rw [Cut.editsFrom, hgaplen, holdlen, hedits, ← hgap, ← hold]

/-- Separate edits are the edits of a cut, in their order. -/
theorem Separate.exists_cut {s : Text} {edits : List Edit} (h : Separate s.length edits) :
    ∃ k : Cut Text, k.join = s ∧ k.edits = edits.mergeSort le := by
  refine exists_cut_from (m := 0) (fun e he => ?_) h.pairwise_stop_le
  exact h.within e (List.mem_mergeSort.1 he)

end Edit

/-- Splicing replaces the ranges of separate edits all at once.  The text is cut at the ranges; the
gaps stay as they are and in order, and in the place of each range comes its new text.  So the order
of the edits does not matter, and the length is that of the text but for what each edit adds. -/
theorem Text.splice_of_separate {s : Text} {edits : List Edit}
    (h : Edit.Separate s.length edits) :
    (∃ k : Cut Text, k.join = s ∧ k.edits.Perm edits ∧
      s.splice edits = k.joinWith id Hit.tag) ∧
    (∀ edits' : List Edit, edits'.Perm edits → s.splice edits' = s.splice edits) ∧
    ((s.splice edits).length : Int) =
      s.length + (edits.map fun e => (e.text.length - (e.stop - e.start) : Int)).sum := by
  obtain ⟨k, rfl, hedits⟩ := h.exists_cut
  have hperm : k.edits.Perm edits := hedits ▸ List.mergeSort_perm edits Edit.le
  have horder : ∀ edits' : List Edit, edits'.Perm edits →
      k.join.splice edits' = k.join.splice edits := fun edits' hperm' => by
    rw [splice, splice, h.mergeSort_eq hperm']
  -- any order will do, so take that of the cut
  have hsplice : k.join.splice edits = k.joinWith id Hit.tag := by
    rw [← horder k.edits hperm, k.splice_edits]
  refine ⟨⟨k, rfl, hperm, hsplice⟩, horder, ?_⟩
  rw [hsplice, k.length_joinWith_tag, (hperm.map _).sum_eq]

/-- A text that is put in between two ranges that touch, in front of one that is deleted, and one at
the end; the edits come in no order. -/
theorem Text.splice_of_separate_touching :
    let s : Text := "abcdef".toList
    let edits : List Edit := [⟨4, 4, ['+']⟩, ⟨2, 4, []⟩, ⟨6, 6, ['!']⟩, ⟨2, 2, ['<']⟩,
      ⟨0, 2, ['X', 'Y', 'Z']⟩]
    Edit.Separate s.length edits ∧ s.splice edits = "XYZ<+ef!".toList ∧
    (∃ k : Cut Text, k.join = s ∧ k.edits.Perm edits ∧
      s.splice edits = k.joinWith id Hit.tag) ∧
    (∀ edits' : List Edit, edits'.Perm edits → s.splice edits' = s.splice edits) ∧
    ((s.splice edits).length : Int) =
      s.length + (edits.map fun e => (e.text.length - (e.stop - e.start) : Int)).sum := by
  intro s edits
  have hseparate : Edit.Separate s.length edits := ⟨by decide, by decide, by decide⟩
  have hall := splice_of_separate hseparate
  -- in the order of their positions, the edits can be made one by one
  have hsorted : s.splice [⟨0, 2, ['X', 'Y', 'Z']⟩, ⟨2, 2, ['<']⟩, ⟨2, 4, []⟩, ⟨4, 4, ['+']⟩,
      ⟨6, 6, ['!']⟩] = "XYZ<+ef!".toList := by
    rw [splice, List.mergeSort_of_pairwise (by decide)]
    decide
  exact ⟨hseparate, (hall.2.1 _ (by decide)).symm.trans hsorted, hall⟩

/-! ### Setting literals aside -/

/-- A cut with other tags. -/
def Cut.retag {α : Type} (f : Hit α → Text) (k : Cut α) : Cut Text :=
  { pieces := k.pieces.map fun p => (p.1, ⟨f p.2, p.2.text⟩), rest := k.rest }

/-- Tags are not part of the text. -/
theorem Cut.join_retag {α : Type} (f : Hit α → Text) (k : Cut α) : (k.retag f).join = k.join := by
  simp [retag, join, joinWith, List.flatMap_map]

/-- With other tags, these are put in. -/
theorem Cut.joinWith_retag {α : Type} (f : Hit α → Text) (k : Cut α) :
    (k.retag f).joinWith id Hit.tag = k.joinWith id f := by
  simp [retag, joinWith, List.flatMap_map]

/-- The literals of a draft cut its text. -/
theorem Draft.join_found (d : Draft) : d.found.join = d.text := by
  rw [found, Cut.join_eq_text, Cut.symbols_numbered, Marked.text_number, ← Cut.join_eq_text,
    Literal.cut, Recogniser.join_cut]

/-- Setting literals aside is splicing in their placeholders. -/
theorem Draft.text_preserve_eq_splice (d : Draft) :
    d.preserve.text = d.text.splice (d.found.retag placeholder).edits := by
  calc d.preserve.text = (d.found.retag placeholder).joinWith id Hit.tag :=
        (Cut.joinWith_retag _ _).symm
    _ = (d.found.retag placeholder).join.splice (d.found.retag placeholder).edits :=
        (Cut.splice_edits _).symm
    _ = d.text.splice (d.found.retag placeholder).edits := by
        rw [Cut.join_retag, join_found]

end SqlTidy
