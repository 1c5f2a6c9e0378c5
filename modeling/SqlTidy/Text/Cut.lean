import SqlTidy.Text.Basic

/-!
# Cutting a text at its matches

A recogniser looks at the front of a text and says whether a match stands there, of which kind and
how long.  Cutting walks over a text from the left and takes every match it meets, none of them
overlapping, together with the gaps between them.  The rules that look for a pattern all go over the
text in this way: F001 for literals (§14 of the specification), and F003 and F006 for placeholders.

## Main definitions

* `Recogniser α` — recognises matches, each with a tag `α`.
* `Hit α` — a match with its tag.
* `Cut α` — a text as gaps and hits in turn: each hit with the gap before it, then the last gap.
* `Recogniser.cut R s` — the cut of `s` at the matches of `R`.
* `Cut.join` — the text that a cut makes up.

## Main results

* `Recogniser.join_cut` — a cut makes up the text that it was made from.
-/

namespace SqlTidy

/-- Recognises matches at the front of a text. -/
structure Recogniser (α : Type) where
  /-- The tag and the length of the match at the front of a text. -/
  read : Text → Option (α × Nat)
  /-- A match has at least one character. -/
  pos : ∀ {s a n}, read s = some (a, n) → 0 < n

/-- A match: its tag and its text. -/
structure Hit (α : Type) where
  /-- The tag of the match. -/
  tag : α
  /-- The matched text. -/
  text : Text
  deriving DecidableEq, Repr, Inhabited

/-- A text as gaps and hits in turn. -/
structure Cut (α : Type) where
  /-- Every hit with the gap before it. -/
  pieces : List (Text × Hit α)
  /-- The gap after the last hit. -/
  rest : Text
  deriving DecidableEq, Repr, Inhabited

namespace Cut

variable {α : Type}

/-- Puts a character in front of the first gap. -/
def push (c : Char) : Cut α → Cut α
  | ⟨[], rest⟩ => ⟨[], c :: rest⟩
  | ⟨(gap, hit) :: ps, rest⟩ => ⟨(c :: gap, hit) :: ps, rest⟩

/-- Puts a hit in front of the first gap. -/
def pushHit (hit : Hit α) (k : Cut α) : Cut α := ⟨([], hit) :: k.pieces, k.rest⟩

/-- The hits in order. -/
def hits (k : Cut α) : List (Hit α) := k.pieces.map Prod.snd

/-- The gaps in order, one more than there are hits. -/
def gaps (k : Cut α) : List Text := k.pieces.map Prod.fst ++ [k.rest]

/-- The text of a cut whose gaps are written by `onGap` and whose hits are written by `onHit`. -/
def joinWith (onGap : Text → Text) (onHit : Hit α → Text) (k : Cut α) : Text :=
  (k.pieces.flatMap fun p => onGap p.1 ++ onHit p.2) ++ onGap k.rest

/-- The text that a cut makes up. -/
def join (k : Cut α) : Text := k.joinWith id Hit.text

@[simp] theorem join_nil (s : Text) : (⟨[], s⟩ : Cut α).join = s := rfl

@[simp] theorem join_push (c : Char) (k : Cut α) : (k.push c).join = c :: k.join := by
  obtain ⟨_ | ⟨⟨gap, hit⟩, ps⟩, rest⟩ := k <;> simp [push, join, joinWith]

@[simp] theorem join_pushHit (hit : Hit α) (k : Cut α) :
    (k.pushHit hit).join = hit.text ++ k.join := by
  simp [pushHit, join, joinWith]

end Cut

namespace Recogniser

variable {α : Type}

/-- The cut of a text at its matches, taken from the left and none of them overlapping. -/
def cut (R : Recogniser α) (s : Text) : Cut α :=
  match s with
  | [] => ⟨[], []⟩
  | c :: r =>
    match h : R.read (c :: r) with
    | some (a, n) =>
      have := R.pos h
      (R.cut ((c :: r).drop n)).pushHit ⟨a, (c :: r).take n⟩
    | none => (R.cut r).push c
termination_by s.length
decreasing_by
  · simp only [List.length_drop, List.length_cons]
    omega
  · simp

@[simp] theorem cut_nil (R : Recogniser α) : R.cut [] = ⟨[], []⟩ := by
  rw [cut]

theorem cut_of_read_eq_none (R : Recogniser α) {c : Char} {r : Text}
    (h : R.read (c :: r) = none) : R.cut (c :: r) = (R.cut r).push c := by
  rw [cut]
  split
  · next h' => simp [h] at h'
  · rfl

theorem cut_of_read_eq_some (R : Recogniser α) {c : Char} {r : Text} {a : α} {n : Nat}
    (h : R.read (c :: r) = some (a, n)) :
    R.cut (c :: r) = (R.cut ((c :: r).drop n)).pushHit ⟨a, (c :: r).take n⟩ := by
  rw [cut]
  split
  · next a' n' h' =>
    obtain ⟨rfl, rfl⟩ : a' = a ∧ n' = n := by simpa [h] using h'.symm
    rfl
  · next h' => simp [h] at h'

/-- A cut makes up the text that it was made from. -/
@[simp] theorem join_cut (R : Recogniser α) (s : Text) : (R.cut s).join = s := by
  fun_induction cut R s with
  | case1 => rfl
  | case2 c r a n h hpos ih => simp [ih]
  | case3 c r h ih => simp [ih]

end Recogniser
end SqlTidy
