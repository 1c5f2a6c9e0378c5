/-!
# Texts

A text is the list of its characters.  Positions and lengths count characters, and every scan of the
library is a recursion on this list.  Two things are left out of account.  A character is a Unicode
scalar value, so that no text holds a surrogate that stands alone.  And a text may have any number
of characters; that only so many can be counted matters for indentation (`Options.indent`), and
otherwise is a condition of the result that needs it (`TextsFit`).

## Main definitions

* `Text` — a list of characters.
* `Text.ofNat n`, `Text.ofInt i` — numbers in decimal notation.
* `Text.times n s` — `s` written `n` times.
* `Text.index n i`, `Text.slice s i j` — positions that may be counted from the end, and the part
  of a text between two of them.
* `Text.joinLines ls` — lines set one under the other.
* `Text.replaceAll old new s` — every occurrence of `old` replaced.
-/

namespace SqlTidy

/-- A text: its characters in order.  They are Unicode scalar values, and a text with a lone
surrogate is not represented. -/
abbrev Text := List Char

namespace Text

/-! ### Numbers and repetition -/

/-- A natural number in decimal notation. -/
def ofNat (n : Nat) : Text := Nat.toDigits 10 n

/-- An integer in decimal notation, with a sign if it is negative. -/
def ofInt : Int → Text
  | .ofNat n => ofNat n
  | .negSucc n => '-' :: ofNat (n + 1)

/-- `n` copies of a text.  No work is done for the empty text, whatever `n` is. -/
def times (n : Nat) : Text → Text
  | [] => []
  | c :: r => (List.replicate n (c :: r)).flatten

@[simp] theorem times_nil (n : Nat) : times n [] = [] := rfl

theorem times_eq_flatten (n : Nat) (s : Text) : times n s = (List.replicate n s).flatten := by
  cases s with
  | nil => simp
  | cons c r => rfl

/-! ### Slices -/

/-- The place of index `i` in a text of length `n`: a negative index counts from the end, and one
beyond either end stands for that end. -/
def index (n : Nat) (i : Int) : Nat :=
  if i < 0 then (n + i).toNat else min i.toNat n

/-- The part of a text from index `i` up to index `j`; nothing if they come in the wrong order. -/
def slice (s : Text) (i j : Int) : Text :=
  (s.take (index s.length j)).drop (index s.length i)

/-- The part of a text from index `i` on. -/
def sliceFrom (s : Text) (i : Int) : Text := s.drop (index s.length i)

/-! ### Lines -/

/-- Lines set one under the other, with a line feed between two of them. -/
def joinLines : List Text → Text
  | [] => []
  | [l] => l
  | l :: ls => l ++ '\n' :: joinLines ls

@[simp] theorem joinLines_nil : joinLines [] = [] := rfl

@[simp] theorem joinLines_singleton (l : Text) : joinLines [l] = l := rfl

@[simp] theorem joinLines_cons_cons (l m : Text) (ls : List Text) :
    joinLines (l :: m :: ls) = l ++ '\n' :: joinLines (m :: ls) := rfl

/-! ### Replacement -/

/-- What follows `front` in a text that begins with it. -/
def after? : (front s : Text) → Option Text
  | [], s => some s
  | _ :: _, [] => none
  | a :: front, c :: s => if a = c then after? front s else none

@[simp] theorem after?_nil (s : Text) : after? [] s = some s := by cases s <;> rfl

/-- `after?` splits a text into the given front and the rest. -/
theorem eq_append_of_after? {front s rest : Text} (h : after? front s = some rest) :
    s = front ++ rest := by
  induction front generalizing s with
  | nil => simpa using h
  | cons a front ih =>
    cases s with
    | nil => simp [after?] at h
    | cons c s =>
      by_cases hac : a = c
      · simp only [after?, hac, if_true] at h
        simp [hac, ih h]
      · simp [after?, hac] at h

/-- What follows a nonempty front is shorter than the text. -/
theorem length_lt_of_after? {front s rest : Text} (hfront : front ≠ [])
    (h : after? front s = some rest) : rest.length < s.length := by
  have := List.length_pos_iff.2 hfront
  simp only [eq_append_of_after? h, List.length_append]
  omega

/-- Replaces the occurrences of a nonempty text from left to right, none of them overlapping. -/
def replaceFrom (old new : Text) (hold : old ≠ []) (s : Text) : Text :=
  match h : after? old s with
  | some rest =>
    have := length_lt_of_after? hold h
    new ++ replaceFrom old new hold rest
  | none =>
    match s with
    | [] => []
    | c :: r => c :: replaceFrom old new hold r
termination_by s.length

/-- Replaces every occurrence of `old` by `new`.  The empty text occurs before every character and
at the end. -/
def replaceAll (old new s : Text) : Text :=
  if h : old = [] then new ++ s.flatMap fun c => c :: new else replaceFrom old new h s

end Text
end SqlTidy
