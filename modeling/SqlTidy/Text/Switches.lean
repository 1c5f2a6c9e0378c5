import SqlTidy.Text.Basic

/-!
# Character classes by switch points

A class of characters is stored as the increasing list of the code points at which membership
changes: out of the class before the first, inside from the first to the second, and so on.

## Main definitions

* `switched ps n` — `n` lies in the class with switch points `ps`.
-/

namespace SqlTidy
namespace Text

/-- Membership of code point `n` in the class with the switch points `ps`. -/
def switched : List Nat → Nat → Bool
  | [], _ => false
  | p :: ps, n => if n < p then false else !switched ps n

@[simp] theorem switched_nil (n : Nat) : switched [] n = false := rfl

/-- Before the first switch point nothing belongs to the class. -/
theorem switched_of_lt {p n : Nat} (ps : List Nat) (h : n < p) : switched (p :: ps) n = false := by
  simp [switched, h]

end Text
end SqlTidy
