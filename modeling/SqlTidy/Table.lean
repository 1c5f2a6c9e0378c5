import SqlTidy.Text.Basic

/-!
# Tables

A table maps texts to values and keeps its entries in the order in which their keys first came.

## Main definitions

* `Table α` — a list of keys with their values.
* `Table.insert k v t` — a known key gets the new value at its old place, a new one goes last.
* `Table.keys t` — the keys in order.
-/

namespace SqlTidy

/-- Keys with their values, in order of first insertion. -/
abbrev Table (α : Type) := List (Text × α)

namespace Table

variable {α : Type}

/-- Gives key `k` the value `v`: at its place if it is there already, else at the end. -/
def insert (k : Text) (v : α) : Table α → Table α
  | [] => [(k, v)]
  | e :: t => if e.1 = k then (k, v) :: t else e :: insert k v t

/-- The keys of a table in order. -/
def keys (t : Table α) : List Text := t.map Prod.fst

@[simp] theorem keys_nil : keys ([] : Table α) = [] := rfl

/-- A new key goes last. -/
theorem insert_of_not_mem {k : Text} {t : Table α} (v : α) (h : k ∉ keys t) :
    insert k v t = t ++ [(k, v)] := by
  induction t with
  | nil => rfl
  | cons e t ih =>
    simp only [keys, List.map_cons, List.mem_cons, not_or] at h
    simp [insert, Ne.symm h.1, ih h.2]

end Table
end SqlTidy
