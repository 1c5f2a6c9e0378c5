import SqlTidy.Toml.Basic

/-!
# TOML documents

A document is built statement by statement.  Beside its tables it keeps in mind which tables have
been declared, which of them a dotted key has made, and which values are closed because they were
written out in one piece: no key may reach into those, and no table may be declared twice.

## Main definitions

* `Toml.Key` — the parts of a dotted key.
* `Toml.modifyAt` — changes the table behind a key, making the tables on the way.
* `Toml.Document` — the tables so far, and what may not be touched again.
* `Document.openTable`, `Document.openArray`, `Document.assign` — the effect of each statement.
* `Toml.Inline` — a table written out in one piece, while it is being read.
-/

namespace SqlTidy
namespace Toml

/-- The parts of a dotted key. -/
abbrev Key := List Text

/-- Changes the table behind a key, making the tables on the way that are missing.  A key part that
names a list leads on into the last table of it, if `intoLists` allows. -/
def modifyAt (intoLists : Bool) (f : Table Value → Except Error (Table Value)) :
    Key → Table Value → Except Error (Table Value)
  | [], t => f t
  | k :: ks, t =>
    match t.lookup k with
    | none => do
      let inner ← modifyAt intoLists f ks []
      pure (Table.insert k (.table inner) t)
    | some (.table inner) => do
      let inner ← modifyAt intoLists f ks inner
      pure (Table.insert k (.table inner) t)
    | some (.list vs) =>
      match intoLists, vs.getLast? with
      | true, some (.table inner) => do
        let inner ← modifyAt intoLists f ks inner
        pure (Table.insert k (.list (vs.dropLast ++ [.table inner])) t)
      | _, _ => .error (.redefined (k :: ks))
    | some _ => .error (.redefined (k :: ks))

/-- Gives a key that is not there yet a value. -/
def addNew (k : Text) (v : Value) (t : Table Value) : Except Error (Table Value) :=
  match t.lookup k with
  | none => .ok (Table.insert k v t)
  | some _ => .error (.redefined [k])

/-- Adds an empty table to a list of tables, which is made if it is missing. -/
def addTable (k : Text) (t : Table Value) : Except Error (Table Value) :=
  match t.lookup k with
  | none => .ok (Table.insert k (.list [.table []]) t)
  | some (.list vs) => .ok (Table.insert k (.list (vs ++ [.table []])) t)
  | some _ => .error (.redefined [k])

/-- Whether a value is written out in one piece and closed from then on. -/
def isClosed : Value → Bool
  | .list _ => true
  | .table _ => true
  | _ => false

/-- Whether a key is, or lies inside of, one of the given keys. -/
def isWithin (keys : List Key) (key : Key) : Bool := keys.any fun k => k.isPrefixOf key

/-- A document while it is being read. -/
structure Document where
  /-- The tables so far. -/
  data : Table Value := []
  /-- The tables that have been declared. -/
  declared : List Key := []
  /-- The tables that dotted keys have made since the last declaration. -/
  dotted : List Key := []
  /-- The values that have been written out in one piece. -/
  closed : List Key := []
  deriving Inhabited

namespace Document

/-- From a declaration on, the tables that dotted keys have made count as declared. -/
def settle (d : Document) : Document :=
  { d with declared := d.dotted ++ d.declared, dotted := [] }

/-- Declares a table. -/
def openTable (key : Key) (d : Document) : Except Error Document := do
  if d.declared.contains key || isWithin d.closed key then throw (.redefined key)
  let data ← modifyAt true .ok key d.data
  pure { d with data, declared := key :: d.declared }

/-- Declares another table of a list of tables.  What was declared inside the one before may be
declared again. -/
def openArray (key : Key) (d : Document) : Except Error Document := do
  if isWithin d.closed key then throw (.redefined key)
  match key.getLast? with
  | none => throw (.redefined key)
  | some last =>
    let data ← modifyAt true (addTable last) key.dropLast d.data
    let outside := fun k => !key.isPrefixOf k
    pure
      { d with
        data
        declared := key :: d.declared.filter outside
        closed := d.closed.filter outside }

/-- The keys of the tables that a dotted key leads through, under the given header. -/
def through (header key : Key) : List Key :=
  (List.range (key.length - 1)).map fun i => header ++ key.take (i + 1)

/-- Gives a key under the given header a value. -/
def assign (header key : Key) (v : Value) (d : Document) : Except Error Document := do
  if (through header key).any d.declared.contains then throw (.redefined key)
  if isWithin d.closed (header ++ key.dropLast) then throw (.redefined key)
  match key.getLast? with
  | none => throw (.redefined key)
  | some last =>
    let data ← modifyAt true (addNew last v) (header ++ key.dropLast) d.data
    pure
      { d with
        data
        dotted := through header key ++ d.dotted
        closed := if isClosed v then (header ++ key) :: d.closed else d.closed }

end Document

/-- A table written out in one piece, while it is being read. -/
structure Inline where
  /-- The table so far. -/
  data : Table Value := []
  /-- The values in it that have been written out in one piece. -/
  closed : List Key := []
  deriving Inhabited

/-- Gives a key of a table written out in one piece a value. -/
def Inline.assign (key : Key) (v : Value) (t : Inline) : Except Error Inline := do
  if isWithin t.closed key then throw (.redefined key)
  match key.getLast? with
  | none => throw (.redefined key)
  | some last =>
    let data ← modifyAt false (addNew last v) key.dropLast t.data
    pure { data, closed := if isClosed v then key :: t.closed else t.closed }

end Toml
end SqlTidy
