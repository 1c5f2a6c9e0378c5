import SqlTidy.Proofs.Settings

/-!
# Options derived step by step

Options are derived from others by changing some of them, and a change that cannot be made leaves
them as they were.  However many changes are tried, the outcome is that of setting all options at
once: to what the first table sets them to, overlaid with the changes that were made.  Every option
is read by itself, and what was read once is read again to the same effect, so it does not matter
that the earlier values have been checked before the later ones are known.

## Main definitions

* `Table.overlay t changes` — the table `t` with some values changed and others added.
* `Options.toTable o` — options as values by name, and `Options.Valid o` if these are in order.
* `Options.attempt o changes` — the options after a change that may fail.
* `Options.accepted o steps` — the changes that are made when several are tried.

## Main results

* `Table.lookup_overlay` — what an overlaid table holds.
* `Options.ofTable_overlay` — one change of options is one change of the table they are set from.
* `Options.update_eq_ofTable` — options that do not change are set anew to their own values.
* `Options.ofTable_foldl_overlay` — any number of changes are those of the table that succeed.
-/

namespace SqlTidy

/-! ### Overlaid tables -/

namespace Table

variable {α : Type}

/-- A table with changes: a key that is there keeps its place and gets its new value, the other keys
go last. -/
def overlay (t changes : Table α) : Table α :=
  (t.map fun e => (e.1, (changes.lookup e.1).getD e.2)) ++
    changes.filter fun e => (t.lookup e.1).isNone

/-- Changing values keeps every key where it is looked up. -/
theorem lookup_map_value (f : Text → α → α) (t : Table α) (k : Text) :
    (t.map fun e => (e.1, f e.1 e.2)).lookup k = (t.lookup k).map (f k) := by
  induction t with
  | nil => rfl
  | cons e t ih =>
    obtain ⟨key, v⟩ := e
    by_cases hk : k = key
    · simp [hk]
    · simpa [List.lookup_cons, beq_false_of_ne hk] using ih

/-- Leaving out keys keeps the values of the others. -/
theorem lookup_filter_key (p : Text → Bool) (t : Table α) (k : Text) :
    (t.filter fun e => p e.1).lookup k = if p k then t.lookup k else none := by
  induction t with
  | nil => simp
  | cons e t ih =>
    obtain ⟨key, v⟩ := e
    by_cases hk : k = key
    · cases hp : p key with
      | true => simp [hk, hp]
      | false => simpa [hk, hp] using ih
    · cases hp : p key with
      | true => simpa [hp, List.lookup_cons, beq_false_of_ne hk] using ih
      | false => simpa [hp, List.lookup_cons, beq_false_of_ne hk] using ih

/-- An overlaid table holds the changes, and the old values where there is no change. -/
theorem lookup_overlay (t changes : Table α) (k : Text) :
    (t.overlay changes).lookup k = (changes.lookup k).or (t.lookup k) := by
  rw [overlay, List.lookup_append, lookup_map_value fun k v => (changes.lookup k).getD v,
    lookup_filter_key fun k => (t.lookup k).isNone]
  -- a key that both have is found in the first part, with its new value
  cases t.lookup k <;> cases changes.lookup k <;> rfl

end Table

/-- Where all names of a table are known, the unknown ones come from the changes. -/
theorem unknownNames_overlay {t : Table Value} (ht : unknownNames t = []) (changes : Table Value) :
    unknownNames (t.overlay changes) = unknownNames changes := by
  have hold : Table.keys (t.map fun e => (e.1, (changes.lookup e.1).getD e.2)) = Table.keys t := by
    simp [Table.keys]
  -- a name that the table holds is known, so that no unknown name of the changes is left out
  have hnew : ∀ e ∈ changes, (Field.ofName? e.1).isNone = true → (t.lookup e.1).isNone = true := by
    intro e _ hname
    rw [Option.isNone_iff_eq_none, List.lookup_eq_none_iff]
    intro p hp
    have hmem : p.1 ∉ unknownNames t := by simp [ht]
    rw [unknownNames, List.mem_filter, not_and] at hmem
    refine bne_iff_ne.2 ?_
    rintro heq
    exact hmem (List.mem_map_of_mem hp) (heq ▸ hname)
  rw [unknownNames] at ht
  rw [unknownNames, Table.overlay, Table.keys, List.map_append, List.filter_append, ← Table.keys,
    hold, ht, List.nil_append, unknownNames, Table.keys, List.filter_map, List.filter_map,
    List.filter_filter]
  refine congrArg _ (List.filter_congr fun e he => ?_)
  cases hname : (Field.ofName? e.1).isNone with
  | true => simp [hname, hnew e he hname]
  | false => simp [hname]

namespace Options

/-! ### Options written out -/

/-- Options as values by name. -/
def toTable (o : Options) : Table Value := o.toSettings.toTable

end Options

/-- The values that an option can have: the names of case styles, integers that are not negative,
and texts. -/
def Field.Accepts : Field → Value → Prop
  | reservedCase, v | objectCase, v | functionCase, v => ∃ style : CaseStyle, v = .text style.name
  | indentSize, v | baseIndent, v => ∃ i : Int, v = .int i ∧ 0 ≤ i
  | indentText, v => ∃ s : Text, v = .text s

namespace Options

/-- Options are valid: every option has a value of its kind, and setting all of them to their values
gives the same options. -/
structure Valid (o : Options) : Prop where
  /-- Every option has a value of its kind. -/
  accepts : ∀ f : Field, ∃ v, f.given o.toTable = some v ∧ f.Accepts v
  /-- The options can be set to their own values. -/
  ofTable_toTable : ofTable o.toTable = .ok o

/-- All options are valid: the type of options leaves no room for others. -/
theorem valid (o : Options) : o.Valid where
  accepts f := by
    cases f with
    | reservedCase => exact ⟨_, rfl, o.reservedCase, rfl⟩
    | objectCase => exact ⟨_, rfl, o.objectCase, rfl⟩
    | functionCase => exact ⟨_, rfl, o.functionCase, rfl⟩
    | indentSize => exact ⟨_, rfl, o.indentSize, rfl, Int.natCast_nonneg _⟩
    | baseIndent => exact ⟨_, rfl, o.baseIndent, rfl, Int.natCast_nonneg _⟩
    | indentText => exact ⟨_, rfl, o.indentText, rfl⟩
  ofTable_toTable := Settings.toOptions_eq_ok_iff.2 rfl

/-! ### One change -/

/-- An option of an overlaid table is that of the changes, or what it was set to before. -/
theorem pick_overlay {α : Type} {t : Table Value} {f : Field} {old a : α}
    {read : Value → Except OptionError α} (h : pick t f old read = .ok a)
    (changes : Table Value) : pick (t.overlay changes) f old read = pick changes f a read := by
  have hgiven : f.given (t.overlay changes) = (f.given changes).or (f.given t) :=
    Table.lookup_overlay t changes f.name
  rw [pick, hgiven, pick]
  cases f.given changes with
  | some v => rfl
  | none => exact h

/-- Changing options is changing the table that they are set from, also as to the error if the
change cannot be made. -/
theorem ofTable_overlay {t : Table Value} {o : Options} (h : ofTable t = .ok o)
    (changes : Table Value) : ofTable (t.overlay changes) = o.update changes := by
  obtain ⟨hnames, ha, hb, hc, hd, he, hf⟩ := update_eq_ok_iff.1 h
  rw [ofTable, update, update, unknownNames_overlay hnames]
  simp only [pick_overlay ha, pick_overlay hb, pick_overlay hc, pick_overlay hd, pick_overlay he,
    pick_overlay hf]

/-- Changing some options is setting all of them anew, those that do not change to their own
values. -/
theorem update_eq_ofTable (o : Options) (changes : Table Value) :
    o.update changes = ofTable (o.toTable.overlay changes) :=
  (ofTable_overlay o.valid.ofTable_toTable changes).symm

/-! ### Any number of changes -/

/-- The options after a change; as they were if the change cannot be made. -/
def attempt (o : Options) (changes : Table Value) : Options :=
  match o.update changes with
  | .ok o' => o'
  | .error _ => o

/-- The changes that are made if several are tried one after the other. -/
def accepted (o : Options) : List (Table Value) → List (Table Value)
  | [] => []
  | changes :: steps =>
    match o.update changes with
    | .ok o' => changes :: accepted o' steps
    | .error _ => accepted o steps

/-- Options that are derived step by step from a table are valid, and are those that one table
sets: the first one, overlaid in order with the changes that could be made.  A change sets all
options anew, those that it does not name to their own values. -/
theorem ofTable_foldl_overlay {t : Table Value} {o : Options} (h : ofTable t = .ok o)
    (steps : List (Table Value)) :
    (∀ o' ∈ steps.scanl attempt o, o'.Valid ∧
      ∀ changes, o'.update changes = ofTable (o'.toTable.overlay changes)) ∧
    ofTable ((o.accepted steps).foldl Table.overlay t) = .ok (steps.foldl attempt o) := by
  refine ⟨fun o' _ => ⟨o'.valid, o'.update_eq_ofTable⟩, ?_⟩
  -- the invariant is that the table sets the options reached so far; a change that fails touches
  -- neither
  induction steps generalizing t o with
  | nil => exact h
  | cons changes steps ih =>
    rw [accepted, List.foldl_cons, attempt]
    cases hstep : o.update changes with
    | ok o' => exact ih ((ofTable_overlay h changes).trans hstep)
    | error e => exact ih h

/-- A change that fails with the last of its options, one with a truth value for a size and one of
an unknown option, between two that are made. -/
theorem ofTable_foldl_overlay_refused :
    let t : Table Value :=
      [("indent_size".toList, .int 2), ("object_case".toList, .text "Uppercase".toList)]
    let steps : List (Table Value) :=
      [[("base_indent".toList, .int 3), ("function_case".toList, .text "CAPITALIZE".toList)],
        [("indent_size".toList, .int 1), ("indent_char".toList, .int 1)],
        [("indent_size".toList, .bool true)],
        [("base_indent".toList, .int 0), ("tabs".toList, .null)],
        [("indent_char".toList, .text ['\t']), ("base_indent".toList, .int 1)]]
    let o : Options := { objectCase := .uppercase, indentSize := 2 }
    let o' : Options :=
      { objectCase := .uppercase, functionCase := .capitalize, indentSize := 2, baseIndent := 1,
        indentText := ['\t'] }
    ofTable t = .ok o ∧ (o.accepted steps).length = 2 ∧ steps.foldl attempt o = o' ∧
    (∀ o' ∈ steps.scanl attempt o, o'.Valid ∧
      ∀ changes, o'.update changes = ofTable (o'.toTable.overlay changes)) ∧
    ofTable ((o.accepted steps).foldl Table.overlay t) = .ok o' := by
  intro t steps o o'
  have hset : ofTable t = .ok o := rfl
  have hlast : steps.foldl attempt o = o' := rfl
  obtain ⟨hvalid, hmerged⟩ := ofTable_foldl_overlay hset steps
  exact ⟨hset, rfl, hlast, hvalid, hmerged.trans (congrArg _ hlast)⟩

end Options
end SqlTidy
