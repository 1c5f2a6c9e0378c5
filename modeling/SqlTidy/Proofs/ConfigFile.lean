import SqlTidy.ConfigFile
import SqlTidy.Proofs.Settings

/-!
# Loading options

What comes of loading options is told by the files alone: which of them is selected, whether it can
be opened, and what is in it.  A file that describes options is loaded, and the defaults stand in
for any other, with two exceptions.  A path that cannot be looked up stops the loading, and so does
a project file in which `tool` is no table.

## Main definitions

* `Describes p bytes o` — the file at `p` with these bytes describes the options `o`.
* `ToolIsNoTable p bytes v` — the project file at `p` has `v` in the place of its table of tools.
* `FileTree.Selects tree path? p` — the file at `p` is the one to load.
* `FileTree.Configures tree path? o` — that file describes the options `o`.
* `FileTree.Fails tree path? e` — loading is stopped by `e`.

## Main results

* `readOptions_outcome` — what comes of reading a file.
* `FileTree.selects_or_refuses` — what comes of looking for the file to load.
* `loadOptions_outcome` — what comes of loading options.
-/

namespace SqlTidy

/-! ### What a file describes -/

/-- The bytes of a file are those of a TOML text with the given tables. -/
def Parses (bytes : ByteArray) (data : Table Value) : Prop :=
  ∃ s, decodeUtf8 bytes = some s ∧ Toml.parse s = .ok data

/-- Where the options stand in the tables of the file at `p`.  A project file has them in its table
of tools, under the name of the formatter; in any other file they are all there is. -/
inductive HoldsOptions (p : Path) (data : Table Value) : Value → Prop
  /-- A file of options alone has nothing else in it. -/
  | own : p.getLast? ≠ some FileTree.projectFileName → HoldsOptions p data (.table data)
  /-- A project without tools has no options. -/
  | noTool : p.getLast? = some FileTree.projectFileName → data.lookup "tool".toList = none →
      HoldsOptions p data (.table [])
  /-- Nor has a project with other tools only. -/
  | otherTools {tool : Table Value} : p.getLast? = some FileTree.projectFileName →
      data.lookup "tool".toList = some (.table tool) →
      tool.lookup "pgsql-formatter".toList = none → HoldsOptions p data (.table [])
  /-- A project may have options among its tools. -/
  | tool {tool : Table Value} {v : Value} : p.getLast? = some FileTree.projectFileName →
      data.lookup "tool".toList = some (.table tool) →
      tool.lookup "pgsql-formatter".toList = some v → HoldsOptions p data v

/-- The file at `p` with these bytes describes options. -/
def Describes (p : Path) (bytes : ByteArray) (o : Options) : Prop :=
  ∃ data v, Parses bytes data ∧ HoldsOptions p data v ∧ Settings.check v = .ok o.toSettings

/-- The project file at `p` has something else in the place of its table of tools. -/
def ToolIsNoTable (p : Path) (bytes : ByteArray) (v : Value) : Prop :=
  p.getLast? = some FileTree.projectFileName ∧ (∀ t, v ≠ .table t) ∧
    ∃ data, Parses bytes data ∧ data.lookup "tool".toList = some v

variable {p : Path} {data : Table Value}

/-- Where the options are looked for in the tables of a file. -/
theorem optionsTable_eq_ok_iff {v : Value} :
    optionsTable p data = .ok v ↔ HoldsOptions p data v := by
  unfold optionsTable
  constructor
  · intro h
    split at h
    · next hp =>
      split at h
      · next htool =>
        obtain rfl := Except.ok.inj h
        exact .noTool hp htool
      · next tool htool =>
        obtain rfl := Except.ok.inj h
        -- tools without an entry for the formatter count as an empty table of options
        cases hv : tool.lookup "pgsql-formatter".toList with
        | none => exact .otherTools hp htool hv
        | some v => exact .tool hp htool hv
      · cases h
    · next hp =>
      obtain rfl := Except.ok.inj h
      exact .own hp
  · intro h
    cases h with
    | own hp => rw [if_neg hp]
    | noTool hp htool => rw [if_pos hp, htool]
    | otherTools hp htool hv => simp only [if_pos hp, htool, hv, Option.getD_none]
    | tool hp htool hv => simp only [if_pos hp, htool, hv, Option.getD_some]

/-- The options cannot be looked for in one case only: in a project file whose `tool` is no table.
-/
theorem optionsTable_eq_error_iff {e : LoadError} :
    optionsTable p data = .error e ↔ p.getLast? = some FileTree.projectFileName ∧
      ∃ v, (∀ t, v ≠ .table t) ∧ data.lookup "tool".toList = some v ∧ e = .toolNotATable v := by
  unfold optionsTable
  constructor
  · intro h
    split at h
    · next hp =>
      split at h
      · cases h
      · cases h
      · next v hv htool =>
        obtain rfl := Except.error.inj h
        exact ⟨hp, v, fun t ht => hv t ht, htool, rfl⟩
    · cases h
  · rintro ⟨hp, v, hv, htool, rfl⟩
    rw [if_pos hp, htool]
    cases v with
    | table t => exact absurd rfl (hv t)
    | _ => rfl

/-! ### Reading a file -/

variable {bytes : ByteArray}

/-- A TOML text is read by its tables. -/
theorem readOptions_of_parses (h : Parses bytes data) :
    readOptions p bytes = readTables p data := by
  obtain ⟨s, hs, hdata⟩ := h
  simp only [readOptions, hs, hdata]

/-- What is not a TOML text is passed over. -/
theorem readOptions_of_not_parses (h : ¬∃ data, Parses bytes data) :
    ∃ w, readOptions p bytes = .ok { warning := some w } := by
  unfold readOptions
  split
  · exact ⟨_, rfl⟩
  · next s hs =>
    split
    · exact ⟨_, rfl⟩
    · next data hdata => exact absurd ⟨data, s, hs, hdata⟩ h

/-- A file that describes options is read as these options, without a warning. -/
theorem readOptions_of_describes {o : Options} (h : Describes p bytes o) :
    readOptions p bytes = .ok { options := o } := by
  obtain ⟨data, v, hdata, hv, hcheck⟩ := h
  -- settings that were checked can be set
  have hset : o.toSettings.toOptions = .ok o := Settings.toOptions_eq_ok_iff.2 rfl
  rw [readOptions_of_parses hdata, readTables, optionsTable_eq_ok_iff.2 hv]
  simp only [bind, Except.bind, hcheck, hset]
  rfl

/-- A project file whose `tool` is no table is not passed over; reading it fails. -/
theorem readOptions_of_toolIsNoTable {v : Value} (h : ToolIsNoTable p bytes v) :
    readOptions p bytes = .error (.toolNotATable v) := by
  obtain ⟨hp, hv, data, hdata, htool⟩ := h
  rw [readOptions_of_parses hdata, readTables,
    optionsTable_eq_error_iff.2 ⟨hp, v, hv, htool, rfl⟩]
  rfl

/-- A file describes options, or has something else in the place of its tools, or is passed over. -/
theorem readOptions_outcome (p : Path) (bytes : ByteArray) :
    (∃ o, Describes p bytes o) ∨ (∃ v, ToolIsNoTable p bytes v) ∨
      ∃ w, readOptions p bytes = .ok { warning := some w } := by
  by_cases hparses : ∃ data, Parses bytes data
  · obtain ⟨data, hdata⟩ := hparses
    cases hv : optionsTable p data with
    | error e =>
      obtain ⟨hp, v, hv, htool, -⟩ := optionsTable_eq_error_iff.1 hv
      exact .inr (.inl ⟨v, hp, hv, data, hdata, htool⟩)
    | ok v =>
      cases hcheck : Settings.check v with
      | error problems =>
        refine .inr (.inr ⟨.invalid problems, ?_⟩)
        rw [readOptions_of_parses hdata, readTables, hv]
        simp only [bind, Except.bind, hcheck]
        rfl
      | ok settings =>
        -- no settings that are in order are refused, so that nothing is left between the two
        -- readings
        obtain ⟨o, -, rfl⟩ := Settings.exists_toOptions_of_check hcheck
        exact .inl ⟨o, data, v, hdata, optionsTable_eq_ok_iff.1 hv, hcheck⟩
  · exact .inr (.inr (readOptions_of_not_parses hparses))

/-! ### Looking for the file -/

namespace FileTree

/-- A path that is looked up leads to no file. -/
def LeadsToNoFile (tree : FileTree) (p : Path) : Prop :=
  ∃ entry, tree.lookUp p = .ok entry ∧ entry.isFile = false

/-- A path that is looked up leads to a file. -/
def LeadsToFile (tree : FileTree) (p : Path) : Prop :=
  ∃ entry, tree.lookUp p = .ok entry ∧ entry.isFile = true

/-- The file at a path is the one to load. -/
inductive Selects (tree : FileTree) : Option Path → Path → Prop
  /-- It is given. -/
  | given (p : Path) : Selects tree (some p) p
  /-- A file of options alone comes first. -/
  | own : tree.LeadsToFile [ownFileName] → Selects tree none [ownFileName]
  /-- A project file comes second. -/
  | project : tree.LeadsToNoFile [ownFileName] → tree.LeadsToFile [projectFileName] →
      Selects tree none [projectFileName]

/-- While the file to load is looked for, a path cannot be looked up. -/
inductive Refuses (tree : FileTree) : Option Path → (reason : Text) → Prop
  /-- The path that is given. -/
  | given {p : Path} {reason : Text} : tree.refused.lookup p = some reason →
      Refuses tree (some p) reason
  /-- The path of a file of options alone. -/
  | own {reason : Text} : tree.refused.lookup [ownFileName] = some reason →
      Refuses tree none reason
  /-- The path of a project file. -/
  | project {reason : Text} : tree.LeadsToNoFile [ownFileName] →
      tree.refused.lookup [projectFileName] = some reason → Refuses tree none reason

/-- The file to load describes options. -/
def Configures (tree : FileTree) (path? : Option Path) (o : Options) : Prop :=
  ∃ p bytes, tree.Selects path? p ∧ tree.lookUp p = .ok (.file bytes) ∧ Describes p bytes o

/-- Loading options is stopped. -/
inductive Fails (tree : FileTree) (path? : Option Path) : LoadError → Prop
  /-- A path cannot be looked up. -/
  | refused {reason : Text} : tree.Refuses path? reason → Fails tree path? (.refused reason)
  /-- A project file has something else in the place of its table of tools. -/
  | tool {p : Path} {bytes : ByteArray} {v : Value} : tree.Selects path? p →
      tree.lookUp p = .ok (.file bytes) → ToolIsNoTable p bytes v →
      Fails tree path? (.toolNotATable v)

variable {tree : FileTree} {path? : Option Path}

/-- Looking a path up fails if it is refused, and for no other reason. -/
theorem lookUp_eq_error_iff {e : LoadError} :
    tree.lookUp p = .error e ↔ ∃ reason, tree.refused.lookup p = some reason ∧
      e = .refused reason := by
  unfold lookUp
  split
  · next reason hreason => simp [hreason, eq_comm]
  · next hnone => simp [hnone]

/-- A path that is refused cannot be looked up. -/
theorem lookUp_of_refused {reason : Text} (h : tree.refused.lookup p = some reason) :
    tree.lookUp p = .error (.refused reason) :=
  lookUp_eq_error_iff.2 ⟨reason, h, rfl⟩

/-- A path cannot be looked up, or leads to a file, or leads to none. -/
theorem lookUp_cases (tree : FileTree) (p : Path) :
    (∃ reason, tree.refused.lookup p = some reason) ∨ tree.LeadsToFile p ∨
      tree.LeadsToNoFile p := by
  cases h : tree.lookUp p with
  | error e =>
    obtain ⟨reason, hreason, -⟩ := lookUp_eq_error_iff.1 h
    exact .inl ⟨reason, hreason⟩
  | ok entry =>
    cases hentry : entry.isFile with
    | true => exact .inr (.inl ⟨entry, h, hentry⟩)
    | false => exact .inr (.inr ⟨entry, h, hentry⟩)

/-- The search stops at the first path that leads to a file. -/
theorem firstFile_cons_of_leadsToFile (h : tree.LeadsToFile p) (ps : List Path) :
    tree.firstFile (p :: ps) = .ok (some p) := by
  obtain ⟨entry, hentry, hfile⟩ := h
  simp only [firstFile, hentry, bind, Except.bind, hfile, if_true]
  rfl

/-- The search goes on after a path that leads to none. -/
theorem firstFile_cons_of_leadsToNoFile (h : tree.LeadsToNoFile p) (ps : List Path) :
    tree.firstFile (p :: ps) = tree.firstFile ps := by
  obtain ⟨entry, hentry, hfile⟩ := h
  simp only [firstFile, hentry, bind, Except.bind, hfile, Bool.false_eq_true, if_false]

/-- The search fails at a path that cannot be looked up, also if a later one would lead to a file.
-/
theorem firstFile_cons_of_refused {reason : Text} (h : tree.refused.lookup p = some reason)
    (ps : List Path) : tree.firstFile (p :: ps) = .error (.refused reason) := by
  simp only [firstFile, lookUp_of_refused h, bind, Except.bind]

/-- In the working folder, a file of options alone is tried before a project file. -/
theorem findConfig_nil (tree : FileTree) :
    tree.findConfig [] = tree.firstFile [[ownFileName], [projectFileName]] := rfl

/-- The file to load is the one that the search finds. -/
theorem selected_of_selects (h : tree.Selects path? p) : tree.selected path? = .ok (some p) := by
  cases h with
  | given => rfl
  | own hown => exact firstFile_cons_of_leadsToFile hown _
  | project hown hproject =>
    rw [selected, findConfig_nil, firstFile_cons_of_leadsToNoFile hown]
    exact firstFile_cons_of_leadsToFile hproject _

/-- A file is selected, or a path cannot be looked up, or there is no file to load. -/
theorem selects_or_refuses (tree : FileTree) (path? : Option Path) :
    (∃ p, tree.Selects path? p) ∨ (∃ reason, tree.Refuses path? reason) ∨
      tree.selected path? = .ok none := by
  cases path? with
  | some p => exact .inl ⟨p, .given p⟩
  | none =>
    -- the project file is tried only after the other one was looked up and found to be no file
    rcases tree.lookUp_cases [ownFileName] with ⟨reason, hown⟩ | hown | hown
    · exact .inr (.inl ⟨reason, .own hown⟩)
    · exact .inl ⟨_, .own hown⟩
    · rcases tree.lookUp_cases [projectFileName] with ⟨reason, hproject⟩ | hproject | hproject
      · exact .inr (.inl ⟨reason, .project hown hproject⟩)
      · exact .inl ⟨_, .project hown hproject⟩
      · refine .inr (.inr ?_)
        rw [selected, findConfig_nil, firstFile_cons_of_leadsToNoFile hown,
          firstFile_cons_of_leadsToNoFile hproject]
        rfl

end FileTree

/-! ### Loading -/

section Loading

variable {tree : FileTree} {path? : Option Path}

/-- The file that is selected is the one that is loaded. -/
theorem loadOptions_of_selects (h : tree.Selects path? p) :
    loadOptions tree path? = tree.lookUp p >>= readEntry p := by
  rw [loadOptions, FileTree.selected_of_selects h]
  rfl

/-- If the file to load can be opened, it is read. -/
theorem loadOptions_of_file (h : tree.Selects path? p)
    (hfile : tree.lookUp p = .ok (.file bytes)) :
    loadOptions tree path? = readOptions p bytes := by
  rw [loadOptions_of_selects h, hfile]
  rfl

/-- A path that cannot be looked up stops the loading. -/
theorem loadOptions_of_refuses {reason : Text} (h : tree.Refuses path? reason) :
    loadOptions tree path? = .error (.refused reason) := by
  -- without a path that is given, the search itself fails
  have hselected : ∀ {path? : Option Path}, tree.selected path? = .error (.refused reason) →
      loadOptions tree path? = .error (.refused reason) := by
    intro path? h
    rw [loadOptions, h]
    rfl
  cases h with
  | given hp =>
    rw [loadOptions_of_selects (.given _), FileTree.lookUp_of_refused hp]
    rfl
  | own hown => exact hselected (FileTree.firstFile_cons_of_refused hown _)
  | project hown hproject =>
    refine hselected ?_
    rw [FileTree.selected, FileTree.findConfig_nil,
      FileTree.firstFile_cons_of_leadsToNoFile hown]
    exact FileTree.firstFile_cons_of_refused hproject _

/-- What stops the loading is the error that comes of it. -/
theorem loadOptions_of_fails {e : LoadError} (h : tree.Fails path? e) :
    loadOptions tree path? = .error e := by
  cases h with
  | refused h => exact loadOptions_of_refuses h
  | tool hp hfile htool => rw [loadOptions_of_file hp hfile, readOptions_of_toolIsNoTable htool]

/-- Options that the file describes are loaded. -/
theorem loadOptions_of_configures {o : Options} (h : tree.Configures path? o) :
    loadOptions tree path? = .ok { options := o } := by
  obtain ⟨p, bytes, hp, hfile, ho⟩ := h
  rw [loadOptions_of_file hp hfile, readOptions_of_describes ho]

/-- Loading is stopped, or the file describes options, or the defaults stand. -/
theorem loadOptions_cases (tree : FileTree) (path? : Option Path) :
    (∃ e, tree.Fails path? e) ∨ (∃ o, tree.Configures path? o) ∨
      ∃ w, loadOptions tree path? = .ok { warning := w } := by
  rcases tree.selects_or_refuses path? with ⟨p, hp⟩ | ⟨reason, h⟩ | hnone
  · have hload := loadOptions_of_selects hp
    cases hentry : tree.lookUp p with
    | error e =>
      -- only a path that is given has not been looked up before
      obtain ⟨reason, hreason, -⟩ := FileTree.lookUp_eq_error_iff.1 hentry
      cases hp with
      | given => exact .inl ⟨_, .refused (.given hreason)⟩
      | own hown =>
        obtain ⟨entry, hok, -⟩ := hown
        cases hentry.symm.trans hok
      | project _ hproject =>
        obtain ⟨entry, hok, -⟩ := hproject
        cases hentry.symm.trans hok
    | ok entry =>
      rw [hentry] at hload
      -- a file that is missing, a folder and a file that cannot be opened are passed over
      cases entry with
      | missing => exact .inr (.inr ⟨_, hload⟩)
      | folder => exact .inr (.inr ⟨_, hload⟩)
      | locked => exact .inr (.inr ⟨_, hload⟩)
      | file bytes =>
        rcases readOptions_outcome p bytes with ⟨o, ho⟩ | ⟨v, hv⟩ | ⟨w, hw⟩
        · exact .inr (.inl ⟨o, p, bytes, hp, hentry, ho⟩)
        · exact .inl ⟨_, .tool hp hentry hv⟩
        · exact .inr (.inr ⟨some w, hload.trans hw⟩)
  · exact .inl ⟨_, .refused h⟩
  · refine .inr (.inr ⟨none, ?_⟩)
    rw [loadOptions, hnone]
    rfl

/-- What comes of a computation is known from its result without the error. -/
theorem eq_ok_of_toOption_eq_some {ε α : Type} {x : Except ε α} {a : α}
    (h : x.toOption = some a) : x = .ok a := by
  cases x with
  | error e => cases h
  | ok b => exact congrArg _ (Option.some.inj h)

/-- Options are loaded from the file that is selected if it describes any, and are the defaults
otherwise.  Nothing stops the loading but a path that cannot be looked up and a project file in
which `tool` is no table. -/
theorem loadOptions_outcome (tree : FileTree) (path? : Option Path) :
    (∀ e, loadOptions tree path? = .error e ↔ tree.Fails path? e) ∧
    (∀ o, tree.Configures path? o → loadOptions tree path? = .ok { options := o }) ∧
    ((¬∃ e, tree.Fails path? e) → (¬∃ o, tree.Configures path? o) →
      ∃ w, loadOptions tree path? = .ok { warning := w }) := by
  refine ⟨fun e => ⟨fun h => ?_, loadOptions_of_fails⟩, fun o => loadOptions_of_configures, ?_⟩
  -- the three cases exclude each other, since they come to different outcomes
  · rcases loadOptions_cases tree path? with ⟨e', he'⟩ | ⟨o, ho⟩ | ⟨w, hw⟩
    · obtain rfl := Except.error.inj (h.symm.trans (loadOptions_of_fails he'))
      exact he'
    · cases h.symm.trans (loadOptions_of_configures ho)
    · cases h.symm.trans hw
  · intro hfails hconfigures
    exact ((loadOptions_cases tree path?).resolve_left hfails).resolve_left hconfigures

/-- A file of options alone stands before a project file and is loaded.  If it cannot be opened, the
defaults stand. -/
theorem loadOptions_outcome_own :
    let files := [([FileTree.ownFileName], "indent_size = 2\n".toUTF8),
      ([FileTree.projectFileName], "tool = 3\n".toUTF8)]
    let tree : FileTree := { files }
    let locked : FileTree := { files, locked := [[FileTree.ownFileName]] }
    tree.Configures none { indentSize := 2 } ∧
    loadOptions tree none = .ok { options := { indentSize := 2 } } ∧
    (¬∃ e, locked.Fails none e) ∧ (¬∃ o, locked.Configures none o) ∧
    ∃ w, loadOptions locked none = .ok { warning := w } := by
  intro files tree locked
  have hread : ((Toml.parse "indent_size = 2\n".toList).toOption.bind fun data =>
      (Settings.check (.table data)).toOption) = some { indentSize := 2 } := by
    decide +kernel
  have hconfigures : tree.Configures none { indentSize := 2 } := by
    obtain ⟨data, hdata, hcheck⟩ := Option.bind_eq_some_iff.1 hread
    refine ⟨[FileTree.ownFileName], _, .own ⟨_, rfl, rfl⟩, rfl, data, .table data,
      ⟨_, rfl, eq_ok_of_toOption_eq_some hdata⟩, .own (by decide), ?_⟩
    exact eq_ok_of_toOption_eq_some hcheck
  have hselects : ∀ p, locked.Selects none p → locked.lookUp p = .ok .locked := by
    intro p hp
    cases hp with
    | own => rfl
    | project hown =>
      obtain ⟨entry, hentry, hfile⟩ := hown
      obtain rfl := Except.ok.inj hentry
      cases hfile
  have hfails : ¬∃ e, locked.Fails none e := by
    rintro ⟨e, hrefuses | ⟨hp, hfile, -⟩⟩
    · cases hrefuses with
      | own h => cases h
      | project _ h => cases h
    · cases (hselects _ hp).symm.trans hfile
  have hnone : ¬∃ o, locked.Configures none o := by
    rintro ⟨o, p, bytes, hp, hfile, -⟩
    cases (hselects p hp).symm.trans hfile
  exact ⟨hconfigures, (loadOptions_outcome tree none).2.1 _ hconfigures, hfails, hnone,
    (loadOptions_outcome locked none).2.2 hfails hnone⟩

/-- A number in the place of the table of tools stops the loading. -/
theorem loadOptions_tool_number :
    ∃ e, loadOptions { files := [([FileTree.projectFileName], "tool = 3\n".toUTF8)] } none =
        .error e ∧ e.message = "'int' object has no attribute 'get'".toList := by
  have hread : (((Toml.parse "tool = 3\n".toList).toOption.bind (·.lookup "tool".toList)).map
      Value.kindName) = some "int".toList := by
    decide +kernel
  obtain ⟨v, hv, hkind⟩ := Option.map_eq_some_iff.1 hread
  obtain ⟨data, hdata, htool⟩ := Option.bind_eq_some_iff.1 hv
  refine ⟨.toolNotATable v, loadOptions_of_fails (.tool (p := [FileTree.projectFileName]) ?_ rfl
    ⟨rfl, ?_, data, ⟨_, rfl, eq_ok_of_toOption_eq_some hdata⟩, htool⟩), ?_⟩
  · exact .project ⟨.missing, rfl, rfl⟩ ⟨_, rfl, rfl⟩
  · rintro t rfl
    cases hkind
  · rw [LoadError.message, hkind]
    rfl

end Loading

end SqlTidy
