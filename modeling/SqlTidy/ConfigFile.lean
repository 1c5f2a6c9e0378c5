import SqlTidy.Options.Lenient
import SqlTidy.Toml.Parse

/-!
# Configuration files

Options may be kept in a file of their own, `.pgsql-format.toml`, or in the table
`tool.pgsql-formatter` of a `pyproject.toml`.  A file that cannot be used is passed over with a
warning, and the default options stand.  This is the file configuration of §11 of the specification.

## Main definitions

* `Path`, `FileTree` — paths, and the files and folders below a folder.
* `LoadWarning` — why a file was passed over.
* `LoadError` — why options cannot be loaded at all.
* `FileTree.lookUp tree p` — what a path leads to.
* `FileTree.findConfig tree dir` — the configuration file of a folder.
* `loadOptions tree path?` — the options of a file, or of the configuration file of the root.
-/

namespace SqlTidy

/-- A path below the root: the names of the folders on the way, then its own. -/
abbrev Path := List Text

namespace Path

/-- Splits a text at every slash. -/
def splitSlash : Text → List Text
  | [] => [[]]
  | c :: r =>
    if c = '/' then [] :: splitSlash r
    else
      match splitSlash r with
      | [] => [[c]]
      | name :: names => (c :: name) :: names

/-- The path that a text denotes.  Empty parts and single dots do not count. -/
def ofText (s : Text) : Path := (splitSlash s).filter fun name => name ≠ [] ∧ name ≠ ['.']

/-- A path with slashes between its parts. -/
def toText : Path → Text
  | [] => []
  | [name] => name
  | name :: names => name ++ '/' :: toText names

end Path

/-- The files and folders below a root folder, which stands for the working folder.  The folders on
the way to one of them are there too, and so is the root itself. -/
structure FileTree where
  /-- The files with their bytes. -/
  files : List (Path × ByteArray) := []
  /-- The folders. -/
  folders : List Path := []
  /-- The files that cannot be opened. -/
  locked : List Path := []
  /-- The paths that cannot be looked up, each with the reason that is given for it. -/
  refused : List (Path × Text) := []
  deriving Inhabited

/-- What a path leads to. -/
inductive Entry
  /-- There is nothing there. -/
  | missing
  /-- A folder. -/
  | folder
  /-- A file that cannot be opened. -/
  | locked
  /-- A file with these bytes. -/
  | file (bytes : ByteArray)
  deriving Inhabited

/-- Whether a path leads to a file. -/
def Entry.isFile : Entry → Bool
  | missing => false
  | folder => false
  | locked => true
  | file _ => true

/-- Why a configuration file was passed over. -/
inductive LoadWarning
  /-- It is a folder. -/
  | isFolder
  /-- It cannot be opened. -/
  | locked
  /-- Its bytes are not UTF-8. -/
  | notUtf8
  /-- Its text is not TOML. -/
  | notToml (e : Toml.Error)
  /-- Its options are not in order. -/
  | invalid (problems : List Problem)
  deriving Inhabited, Repr

/-- Why options cannot be loaded at all. -/
inductive LoadError
  /-- What should hold the table of options is no table. -/
  | toolNotATable (v : Value)
  /-- A path cannot be looked up, for the reason that is given. -/
  | refused (reason : Text)
  /-- The settings in the file cannot be set. -/
  | notSet (e : OptionError)
  deriving Inhabited, Repr

namespace FileTree

/-- The bytes of the file at a place. -/
def bytes? (tree : FileTree) (p : Path) : Option ByteArray := tree.files.lookup p

/-- Whether there is a folder at a place. -/
def isFolder (tree : FileTree) (p : Path) : Bool :=
  p.isEmpty || tree.folders.any (p.isPrefixOf ·) || tree.files.any (p.isPrefixOf ·.1.dropLast)

/-- The place that a path leads to from the folder `here`.  Two dots lead from a folder back to the
one that holds it; they lead nowhere from a file, from what is not there, and from the root. -/
def resolveFrom? (tree : FileTree) (here : Path) : Path → Option Path
  | [] => some here
  | name :: rest =>
    if name = ['.', '.'] then
      if here ≠ [] ∧ tree.isFolder here then tree.resolveFrom? here.dropLast rest else none
    else tree.resolveFrom? (here ++ [name]) rest

/-- What stands at a place. -/
def entryAt (tree : FileTree) (place : Path) : Entry :=
  match tree.bytes? place with
  | some bytes => if tree.locked.contains place then .locked else .file bytes
  | none => if tree.isFolder place then .folder else .missing

/-- What a path leads to, unless it cannot be looked up. -/
def lookUp (tree : FileTree) (p : Path) : Except LoadError Entry :=
  match tree.refused.lookup p with
  | some reason => .error (.refused reason)
  | none => .ok (((tree.resolveFrom? [] p).map tree.entryAt).getD .missing)

/-- The first of some paths that leads to a file. -/
def firstFile (tree : FileTree) : List Path → Except LoadError (Option Path)
  | [] => .ok none
  | p :: ps => do
    let entry ← tree.lookUp p
    if entry.isFile then pure (some p) else tree.firstFile ps

/-- The name of a file of options alone. -/
def ownFileName : Text := ".pgsql-format.toml".toList

/-- The name of a file that has a table of options among others. -/
def projectFileName : Text := "pyproject.toml".toList

/-- The configuration file of a folder. -/
def findConfig (tree : FileTree) (dir : Path) : Except LoadError (Option Path) :=
  tree.firstFile ([ownFileName, projectFileName].map fun name => dir ++ [name])

end FileTree

/-- The kind of a value, by name. -/
def Value.kindName : Value → Text
  | .null => "NoneType".toList
  | .bool _ => "bool".toList
  | .int _ => "int".toList
  | .float _ => "float".toList
  | .text _ => "str".toList
  | .moment .date _ => "datetime.date".toList
  | .moment .time _ => "datetime.time".toList
  | .moment .dateTime _ => "datetime.datetime".toList
  | .list _ => "list".toList
  | .table _ => "dict".toList

/-- The wording of an error. -/
def LoadError.message : LoadError → Text
  | .toolNotATable v => "'".toList ++ v.kindName ++ "' object has no attribute 'get'".toList
  | .refused reason => reason
  | .notSet e => e.message

/-- Options, and why a file was passed over in favour of the defaults, if one was. -/
structure Loaded where
  /-- The options. -/
  options : Options := {}
  /-- The warning. -/
  warning : Option LoadWarning := none
  deriving Inhabited

/-- The text of a file. -/
def decodeUtf8 (bytes : ByteArray) : Option Text := (String.fromUTF8? bytes).map String.toList

/-- The options in the tables of a file: all of them, or one table of those of a project. -/
def optionsTable (p : Path) (data : Table Value) : Except LoadError Value :=
  if p.getLast? = some FileTree.projectFileName then
    match data.lookup "tool".toList with
    | none => .ok (.table [])
    | some (.table tool) => .ok ((tool.lookup "pgsql-formatter".toList).getD (.table []))
    | some v => .error (.toolNotATable v)
  else .ok (.table data)

/-- The options that the tables of a file describe. -/
def readTables (p : Path) (data : Table Value) : Except LoadError Loaded := do
  match Settings.check (← optionsTable p data) with
  | .error problems => pure { warning := some (.invalid problems) }
  | .ok settings => return { options := ← settings.toOptions.mapError .notSet }

/-- The options that the bytes of a file describe. -/
def readOptions (p : Path) (bytes : ByteArray) : Except LoadError Loaded :=
  match decodeUtf8 bytes with
  | none => .ok { warning := some .notUtf8 }
  | some s =>
    match Toml.parse s with
    | .error e => .ok { warning := some (.notToml e) }
    | .ok data => readTables p data

/-- The options that something at a path describes.  The defaults stand where there is no file that
can be used. -/
def readEntry (p : Path) : Entry → Except LoadError Loaded
  | .missing => .ok {}
  | .folder => .ok { warning := some .isFolder }
  | .locked => .ok { warning := some .locked }
  | .file bytes => readOptions p bytes

/-- The path of the file to load: the one that is given, or else that of the configuration file of
the root.  A working folder that is gone, for which there would be an error before any file is
looked for, is not represented, since every tree has its root. -/
def FileTree.selected (tree : FileTree) : Option Path → Except LoadError (Option Path)
  | some p => .ok (some p)
  | none => tree.findConfig []

/-- The options of the file at a path, or of the configuration file of the root if no path is given.
Without such a file the defaults stand. -/
def loadOptions (tree : FileTree) (path? : Option Path) : Except LoadError Loaded := do
  match ← tree.selected path? with
  | none => pure {}
  | some p => readEntry p (← tree.lookUp p)

end SqlTidy
