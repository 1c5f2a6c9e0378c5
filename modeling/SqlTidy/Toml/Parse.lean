import SqlTidy.Text.Quoted
import SqlTidy.Toml.Document
import SqlTidy.Toml.Moment
import SqlTidy.Toml.Number
import SqlTidy.Toml.Quoted

/-!
# Reading TOML

A TOML text is a row of statements, one a line: a table declaration in brackets, or a key with its
value.  Values nest, so the readers below take a bound on their depth; a bound of twice the length
of the text is never reached, since every level takes at least one character.

## Main definitions

* `Toml.readKey` — a dotted key.
* `Toml.readValue` — a value of any kind.
* `Toml.parse s` — the tables that a text describes.
-/

namespace SqlTidy
namespace Toml

/-! ### Keys -/

/-- The characters of a key part without quotes. -/
def isBareKeyChar (c : Char) : Bool := c.isAlphanum || c == '-' || c == '_'

/-- Whether a character can begin a key. -/
def startsKey (c : Char) : Bool := isBareKeyChar c || Text.isQuote c

/-- Reads one part of a key. -/
def readKeyPart : Reader Text
  | [] => .error .unexpected
  | c :: r =>
    if isBareKeyChar c then
      .ok (c :: r.takeWhile isBareKeyChar, r.dropWhile isBareKeyChar)
    else readKeyText (c :: r)

/-- Reads a dotted key of at most `bound` parts, and the space after it. -/
def readKey : (bound : Nat) → Reader Key
  | 0, _ => .error .unexpected
  | bound + 1, s => do
    let (part, rest) ← readKeyPart s
    let rest := skipSpace rest
    match Text.after? ['.'] rest with
    | none => pure ([part], rest)
    | some rest =>
      let (parts, rest) ← readKey bound (skipSpace rest)
      pure (part :: parts, rest)

/-! ### Values -/

/-- Reads a value that is neither a list nor a table. -/
def readScalar : Reader Value := fun s =>
  match s with
  | [] => .error .unexpected
  | c :: _ =>
    if Text.isQuote c then (readText s).map fun (t, rest) => (.text t, rest)
    else
      match Text.after? "true".toList s, Text.after? "false".toList s with
      | some rest, _ => .ok (.bool true, rest)
      | none, some rest => .ok (.bool false, rest)
      | none, none => do
        match ← readMoment? s with
        | some result => pure result
        | none =>
          match ← readNumber? s with
          | some result => pure result
          | none => throw .unexpected

mutual

/-- Reads a value of any kind. -/
def readValue : (bound : Nat) → Reader Value
  | 0, _ => .error .unexpected
  | bound + 1, s =>
    match Text.after? ['['] s, Text.after? ['\x7b'] s with
    | some r, _ => do
      let (vs, rest) ← readItems bound (← skipFiller r)
      pure (.list vs, rest)
    | none, some r =>
      match Text.after? ['\x7d'] (skipSpace r) with
      | some rest => .ok (.table [], rest)
      | none => do
        let (t, rest) ← readPairs bound {} (skipSpace r)
        pure (.table t, rest)
    | none, none => readScalar s

/-- Reads the items of a list and the bracket that closes it.  A comma may follow the last item. -/
def readItems : (bound : Nat) → Reader (List Value)
  | 0, _ => .error .unexpected
  | bound + 1, s =>
    match Text.after? [']'] s with
    | some rest => .ok ([], rest)
    | none => do
      let (v, rest) ← readValue bound s
      let rest ← skipFiller rest
      match Text.after? [','] rest with
      | some rest =>
        let (vs, rest) ← readItems bound (← skipFiller rest)
        pure (v :: vs, rest)
      | none => pure ([v], ← expect [']'] rest)

/-- Reads the pairs of a table written out in one piece and the brace that closes it.  No comma
follows the last pair. -/
def readPairs : (bound : Nat) → Inline → Reader (Table Value)
  | 0, _, _ => .error .unexpected
  | bound + 1, t, s => do
    let (key, rest) ← readKey bound s
    let (v, rest) ← readValue bound (skipSpace (← expect ['='] rest))
    let t ← t.assign key v
    let rest := skipSpace rest
    match Text.after? [','] rest with
    | some rest => readPairs bound t (skipSpace rest)
    | none => pure (t.data, ← expect ['\x7d'] rest)

end

/-! ### Statements -/

/-- A document and the table that its keys go into at the moment. -/
structure Section where
  /-- The document so far. -/
  document : Document := {}
  /-- The key of the table that was declared last. -/
  header : Key := []
  deriving Inhabited

/-- Reads a key with its value. -/
def readPair (bound : Nat) (sec : Section) : Reader Section := fun s => do
  let (key, rest) ← readKey bound s
  let (v, rest) ← readValue bound (skipSpace (← expect ['='] rest))
  pure ({ sec with document := ← sec.document.assign sec.header key v }, rest)

/-- Reads the declaration of a table, or of another table of a list. -/
def readHeader (bound : Nat) (sec : Section) : Reader Section := fun s => do
  let d := sec.document.settle
  match Text.after? ['[', '['] s with
  | some r =>
    let (key, rest) ← readKey bound (skipSpace r)
    pure (⟨← d.openArray key, key⟩, ← expect [']', ']'] rest)
  | none =>
    let (key, rest) ← readKey bound (skipSpace (← expect ['['] s))
    pure (⟨← d.openTable key, key⟩, ← expect [']'] rest)

/-- Reads a statement, if one stands before the end of the line. -/
def readStatement (bound : Nat) (sec : Section) : Reader Section
  | [] => .ok (sec, [])
  | c :: r =>
    if startsKey c then readPair bound sec (c :: r)
    else if c = '[' then readHeader bound sec (c :: r)
    else .ok (sec, c :: r)

/-- Reads lines, at most `lines` of them, up to the end of the text. -/
def readLines (bound : Nat) : (lines : Nat) → Section → Text → Except Error Document
  | 0, _, _ => .error .unexpected
  | lines + 1, sec, s => do
    let (sec, rest) ← readStatement bound sec (skipSpace s)
    match ← skipComment (skipSpace rest) with
    | [] => pure sec.document
    | c :: rest =>
      if c = '\n' then readLines bound lines sec rest else throw .unexpected

/-- The tables that a text describes.  A carriage return before a line feed belongs to it. -/
def parse (s : Text) : Except Error (Table Value) := do
  let s := Text.replaceAll ['\r', '\n'] ['\n'] s
  let d ← readLines (2 * s.length + 2) (s.length + 1) {} s
  pure d.data

end Toml
end SqlTidy
