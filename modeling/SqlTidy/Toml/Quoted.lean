import SqlTidy.Text.Numeral
import SqlTidy.Toml.Basic

/-!
# Reading TOML: texts

A text stands between double quotes, with escapes, or between single quotes, without.  Between three
quotes of either kind it may go over several lines.

## Main definitions

* `Toml.readEscape multi` — what a backslash stands for together with what follows it.
* `Toml.readBasic multi` — the rest of a text between double quotes.
* `Toml.readLiteral`, `Toml.readLiteralLines` — the rest of a text between single quotes.
* `Toml.readText`, `Toml.readKeyText` — a text in quotes of any kind; one that may stand in a key.
-/

namespace SqlTidy
namespace Toml

open Text (singleQuote doubleQuote)

/-- The character that a backslash and a letter stand for. -/
def escaped? (c : Char) : Option Char :=
  if c = 'b' then some '\x08'
  else if c = 't' then some '\t'
  else if c = 'n' then some '\n'
  else if c = 'f' then some '\x0c'
  else if c = 'r' then some '\r'
  else if c = doubleQuote then some doubleQuote
  else if c = '\\' then some '\\'
  else none

/-- Reads the character with a code of `n` hexadecimal digits. -/
def readCode (n : Nat) : Reader Text := fun s =>
  let digits := s.take n
  let code := Text.valueOf 16 digits
  if digits.length = n ∧ digits.all Text.isHexDigit ∧ code.isValidChar then
    .ok ([Char.ofNat code], s.drop n)
  else .error .badEscape

/-- Skips the end of a line and all space and line feeds after it; at the end of the text there is
nothing to skip. -/
def skipLineEnd (s : Text) : Except Error Text :=
  match s.dropWhile isSpace with
  | [] => .ok []
  | c :: r => if c = '\n' then .ok (r.dropWhile isSpaceOrLine) else .error .badEscape

/-- Reads what follows a backslash.  In a text of several lines it may be the end of the line. -/
def readEscape (multi : Bool) : Reader Text
  | [] => .error .badEscape
  | c :: r =>
    if multi && isSpaceOrLine c then (skipLineEnd (c :: r)).map fun rest => ([], rest)
    else if c = 'u' then readCode 4 r
    else if c = 'U' then readCode 8 r
    else
      match escaped? c with
      | some d => .ok ([d], r)
      | none => .error .badEscape

theorem length_dropWhile_le (p : Char → Bool) (s : Text) : (s.dropWhile p).length ≤ s.length :=
  (List.dropWhile_suffix p).length_le

/-- An escape leaves no more than there was. -/
theorem length_le_of_readEscape {multi : Bool} {s t rest : Text}
    (h : readEscape multi s = .ok (t, rest)) : rest.length ≤ s.length := by
  have hcode (n : Nat) (r : Text) (h : readCode n r = .ok (t, rest)) :
      rest.length ≤ r.length := by
    simp only [readCode] at h
    split at h
    · simp only [Except.ok.injEq, Prod.mk.injEq] at h
      simp [← h.2]
    · simp at h
  cases s with
  | nil => simp [readEscape] at h
  | cons c r =>
    simp only [readEscape] at h
    split at h
    · simp only [skipLineEnd] at h
      split at h
      · simp only [Except.map, Except.ok.injEq, Prod.mk.injEq] at h
        simp [← h.2]
      · next d r' hdrop =>
        split at h
        · simp only [Except.map, Except.ok.injEq, Prod.mk.injEq] at h
          have h₁ := length_dropWhile_le isSpace (c :: r)
          have h₂ := length_dropWhile_le isSpaceOrLine r'
          simp only [hdrop, List.length_cons] at h₁
          simp only [← h.2, List.length_cons]
          omega
        · simp [Except.map] at h
    · simp only [List.length_cons]
      split at h
      · have := hcode 4 r h
        omega
      · split at h
        · have := hcode 8 r h
          omega
        · split at h
          · simp only [Except.ok.injEq, Prod.mk.injEq] at h
            simp [← h.2]
          · simp at h

/-- Reads the rest of a text between double quotes, three of them if it may have several lines. -/
def readBasic (multi : Bool) (s : Text) : Except Error (Text × Text) :=
  match s with
  | [] => .error .unclosedText
  | c :: r =>
    if c = doubleQuote ∧ !multi then .ok ([], r)
    else if c = doubleQuote ∧ [doubleQuote, doubleQuote].isPrefixOf r then .ok ([], r.drop 2)
    else if c = '\\' then
      match h : readEscape multi r with
      | .error e => .error e
      | .ok (t, rest) =>
        have := length_le_of_readEscape h
        (readBasic multi rest).map fun (u, rest) => (t ++ u, rest)
    else if isControl c && !(multi && c == '\n') then .error (.controlCharacter c)
    else (readBasic multi r).map fun (u, rest) => (c :: u, rest)
termination_by s.length
decreasing_by
  · simp only [List.length_cons]
    omega
  · simp

/-- Reads the rest of a text between single quotes, on one line. -/
def readLiteral : Reader Text := fun s =>
  let body := s.takeWhile (· != singleQuote)
  match body.find? isControl, s.drop body.length with
  | _, [] => .error .unclosedText
  | some bad, _ => .error (.controlCharacter bad)
  | none, _ :: rest => .ok (body, rest)

/-- Splits a text at its first three single quotes. -/
def splitAtTripleQuote : Text → Option (Text × Text)
  | [] => none
  | c :: r =>
    match Text.after? [singleQuote, singleQuote, singleQuote] (c :: r) with
    | some rest => some ([], rest)
    | none => (splitAtTripleQuote r).map fun (body, rest) => (c :: body, rest)

/-- Reads the rest of a text between three single quotes. -/
def readLiteralLines : Reader Text := fun s =>
  match splitAtTripleQuote s with
  | none => .error .unclosedText
  | some (body, rest) =>
    match body.find? fun c => isControl c && c != '\n' with
    | some bad => .error (.controlCharacter bad)
    | none => .ok (body, rest)

/-- Adds up to two quotes that stand right after the three that close a text. -/
def takeExtraQuotes (q : Char) (body : Text) (rest : Text) : Text × Text :=
  let extra := (rest.take 2).takeWhile (· == q)
  (body ++ extra, rest.drop extra.length)

/-- What follows a line feed right after the three quotes that open a text. -/
def skipFirstLineEnd : Text → Text
  | [] => []
  | c :: r => if c = '\n' then r else c :: r

/-- Reads a text in quotes of any kind.  The first character is a quote. -/
def readText : Reader Text := fun s =>
  match Text.after? [doubleQuote, doubleQuote, doubleQuote] s,
      Text.after? [singleQuote, singleQuote, singleQuote] s with
  | some r, _ =>
    (readBasic true (skipFirstLineEnd r)).map fun (body, rest) =>
      takeExtraQuotes doubleQuote body rest
  | none, some r =>
    (readLiteralLines (skipFirstLineEnd r)).map fun (body, rest) =>
      takeExtraQuotes singleQuote body rest
  | none, none =>
    match s with
    | [] => .error .unexpected
    | c :: r => if c = doubleQuote then readBasic false r else readLiteral r

/-- Reads a text in quotes on one line, as it may stand in a key. -/
def readKeyText : Reader Text
  | [] => .error .unexpected
  | c :: r =>
    if c = doubleQuote then readBasic false r
    else if c = singleQuote then readLiteral r
    else .error .unexpected

end Toml
end SqlTidy
