import SqlTidy.Text.Basic

/-!
# Runs of a case mapping

Letters of a script mostly change case by a fixed shift of their code, either one after the other or
every second one where capital and small letters alternate.  Such a stretch is one `CaseRun`.

## Main definitions

* `CaseRun` — a stretch of characters that change case by the same shift.
* `recased runs expansions c` — the text that `c` becomes.
-/

namespace SqlTidy

/-- A stretch of characters that change case by the same shift. -/
structure CaseRun where
  /-- The first character of the stretch. -/
  first : Nat
  /-- The last one. -/
  last : Nat
  /-- The distance between two neighbours: one, or two where the cases alternate. -/
  step : Nat
  /-- What the first character becomes. -/
  image : Nat
  deriving DecidableEq, Repr, Inhabited

namespace CaseRun

/-- Whether the run holds code point `n`. -/
def holds (r : CaseRun) (n : Nat) : Bool :=
  r.first ≤ n && n ≤ r.last && (n - r.first) % r.step == 0

end CaseRun

namespace Text

/-- The text that a character becomes: by the run that holds it, by its entry among the expansions,
or else the character itself. -/
def recased (runs : List CaseRun) (expansions : List (Nat × List Nat)) (c : Char) : Text :=
  match runs.find? (·.holds c.toNat) with
  | some r => [Char.ofNat (r.image + (c.toNat - r.first))]
  | none =>
    match expansions.lookup c.toNat with
    | some ns => ns.map Char.ofNat
    | none => [c]

end Text
end SqlTidy
