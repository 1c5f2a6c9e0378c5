import SqlTidy.Token
import SqlTidy.Vocabulary

/-!
# Roles of tokens

Where a token goes depends on the token and on the clause it stands in.  Only two clauses matter:
the select list, whose items have a line each, and the from list, whose join conditions have one.
These are the dispatch rules of §4.4 of the specification, in their order of priority; the last of
them has two roles.

## Main definitions

* `Clause` — the clause that was opened last.
* `Role` — what a token does to the layout.
* `role clause t` — the role of a token in a clause.
-/

namespace SqlTidy

/-- The clause that was opened last, as far as the layout depends on it.  It stands for the flags
`inSelectClause`, `inFromClause` and `justAfterSelect` of §4.4, of which only these combinations
occur. -/
inductive Clause
  /-- A select list; `pending` as long as its first item has not come. -/
  | selectList (pending : Bool)
  /-- A from list. -/
  | fromList
  /-- Any other clause, or none yet. -/
  | other
  deriving DecidableEq, Repr, Inhabited

namespace Clause

/-- Whether the clause is a select list. -/
def isSelect : Clause → Bool
  | selectList _ => true
  | _ => false

/-- Whether the clause is a select list whose first item has not come. -/
def isPending : Clause → Bool
  | selectList pending => pending
  | _ => false

/-- Whether the clause is a from list. -/
def isFrom : Clause → Bool
  | fromList => true
  | _ => false

/-- The clause that a clause opener opens, by its upper-case form. -/
def opened (upper : Text) : Clause :=
  if upper = "SELECT".toList then selectList true
  else if upper = "FROM".toList then fromList
  else other

end Clause

/-- What a token does to the layout. -/
inductive Role
  /-- Opens a clause on a line of its own. -/
  | opener (clause : Clause)
  /-- Ends an item of a select list, and its line. -/
  | listComma
  /-- Starts a join or its condition, on a line one level deeper. -/
  | join
  /-- Opens a parenthesis. -/
  | openParen
  /-- Closes a parenthesis. -/
  | closeParen
  /-- Begins a select list, on a line one level deeper. -/
  | firstItem
  /-- Goes on with the line. -/
  | plain
  deriving DecidableEq, Repr, Inhabited

/-- The role of a token in a clause: the first dispatch rule of §4.4 that applies. -/
def role (clause : Clause) (t : Token) : Role :=
  -- no mark is a clause opener, so that the first rule leaves marks to the others
  if clauseOpeners.contains t.upper then .opener (.opened t.upper)
  else if t = [','] ∧ clause.isSelect then .listComma
  else if joinWords.contains t.upper ∨ (t.upper = "ON".toList ∧ clause.isFrom) then .join
  else if t = ['('] then .openParen
  else if t = [')'] then .closeParen
  else if clause.isPending ∧ !selectModifiers.contains t.upper then .firstItem
  else .plain

end SqlTidy
