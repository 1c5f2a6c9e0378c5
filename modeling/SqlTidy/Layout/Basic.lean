import SqlTidy.Layout.Page
import SqlTidy.Layout.Role
import SqlTidy.Options.Basic
import SqlTidy.Placeholder

/-!
# Layout

One pass over the tokens from left to right breaks them into indented lines.  The pass keeps the
depth of parentheses, the clause it is in, and whether the last token ended in a line comment, after
which nothing may stand on the same line.  This is F005, `structure`: the state machine of §4.4 of
the specification, with what §14 says of line comments and semicolons.

## Main definitions

* `Layout.State` — the page so far and what the pass keeps in mind.
* `Layout.emit o t st` — writes a token by its role.
* `Layout.step o comments st t` — the same, on a new line if a line comment is open.
* `Layout.run`, `Layout.trace` — the state after all tokens, and after each of them.
* `Layout.layout o comments ts` — the laid-out text.

## Main results

* `Layout.trace_snd` — a trace ends as the run does.
-/

namespace SqlTidy
namespace Layout

/-- The page so far and what the pass keeps in mind: the state that §4.4 carries across the pass,
and whether a line comment is open. -/
structure State where
  /-- What has been written. -/
  page : Page := {}
  /-- How many parentheses are open, the `indentLevel` of §4.4; one too many that closes does not
  count. -/
  depth : Nat := 0
  /-- The clause that was opened last. -/
  clause : Clause := .other
  /-- Whether the last token ended in a line comment. -/
  commentOpen : Bool := false
  deriving DecidableEq, Repr, Inhabited

/-- Whether a token ends in the placeholder of one of the given line comments. -/
def endsInComment (comments : List Text) (t : Token) : Bool :=
  match Placeholder.trailingComment? t with
  | some p => comments.contains p
  | none => false

/-- Starts a line at the given level. -/
def newLine (o : Options) (level : Nat) (p : Page) : Except Fault Page := do
  let indent ← o.indent level
  pure (p.startLine indent)

/-- Writes an opening parenthesis, with a space before it unless the line or a parenthesis has just
been opened. -/
def writeOpen (p : Page) : Page :=
  let p := if p.atLineStart || p.endsWith ['('] then p else p.write [' ']
  p.write ['(']

/-- Writes a token, with a space before it unless the line has just been started, the token is a
punctuation mark, or the line ends in an opening parenthesis or a space. -/
def writePlain (t : Token) (p : Page) : Page :=
  let p :=
    if p.atLineStart || t.isMark || p.endsWith ['('] || p.endsWith [' '] then p else p.write [' ']
  p.write t

/-- Writes a token by its role, as the dispatch rules of §4.4 say. -/
def emit (o : Options) (t : Token) (st : State) : Except Fault State :=
  match role st.clause t with
  | .opener clause => do
    let p ← newLine o st.depth st.page
    pure { st with page := p.write t, clause }
  | .listComma => do
    let p ← newLine o (st.depth + 1) (st.page.write [','])
    pure { st with page := p, clause := .selectList false }
  | .join => do
    let p ← newLine o (st.depth + 1) st.page
    pure { st with page := p.write t }
  | .openParen => pure { st with page := writeOpen st.page, depth := st.depth + 1 }
  | .closeParen => pure { st with page := st.page.write [')'], depth := st.depth - 1 }
  | .firstItem => do
    let p ← newLine o (st.depth + 1) st.page
    pure { st with page := p.write t, clause := .selectList false }
  | .plain => pure { st with page := writePlain t st.page }

/-- Starts a line if the last token ended in a line comment, so that what comes next is not
commented out (§14). -/
def closeComment (o : Options) (st : State) : Except Fault State :=
  if st.commentOpen then do
    let p ← newLine o (st.depth + 1) st.page
    pure { st with page := p, commentOpen := false }
  else pure st

/-- Lays out one token. -/
def step (o : Options) (comments : List Text) (st : State) (t : Token) : Except Fault State := do
  let st ← closeComment o st
  let st ← emit o t st
  pure { st with commentOpen := endsInComment comments t }

/-- Lays out tokens one after the other. -/
def run (o : Options) (comments : List Text) (st : State) (ts : List Token) :
    Except Fault State :=
  ts.foldlM (step o comments) st

/-- Lays out tokens one after the other and gives the state after each token laid out, and how the
run ended. -/
def trace (o : Options) (comments : List Text) : State → List Token →
    List (Token × State) × Except Fault State
  | st, [] => ([], .ok st)
  | st, t :: ts =>
    match step o comments st t with
    | .error e => ([], .error e)
    | .ok st' =>
      let (states, last) := trace o comments st' ts
      ((t, st') :: states, last)

/-- A trace ends as the run does. -/
theorem trace_snd (o : Options) (comments : List Text) (st : State) (ts : List Token) :
    (trace o comments st ts).2 = run o comments st ts := by
  induction ts generalizing st with
  | nil => rfl
  | cons t ts ih =>
    simp only [trace, run, List.foldlM_cons]
    cases step o comments st t with
    | error e => rfl
    | ok st' => exact ih st'

/-- The tokens laid out in lines. -/
def layout (o : Options) (comments : List Text) (ts : List Token) : Except Fault Text := do
  let st ← run o comments {} ts
  pure st.page.render

end Layout
end SqlTidy
