import SqlTidy.Proofs.Weave

/-!
# The lines of a page

A page is made by calls: some start a line, the others write on the line that was started last.
What text comes out can be told from the calls alone.  They fall into blocks, each of which starts
a line and goes on with what is written there; a block that writes something is a line of the text,
and a block that writes nothing leaves no trace.  That a finished line is trimmed at once and the
last one only in the end makes no difference, and neither does what the written texts look like:
they may be empty, blank or full of line feeds.

## Main definitions

* `Page.Call` — a call on a page, and `Page.ofCalls` for the page that calls make.
* `Page.Block` — an indentation and the texts that are written after it.
* `Page.blocks calls` — the calls in blocks.
* `Page.Shows p bs b` — the page `p` after the blocks `bs`, with the block `b` going on.

## Main results

* `Page.Shows.startLine`, `Page.Shows.write` — what one call does.
* `Page.Shows.run` — what a list of calls does.
* `Page.render_ofCalls` — the text of a page, told from the calls that make it.
-/

namespace SqlTidy

/-- Blanks that are trimmed anyway may be trimmed before. -/
theorem Text.trimEnd_append_trimEnd (x y : Text) : trimEnd (x ++ trimEnd y) = trimEnd (x ++ y) := by
  -- read from the end, trimming is dropping blanks
  have hdrop : ∀ l r : Text,
      (l.dropWhile isBlank ++ r).dropWhile isBlank = (l ++ r).dropWhile isBlank := by
    intro l r
    rw [List.dropWhile_append, List.dropWhile_append, List.dropWhile_idempotent]
  simp only [trimEnd, List.reverse_append, List.reverse_reverse, hdrop]

/-- The last of several lines may be trimmed before. -/
theorem Text.trimEnd_joinLines_concat (ls : List Text) (l : Text) :
    trimEnd (joinLines (ls ++ [trimEnd l])) = trimEnd (joinLines (ls ++ [l])) := by
  rw [joinLines_concat, joinLines_concat]
  split
  · exact trimEnd_append_trimEnd [] l
  · rw [List.append_cons, List.append_cons _ _ l, trimEnd_append_trimEnd]

namespace Page

/-! ### Calls and blocks -/

/-- A call on a page. -/
inductive Call
  /-- Starts a line with the given indentation. -/
  | startLine (indent : Text)
  /-- Writes on the line. -/
  | write (s : Text)
  deriving DecidableEq, Repr

/-- What a call does to a page. -/
def Call.apply : Call → Page → Page
  | startLine indent, p => p.startLine indent
  | write s, p => p.write s

/-- The page after some calls. -/
def run (p : Page) (calls : List Call) : Page := calls.foldl (fun p call => call.apply p) p

/-- The page that calls make. -/
def ofCalls (calls : List Call) : Page := run {} calls

/-- An indentation and the texts that are written after it. -/
structure Block where
  /-- The indentation. -/
  indent : Text := []
  /-- What is written, call by call. -/
  writes : List Text := []
  deriving DecidableEq, Repr

namespace Block

/-- The calls of a block. -/
def calls (b : Block) : List Call := .startLine b.indent :: b.writes.map .write

/-- Whether anything is written in a block, be it the empty text. -/
def isWritten (b : Block) : Bool := !b.writes.isEmpty

/-- The indentation and what is written after it. -/
def text (b : Block) : Text := b.indent ++ b.writes.flatten

/-- The block with one more text written. -/
def write (s : Text) (b : Block) : Block := { b with writes := b.writes ++ [s] }

/-- What is written goes last. -/
theorem text_write (s : Text) (b : Block) : (b.write s).text = b.text ++ s := by
  simp [text, write]

/-- A block in which something is written is written, even if the text is empty. -/
theorem isWritten_write (s : Text) (b : Block) : (b.write s).isWritten = true := by
  simp [isWritten, write]

end Block

/-- The blocks of calls that go on with the block `b`. -/
def blocksFrom (b : Block) : List Call → List Block
  | [] => [b]
  | .startLine indent :: calls => b :: blocksFrom { indent } calls
  | .write s :: calls => blocksFrom (b.write s) calls

/-- The calls in blocks.  The first block has no indentation, and every call that starts a line
begins another. -/
def blocks (calls : List Call) : List Block := blocksFrom {} calls

/-- The lines that blocks make: one for each block in which something is written, trimmed. -/
def linesOf (bs : List Block) : List Text :=
  (bs.filter Block.isWritten).map fun b => Text.trimEnd b.text

/-- The blocks hold all calls, in order. -/
theorem calls_blocksFrom (b : Block) (calls : List Call) :
    (blocksFrom b calls).flatMap Block.calls = b.calls ++ calls := by
  induction calls generalizing b with
  | nil => simp [blocksFrom]
  | cons call calls ih =>
    cases call with
    | startLine indent => simp [blocksFrom, ih, Block.calls]
    | write s => simp [blocksFrom, ih, Block.calls, Block.write]

/-- One more block is one more line if something is written in it. -/
theorem linesOf_concat (bs : List Block) (b : Block) :
    linesOf (bs ++ [b]) =
      if b.isWritten then linesOf bs ++ [Text.trimEnd b.text] else linesOf bs := by
  cases h : b.isWritten <;> simp [linesOf, h]

/-! ### Pages and blocks -/

/-- The page after the blocks `bs`, with the block `b` going on. -/
structure Shows (p : Page) (bs : List Block) (b : Block) : Prop where
  /-- The finished lines are those of the blocks. -/
  lines_eq : p.lines = linesOf bs
  /-- The line being written is not trimmed yet. -/
  current_eq : p.current = b.text
  /-- The line has content if something is written in its block. -/
  hasContent_eq : p.hasContent = b.isWritten

namespace Shows

variable {p : Page} {bs : List Block} {b : Block}

/-- A new page shows a block without indentation. -/
theorem empty : Shows {} [] {} := ⟨rfl, rfl, rfl⟩

/-- Starting a line begins a block. -/
theorem startLine (h : p.Shows bs b) (indent : Text) :
    (p.startLine indent).Shows (bs ++ [b]) { indent } where
  lines_eq := by
    rw [Page.startLine, linesOf_concat, h.lines_eq, h.current_eq, h.hasContent_eq]
  current_eq := (List.append_nil indent).symm
  hasContent_eq := rfl

/-- Writing goes on with the block. -/
theorem write (h : p.Shows bs b) (s : Text) : (p.write s).Shows bs (b.write s) where
  lines_eq := h.lines_eq
  current_eq := by rw [current_write, h.current_eq, Block.text_write]
  hasContent_eq := by rw [hasContent_write, Block.isWritten_write]

/-- After any calls, the page shows their blocks, the last of which is going on. -/
theorem run (h : p.Shows bs b) (calls : List Call) :
    ∃ bs' b', bs ++ blocksFrom b calls = bs' ++ [b'] ∧ (p.run calls).Shows bs' b' := by
  -- the invariant is that the page shows the blocks so far
  induction calls generalizing p bs b with
  | nil => exact ⟨bs, b, rfl, h⟩
  | cons call calls ih =>
    cases call with
    | startLine indent =>
      obtain ⟨bs', b', hblocks, hshows⟩ := ih (h.startLine indent)
      rw [List.append_assoc, List.singleton_append] at hblocks
      exact ⟨bs', b', hblocks, hshows⟩
    | write s => exact ih (h.write s)

/-- The text of a page is that of the blocks, the one going on among them. -/
theorem render_eq (h : p.Shows bs b) :
    p.render = Text.trimEnd (Text.joinLines (linesOf (bs ++ [b]))) := by
  rw [render, allLines, linesOf_concat, h.lines_eq, h.current_eq, h.hasContent_eq]
  split
  -- the last line is not trimmed on the page, but the text is
  · rw [Text.trimEnd_joinLines_concat]
  · rfl

end Shows

/-- The text of a page, told from the calls that make it: of the blocks into which the calls fall,
those in which something is written are the lines, each with its indentation and trimmed; the other
blocks leave no trace. -/
theorem render_ofCalls (calls : List Call) :
    (blocks calls).flatMap Block.calls = .startLine [] :: calls ∧
    (ofCalls calls).render =
      Text.trimEnd (Text.joinLines
        (((blocks calls).filter Block.isWritten).map fun b =>
          Text.trimEnd (b.indent ++ b.writes.flatten))) := by
  refine ⟨calls_blocksFrom {} calls, ?_⟩
  obtain ⟨bs, b, hblocks, hshows⟩ := Shows.empty.run calls
  rw [List.nil_append] at hblocks
  rw [ofCalls, hshows.render_eq, ← hblocks]
  rfl

end Page
end SqlTidy
