import SqlTidy.Draft

/-!
# Steps

A step takes a draft and gives another, with notes on what it did, or a fault.  The six passes of
the formatter are steps, and callers may add steps of their own.  Steps are the rules that an engine
runs, and the notes are those of the debug log (§12 of the specification).

## Main definitions

* `Note` — what is noted while a text is being formatted.
* `Outcome` — the draft that a step leaves, its notes, and the fault that stopped it.
* `Step` — a named step.
* `Pass` — the six passes, with `Pass.step` for the step that each of them is.
-/

namespace SqlTidy

/-- What is noted while a text is being formatted. -/
inductive Note
  /-- A step begins. -/
  | applying (id name : Text)
  /-- So many literals were set aside. -/
  | preserved (count : Nat)
  /-- So many tokens were found. -/
  | tokenized (count : Nat)
  deriving DecidableEq, Repr, Inhabited

/-- The wording of a note. -/
def Note.message : Note → Text
  | .applying id name => "applying ".toList ++ id ++ " (".toList ++ name ++ ")".toList
  | .preserved n => "preserved ".toList ++ Text.ofNat n ++ " literals".toList
  | .tokenized n => "tokenized into ".toList ++ Text.ofNat n ++ " tokens".toList

/-- What a step leaves behind. -/
structure Outcome where
  /-- The draft, also after a fault. -/
  draft : Draft
  /-- What was noted, in order. -/
  notes : List Note := []
  /-- What stopped the step, if anything did. -/
  fault : Option Fault := none
  deriving DecidableEq, Repr, Inhabited

/-- A named step of formatting: a rule of the engine. -/
structure Step where
  /-- The identifier of the step. -/
  id : Text
  /-- The name of the step. -/
  name : Text
  /-- What the step does to a draft. -/
  run : Draft → Outcome

/-- The passes of the formatter, in the order of §2. -/
inductive Pass
  /-- Sets literals aside. -/
  | preserve
  /-- Collapses blanks. -/
  | collapse
  /-- Recases words. -/
  | recase
  /-- Splits into tokens. -/
  | tokenize
  /-- Lays tokens out in lines. -/
  | layout
  /-- Puts literals back. -/
  | restore
  deriving DecidableEq, Repr, Inhabited

namespace Pass

/-- The passes in the order in which they depend on each other. -/
def all : List Pass := [preserve, collapse, recase, tokenize, layout, restore]

/-- The identifier of a pass. -/
def id : Pass → Text
  | preserve => "F001".toList
  | collapse => "F002".toList
  | recase => "F003".toList
  | tokenize => "F004".toList
  | layout => "F005".toList
  | restore => "F006".toList

/-- The name of a pass. -/
def name : Pass → Text
  | preserve => "literal-preservation".toList
  | collapse => "whitespace-collapse".toList
  | recase => "case-transform".toList
  | tokenize => "tokenize".toList
  | layout => "structure".toList
  | restore => "literal-restoration".toList

/-- The pass with a given identifier. -/
def ofId? (s : Text) : Option Pass := all.find? fun p => p.id = s

/-- What a pass does to a draft.  The layout pass splits the text into tokens first if that has not
been done, and these tokens stay in the draft even if the layout fails. -/
def run (o : Options) : Pass → Draft → Outcome
  | preserve, d => { draft := d.preserve, notes := [.preserved d.found.hits.length] }
  | collapse, d => { draft := d.collapse }
  | recase, d => { draft := d.recase o }
  | tokenize, d => { draft := d.tokenize, notes := [.tokenized d.tokenize.tokens.length] }
  | layout, d =>
    match d.ensureTokens.layout o with
    | .ok d => { draft := d }
    | .error e => { draft := d.ensureTokens, fault := some e }
  | restore, d => { draft := d.restore }

/-- A pass as a step. -/
def step (o : Options) (p : Pass) : Step := ⟨p.id, p.name, p.run o⟩

end Pass
end SqlTidy
