import SqlTidy.Proofs.OpenQuote

/-!
# Recasing run by run

The characters of a text come in runs, of word characters and of other characters in turn.  What
recasing does can be told from one run at a time: a run of ASCII word characters that does not begin
with a digit is a word, written in the style of its class; every other run is copied.  In particular
a word that touches a letter of another script is none, however far away in its run that letter is.

## Main definitions

* `Text.runs s` — the maximal runs of a text.
* `Text.isWord w` — whether a run is a word.
* `recaseRuns o s` — the words among the runs of a text recased.

## Main results

* `Text.run_induction` — induction on the runs of a text.
* `recaseFrom_wordRun_append` — a run of word characters is recased as a whole or copied.
* `recaseWords_eq_recaseRuns` — recasing a text is recasing its runs.
* `run_recase_eq_recaseRuns` — what the recasing pass does, run by run.
-/

namespace SqlTidy

/-! ### Runs -/

namespace Text

/-- The maximal runs of a text, of word characters and of other characters in turn. -/
def runs (s : Text) : List Text := s.splitBy fun c d => isWordChar c == isWordChar d

/-- Whether a run is a word: ASCII word characters, the first of which is no digit. -/
def isWord (w : Text) : Bool :=
  w.all (fun c => isWordChar c && decide (c.toNat < 128)) && !w.head?.any Char.isDigit

/-- A run is a word if its first character starts a word and the others go on with it. -/
theorem isWord_cons {c : Char} {w : Text} :
    isWord (c :: w) = true ↔ isWordStart c = true ∧ ∀ d ∈ w, isWordPart d = true := by
  simp only [isWord, List.all_cons, List.head?_cons, Option.any_some, Bool.and_eq_true,
    List.all_eq_true, decide_eq_true_eq, Bool.not_eq_true', ← isWordPart_iff, isWordStart_iff]
  exact and_right_comm

/-- Characters of one class before those of the other are a run. -/
theorem runs_append {b : Bool} {w y : Text} (hne : w ≠ []) (hw : ∀ c ∈ w, isWordChar c = b)
    (hy : ∀ c ∈ y.head?, isWordChar c = !b) : runs (w ++ y) = w :: runs y := by
  have hchain : w.IsChain fun c d => (isWordChar c == isWordChar d) = true := by
    refine List.Pairwise.isChain (List.pairwise_of_forall_mem_list fun c hc d hd => ?_)
    rw [hw c hc, hw d hd, beq_self_eq_true]
  rw [runs, List.splitBy_append, List.splitBy_of_isChain hne hchain]
  · rfl
  · intro c hc d hd
    rw [hw c (List.mem_of_mem_getLast? hc), hy d hd]
    cases b <;> rfl

/-- Induction on the runs of a text. -/
@[elab_as_elim] theorem run_induction {motive : Text → Prop} (nil : motive [])
    (run : ∀ (b : Bool) (w y : Text), w ≠ [] → (∀ c ∈ w, isWordChar c = b) →
      (∀ c ∈ y.head?, isWordChar c = !b) → motive y → motive (w ++ y)) (s : Text) : motive s := by
  -- on the length, since what is left behind a run is no tail of the text
  induction hn : s.length using Nat.strong_induction_on generalizing s with
  | _ n ih =>
    subst hn
    cases s with
    | nil => exact nil
    | cons c r =>
      -- the first run goes on while the class of the first character does
      have hsplit := List.takeWhile_append_dropWhile (p := fun d => isWordChar d == isWordChar c)
        (l := r)
      rw [← hsplit, ← List.cons_append]
      refine run (isWordChar c) _ _ (List.cons_ne_nil _ _) ?_ ?_ (ih _ ?_ _ rfl)
      · rw [List.forall_mem_cons]
        exact ⟨rfl, fun d hd => by simpa using List.mem_takeWhile_imp hd⟩
      · intro d hd
        have hhead := List.head?_dropWhile_not (fun d => isWordChar d == isWordChar c) r
        rw [hd] at hhead
        exact Bool.eq_not.2 (by simpa using hhead)
      · exact Nat.lt_succ_of_le (List.dropWhile_suffix _).length_le

end Text

/-- A run recased if it is a word. -/
def recaseRun (o : Options) (w : Text) : Text :=
  if Text.isWord w then (o.styleFor w).apply w else w

/-- The words among the runs of a text recased. -/
def recaseRuns (o : Options) (s : Text) : Text := (Text.runs s).flatMap (recaseRun o)

/-! ### Recasing a run -/

/-- Inside a run of word characters there is no word. -/
theorem recaseFrom_true_append (o : Options) {x : Text} (hx : ∀ c ∈ x, Text.isWordChar c = true)
    (y : Text) : recaseFrom o true (x ++ y) = x ++ recaseFrom o true y := by
  induction x with
  | nil => rfl
  | cons c x ih =>
    rw [List.forall_mem_cons] at hx
    rw [List.cons_append, recaseFrom_other o rfl, hx.1, ih hx.2, List.cons_append]

/-- Characters that are no word characters are copied. -/
theorem recaseFrom_otherRun_append (o : Options) {x : Text}
    (hx : ∀ c ∈ x, Text.isWordChar c = false) (y : Text) :
    recaseFrom o false (x ++ y) = x ++ recaseFrom o false y := by
  induction x with
  | nil => rfl
  | cons c x ih =>
    rw [List.forall_mem_cons] at hx
    rw [List.cons_append, recaseFrom_other o (by simp [isWordStart_of_isWordChar hx.1]), hx.1,
      ih hx.2, List.cons_append]

/-- Before a text without a word at its front, a word may have ended or not. -/
theorem recaseFrom_true_eq (o : Options) {y : Text} (hy : startsWithWordChar y = false) :
    recaseFrom o true y = recaseFrom o false y := by
  cases y with
  | nil => rw [recaseFrom, recaseFrom]
  | cons c y =>
    have hstart : isWordStart c = false := isWordStart_of_isWordChar hy
    rw [recaseFrom_other o rfl, recaseFrom_other o (by simp [hstart])]

/-- Word characters that do not all continue a word are left standing behind it. -/
theorem startsWithWordChar_dropWhile_append {w : Text} (hw : ∀ c ∈ w, Text.isWordChar c = true)
    {d : Char} (hd : d ∈ w) (hpart : isWordPart d = false) (y : Text) :
    startsWithWordChar ((w ++ y).dropWhile isWordPart) = true := by
  induction w with
  | nil => simp at hd
  | cons c w ih =>
    rw [List.forall_mem_cons] at hw
    rw [List.cons_append, List.dropWhile_cons]
    split
    case isTrue hc =>
      have hne : d ≠ c := by
        rintro rfl
        simp [hpart] at hc
      exact ih hw.2 (List.mem_of_ne_of_mem hne hd)
    case isFalse hc => exact hw.1

/-- A run of word characters is recased as a whole if it is a word, and copied otherwise. -/
theorem recaseFrom_wordRun_append (o : Options) {w y : Text} (hne : w ≠ [])
    (hw : ∀ c ∈ w, Text.isWordChar c = true) (hy : startsWithWordChar y = false) :
    recaseFrom o false (w ++ y) = recaseRun o w ++ recaseFrom o false y := by
  -- behind the run it does not matter that a word character comes before
  rw [← recaseFrom_true_eq o hy]
  cases w with
  | nil => exact absurd rfl hne
  | cons c w =>
    by_cases hword : Text.isWord (c :: w) = true
    · rw [recaseRun, if_pos hword]
      rw [Text.isWord_cons] at hword
      exact recaseFrom_word_append o hword.1 hword.2 hy
    · rw [recaseRun, if_neg hword]
      rw [List.forall_mem_cons] at hw
      -- the first character begins no word, since not all of the run would belong to it
      have hnone : (!false && isWordStart c &&
          !startsWithWordChar ((w ++ y).dropWhile isWordPart)) = false := by
        by_contra hstart
        simp only [Bool.not_false, Bool.true_and, Bool.not_eq_false, Bool.and_eq_true,
          Bool.not_eq_true'] at hstart
        refine hword (Text.isWord_cons.2 ⟨hstart.1, fun d hd => ?_⟩)
        by_contra hpart
        have := startsWithWordChar_dropWhile_append hw.2 hd (Bool.not_eq_true _ ▸ hpart) y
        simp [hstart.2] at this
      rw [List.cons_append, recaseFrom_other o hnone, hw.1, recaseFrom_true_append o hw.2,
        List.cons_append]

/-- Recasing a text is recasing its runs. -/
theorem recaseWords_eq_recaseRuns (o : Options) (s : Text) : recaseWords o s = recaseRuns o s := by
  induction s using Text.run_induction with
  | nil => rw [recaseWords, recaseFrom, recaseRuns, Text.runs, List.splitBy_nil, List.flatMap_nil]
  | run b w y hne hw hy ih =>
    rw [recaseRuns, Text.runs_append hne hw hy, List.flatMap_cons, ← recaseRuns, ← ih]
    cases b with
    -- a run of word characters goes on up to a character that is none
    | true =>
      refine recaseFrom_wordRun_append o hne hw ?_
      cases y with
      | nil => rfl
      | cons c y => exact hy c rfl
    | false =>
      -- other characters start no word
      have hcopy : recaseRun o w = w := by
        cases w with
        | nil => exact absurd rfl hne
        | cons c w =>
          have hstart := isWordStart_of_isWordChar (hw c List.mem_cons_self)
          rw [recaseRun, if_neg]
          simp [Text.isWord_cons, hstart]
      rw [hcopy]
      exact recaseFrom_otherRun_append o hw y

/-! ### The recasing pass -/

/-- The recasing pass leaves what looks like a placeholder as it is, scanning from the left.  In
every gap, taken by itself, it writes the runs that are words in the style of their class and copies
the others.  So it changes the case of ASCII letters at most, and no position. -/
theorem run_recase_eq_recaseRuns (o : Options) (d : Draft) :
    ∃ m : Marked Placeholder.Tag,
      m.text = d.text ∧ Placeholder.recogniser.Scans m ∧
      Pass.run o .recase d = { draft := { d with text := (m.mapGaps (recaseRuns o)).text } } ∧
      (m.mapGaps (recaseRuns o)).text.length = d.text.length ∧
      (m.mapGaps (recaseRuns o)).text.map Char.toLower = d.text.map Char.toLower := by
  have hgaps : recaseWords o = recaseRuns o := funext (recaseWords_eq_recaseRuns o)
  have htext : ((Placeholder.cut d.text).symbols.mapGaps (recaseRuns o)).text =
      recase o d.text := by
    rw [recase_eq_spell, Marked.recase, hgaps]
  -- the same up to case, hence of the same length
  have hlower := map_toLower_recase o d.text
  refine ⟨(Placeholder.cut d.text).symbols, ?_, ?_, ?_, ?_, ?_⟩
  · rw [← Cut.join_eq_text, Placeholder.cut, Recogniser.join_cut]
  · exact Placeholder.scans_cut d.text
  · rw [htext]
    rfl
  · simpa [htext] using congrArg List.length hlower
  · rw [htext, hlower]

end SqlTidy
