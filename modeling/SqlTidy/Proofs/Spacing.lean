import Mathlib.Data.List.DropRight
import SqlTidy.Proofs.Placeholder

/-!
# Blanks in marked texts

Collapsing the blanks of a text whose literals are set aside does not look into the placeholders, so
that it can be done on the marked text.  It touches blanks only: what a marked text is without its
blanks stays the same.

## Main definitions

* `Symbol.isBlank` — a symbol that is a blank character; a hit is none.
* `Marked.collapse m` — every run of blanks made one space, and none at the ends.
* `Marked.strip m` — a marked text without its blanks.
* `Wordlike f` — `f` writes every hit as part of a word.

## Main results

* `Marked.collapse_spell` — collapsing can be done on the marked text.
* `Marked.strip_collapse` — collapsing touches blanks only.
* `Marked.collapse_append_cons` — what is no blank parts a marked text into two that are collapsed
  separately.
* `Marked.collapse_append_blank` — blanks between two marked texts become one space.
-/

namespace SqlTidy

/-- Every hit is written as part of a word: not as nothing, and without blanks, quotes and marks.
There are no backslashes either, which would escape a quote. -/
structure Wordlike {α : Type} (f : Hit α → Text) : Prop where
  /-- Something is written. -/
  ne_nil : ∀ h, f h ≠ []
  /-- All of it can stand in a word. -/
  plain : ∀ h, ∀ c ∈ f h, isPlain c = true
  /-- Nothing in it escapes what follows. -/
  unescaping : ∀ h, '\\' ∉ f h

/-- Placeholders are parts of words.  This is why the text with placeholders can be worked on as if
every literal were one symbol. -/
theorem Draft.wordlike_placeholder : Wordlike Draft.placeholder where
  ne_nil _ := Placeholder.ofLiteral_ne_nil _ _
  plain _ _ hc := Placeholder.isPlain_of_mem_ofLiteral hc
  unescaping _ := Placeholder.backslash_notMem_ofLiteral _ _

variable {α : Type}

/-- Whether a symbol is a blank character. -/
def Symbol.isBlank : Symbol α → Bool
  | .char c => Text.isBlank c
  | .hit _ => false

@[simp] theorem Symbol.isBlank_char (c : Char) :
    (Symbol.char c : Symbol α).isBlank = Text.isBlank c := rfl

@[simp] theorem Symbol.isBlank_hit (h : Hit α) : (Symbol.hit h).isBlank = false := rfl

theorem Symbol.isBlank_mapHit {β : Type} (f : Hit α → Hit β) (a : Symbol α) :
    (a.mapHit f).isBlank = a.isBlank := by
  cases a <;> rfl

namespace Marked

/-- A marked text without the blanks at its beginning. -/
def trimStart (m : Marked α) : Marked α := m.dropWhile Symbol.isBlank

/-- A marked text without the blanks at its end. -/
def trimEnd (m : Marked α) : Marked α := m.rdropWhile Symbol.isBlank

/-- Every run of blanks becomes one space.  `inRun` says whether the marked text begins inside a run
whose space has been written. -/
def squeezeFrom (inRun : Bool) : Marked α → Marked α
  | [] => []
  | a :: m =>
    if a.isBlank then
      if inRun then squeezeFrom true m else .char ' ' :: squeezeFrom true m
    else a :: squeezeFrom false m

/-- Every run of blanks becomes one space, and the blanks at both ends go. -/
def collapse (m : Marked α) : Marked α := trimEnd (trimStart (squeezeFrom false m))

/-- A marked text without its blanks. -/
def strip (m : Marked α) : Marked α := m.filter fun a => !a.isBlank

@[simp] theorem squeezeFrom_nil (inRun : Bool) : squeezeFrom inRun ([] : Marked α) = [] := rfl

/-- A blank gives a space if it begins a run, and nothing if it goes on with one. -/
theorem squeezeFrom_blank {a : Symbol α} (ha : a.isBlank = true) (inRun : Bool) (m : Marked α) :
    squeezeFrom inRun (a :: m) =
      if inRun then squeezeFrom true m else .char ' ' :: squeezeFrom true m := by
  rw [squeezeFrom, if_pos ha]

/-- What is no blank stays, and the next blank begins a run. -/
theorem squeezeFrom_solid {a : Symbol α} (ha : a.isBlank = false) (inRun : Bool) (m : Marked α) :
    squeezeFrom inRun (a :: m) = a :: squeezeFrom false m := by
  rw [squeezeFrom, if_neg (by simp [ha])]

/-! ### Texts and marked texts -/

section Spell

variable {f : Hit α → Text}

/-- Trimming stops at a hit, since a hit is written without blanks. -/
theorem trimStart_spell (hf : Wordlike f) (m : Marked α) :
    Text.trimStart (spell f m) = spell f (trimStart m) := by
  induction m with
  | nil => rfl
  | cons a m ih =>
    cases a with
    | char c =>
      rw [Text.trimStart] at ih ⊢
      rw [trimStart, spell_char, List.dropWhile_cons, List.dropWhile_cons, Symbol.isBlank_char]
      split
      · exact ih
      · rfl
    | hit h =>
      -- the first character of the hit is no blank
      obtain ⟨c, x, hx⟩ := List.exists_cons_of_ne_nil (hf.ne_nil h)
      have hc : Text.isBlank c = false := isBlank_of_isPlain (hf.plain h c (by simp [hx]))
      rw [trimStart, List.dropWhile_cons_of_neg (by simp), spell_hit, hx, List.cons_append,
        Text.trimStart, List.dropWhile_cons_of_neg (by simp [hc])]

/-- Trimming at the end stops at a hit, too. -/
theorem trimEnd_spell (hf : Wordlike f) (m : Marked α) :
    Text.trimEnd (spell f m) = spell f (trimEnd m) := by
  have htrim : ∀ s, Text.trimEnd s = s.rdropWhile Text.isBlank := fun _ => rfl
  rw [htrim, trimEnd]
  induction m using List.reverseRecOn with
  | nil => rfl
  | append_singleton m a ih =>
    rw [spell_append, List.rdropWhile_concat]
    cases a with
    | char c =>
      rw [spell_char, spell_nil, List.rdropWhile_concat, Symbol.isBlank_char]
      split
      · exact ih
      · rw [spell_append, spell_char, spell_nil]
    | hit h =>
      -- the last character of the hit is no blank
      have hc := isBlank_of_isPlain (hf.plain h _ (List.getLast_mem (hf.ne_nil h)))
      rw [if_neg (by simp), spell_append, spell_hit, spell_nil, List.append_nil,
        ← List.dropLast_append_getLast (hf.ne_nil h), ← List.append_assoc,
        List.rdropWhile_concat_neg _ _ _ (by simp [hc])]

/-- Runs of blanks do not reach into hits. -/
theorem squeezeFrom_spell (hf : Wordlike f) (inRun : Bool) (m : Marked α) :
    Text.squeezeFrom inRun (spell f m) = spell f (squeezeFrom inRun m) := by
  -- a word is no run of blanks
  have hword : ∀ (w s : Text), w ≠ [] → (∀ c ∈ w, isPlain c = true) → ∀ inRun,
      Text.squeezeFrom inRun (w ++ s) = w ++ Text.squeezeFrom false s := by
    intro w s hw hplain
    induction w with
    | nil => exact absurd rfl hw
    | cons c w ih =>
      intro inRun
      rw [List.forall_mem_cons] at hplain
      rw [List.cons_append, Text.squeezeFrom, if_neg (by simp [isBlank_of_isPlain hplain.1])]
      cases w with
      | nil => rfl
      | cons d w => rw [ih (List.cons_ne_nil d w) hplain.2]; rfl
  induction m generalizing inRun with
  | nil => rfl
  | cons a m ih =>
    cases a with
    | char c =>
      rw [spell_char, Text.squeezeFrom, squeezeFrom, Symbol.isBlank_char, ih, ih]
      split
      · split <;> rfl
      · rfl
    | hit h =>
      rw [spell_hit, hword _ _ (hf.ne_nil h) (hf.plain h), squeezeFrom_solid (by rfl), spell_hit,
        ih]

/-- Collapsing the blanks of a text does not look into its hits. -/
theorem collapse_spell (hf : Wordlike f) (m : Marked α) :
    Text.trim (Text.squeeze (spell f m)) = spell f (collapse m) := by
  rw [Text.trim, Text.squeeze, squeezeFrom_spell hf, trimStart_spell hf, trimEnd_spell hf, collapse]

end Spell

/-! ### What collapsing keeps -/

/-- Nothing is left without the blanks if there is nothing else. -/
theorem strip_eq_nil_iff {m : Marked α} : strip m = [] ↔ ∀ a ∈ m, Symbol.isBlank a = true := by
  simp [strip, List.filter_eq_nil_iff]

@[simp] theorem strip_append (m n : Marked α) : strip (m ++ n) = strip m ++ strip n := by
  simp [strip]

/-- A blank is left out. -/
theorem strip_cons_blank {a : Symbol α} (ha : a.isBlank = true) (m : Marked α) :
    strip (a :: m) = strip m := by
  simp [strip, ha]

/-- Anything else is kept. -/
theorem strip_cons_solid {a : Symbol α} (ha : a.isBlank = false) (m : Marked α) :
    strip (a :: m) = a :: strip m := by
  simp [strip, ha]

/-- Leaving out blanks keeps the hits. -/
theorem hits_strip (m : Marked α) : hits (strip m) = hits m := by
  induction m with
  | nil => rfl
  | cons a m ih =>
    cases a with
    | char c =>
      rw [hits]
      cases hc : Text.isBlank c with
      | true => rw [strip_cons_blank (by simpa using hc), ih]
      | false => rw [strip_cons_solid (by simpa using hc), hits, ih]
    | hit h => rw [strip_cons_solid (by rfl), hits, hits, ih]

/-- Squeezing runs of blanks keeps everything else. -/
theorem strip_squeezeFrom (inRun : Bool) (m : Marked α) :
    strip (squeezeFrom inRun m) = strip m := by
  induction m generalizing inRun with
  | nil => rfl
  | cons a m ih =>
    cases ha : a.isBlank with
    | true =>
      rw [squeezeFrom_blank ha, strip_cons_blank ha]
      split
      · exact ih true
      · rw [strip_cons_blank rfl, ih]
    | false => rw [squeezeFrom_solid ha, strip_cons_solid ha, strip_cons_solid ha, ih]

/-- Trimming at the beginning takes blanks only. -/
theorem strip_trimStart (m : Marked α) : strip (trimStart m) = strip m := by
  induction m with
  | nil => rfl
  | cons a m ih =>
    rw [trimStart] at ih ⊢
    cases ha : a.isBlank with
    | true => rw [List.dropWhile_cons_of_pos ha, ih, strip_cons_blank ha]
    | false => rw [List.dropWhile_cons_of_neg (by simp [ha])]

/-- Trimming at the end takes blanks only. -/
theorem strip_trimEnd (m : Marked α) : strip (trimEnd m) = strip m := by
  rw [trimEnd]
  induction m using List.reverseRecOn with
  | nil => rfl
  | append_singleton m a ih =>
    rw [List.rdropWhile_concat]
    split
    · next ha => rw [ih, strip_append, strip_cons_blank ha]; simp [strip]
    · rfl

/-- Collapsing touches blanks only. -/
theorem strip_collapse (m : Marked α) : strip (collapse m) = strip m := by
  rw [collapse, strip_trimEnd, strip_trimStart, strip_squeezeFrom]

/-- Collapsing keeps the hits, in their order. -/
theorem hits_collapse (m : Marked α) : hits (collapse m) = hits m := by
  rw [← hits_strip, strip_collapse, hits_strip]

/-- Symbols in a row that are no blanks were in a row before. -/
theorem infix_of_infix_squeezeFrom {x m : Marked α} (hx : ∀ a ∈ x, Symbol.isBlank a = false)
    {inRun : Bool} (h : x <:+: squeezeFrom inRun m) : x <:+: m := by
  -- at the front of a marked text, nothing of the row is skipped
  have hfront : ∀ {x m : Marked α}, (∀ a ∈ x, Symbol.isBlank a = false) →
      x <+: squeezeFrom false m → x <+: m := by
    intro x m hx h
    induction x generalizing m with
    | nil => exact List.nil_prefix
    | cons b x ih =>
      rw [List.forall_mem_cons] at hx
      cases m with
      | nil => simp at h
      | cons a m =>
        cases ha : a.isBlank with
        | true =>
          rw [squeezeFrom_blank ha, if_neg (by decide), List.cons_prefix_cons] at h
          rw [h.1] at hx
          cases hx.1
        | false =>
          rw [squeezeFrom_solid ha, List.cons_prefix_cons] at h
          exact List.cons_prefix_cons.2 ⟨h.1, ih hx.2 h.2⟩
  -- the row begins at the front or later; the space of a run cannot begin it
  induction m generalizing inRun with
  | nil => exact h
  | cons a m ih =>
    rw [List.infix_cons_iff]
    cases ha : a.isBlank with
    | true =>
      rw [squeezeFrom_blank ha] at h
      split at h
      · exact .inr (ih h)
      · rcases List.infix_cons_iff.1 h with h | h
        · rcases x with _ | ⟨b, x⟩
          · exact .inl List.nil_prefix
          · rw [List.cons_prefix_cons] at h
            have := hx b List.mem_cons_self
            rw [h.1] at this
            cases this
        · exact .inr (ih h)
    | false =>
      rw [squeezeFrom_solid ha] at h
      rcases List.infix_cons_iff.1 h with h | h
      · exact .inl (hfront hx (by rwa [squeezeFrom_solid ha]))
      · exact .inr (ih h)

/-- Collapsing squeezes, and takes something from both ends. -/
theorem collapse_isInfix (m : Marked α) : collapse m <:+: squeezeFrom false m :=
  (List.rdropWhile_prefix _ _).isInfix.trans (List.dropWhile_suffix _).isInfix

/-- Collapsing puts no underscores together that were apart, since a run of blanks leaves a space.
-/
theorem Unfenced.collapse {m : Marked α} (hm : Unfenced m) : Unfenced (collapse m) := by
  intro h
  refine hm (infix_of_infix_squeezeFrom ?_ (h.trans (collapse_isInfix m)))
  intro a ha
  simp only [Placeholder.fence, ofText, List.map_cons, List.map_nil, List.mem_cons,
    List.not_mem_nil, or_false, or_self] at ha
  subst ha
  rfl

/-- A collapsed text does not end in a blank. -/
theorem isBlank_getLast?_collapse (m : Marked α) :
    ∀ a ∈ (collapse m).getLast?, Symbol.isBlank a = false := by
  intro a ha
  obtain ⟨x, hx⟩ := List.getLast?_eq_some_iff.1 (Option.mem_def.1 ha)
  have hne : collapse m ≠ [] := by simp [hx]
  have := List.rdropWhile_last_not _ _ hne
  rw [← Bool.not_eq_true]
  convert this
  exact (List.getLast_eq_iff_getLast?_eq_some hne).2 ha |>.symm

/-- Squeezing does not look at what the hits are. -/
theorem squeezeFrom_mapHits {β : Type} (f : Hit α → Hit β) (inRun : Bool) (m : Marked α) :
    squeezeFrom inRun (mapHits f m) = mapHits f (squeezeFrom inRun m) := by
  have hcons : ∀ a (m : Marked α), mapHits f (a :: m) = a.mapHit f :: mapHits f m :=
    fun _ _ => rfl
  induction m generalizing inRun with
  | nil => rfl
  | cons a m ih =>
    rw [hcons, squeezeFrom, squeezeFrom, Symbol.isBlank_mapHit, ih, ih]
    split
    · split <;> rfl
    · rfl

/-- Collapsing does not look at what the hits are. -/
theorem collapse_mapHits {β : Type} (f : Hit α → Hit β) (m : Marked α) :
    collapse (mapHits f m) = mapHits f (collapse m) := by
  rw [collapse, squeezeFrom_mapHits, collapse]
  simp only [trimEnd, trimStart, mapHits, List.rdropWhile, List.dropWhile_map, ← List.map_reverse,
    Function.comp_def, Symbol.isBlank_mapHit]

/-! ### Parting a marked text -/

/-- What is no blank parts a marked text into two that are squeezed separately. -/
theorem squeezeFrom_append_cons (inRun : Bool) (m n : Marked α) {a : Symbol α}
    (ha : a.isBlank = false) :
    squeezeFrom inRun (m ++ a :: n) = squeezeFrom inRun m ++ a :: squeezeFrom false n := by
  induction m generalizing inRun with
  | nil => exact squeezeFrom_solid ha inRun n
  | cons b m ih =>
    rw [List.cons_append, squeezeFrom, squeezeFrom, ih, ih]
    split
    · split <;> rfl
    · rfl

/-- Trimming at the end goes no further than what is no blank. -/
theorem trimEnd_append_cons (m n : Marked α) {a : Symbol α} (ha : a.isBlank = false) :
    trimEnd (m ++ a :: n) = m ++ a :: trimEnd n := by
  simp only [trimEnd, List.rdropWhile, List.reverse_append, List.reverse_cons, List.append_assoc,
    List.singleton_append]
  rw [dropWhile_append_cons_of_neg ha]
  simp

/-- What is no blank parts a marked text into two that are collapsed separately. -/
theorem collapse_append_cons (m n : Marked α) {a : Symbol α} (ha : a.isBlank = false) :
    collapse (m ++ a :: n) =
      trimStart (squeezeFrom false m) ++ a :: trimEnd (squeezeFrom false n) := by
  rw [collapse, squeezeFrom_append_cons _ _ _ ha, trimStart, dropWhile_append_cons_of_neg ha,
    trimEnd_append_cons _ _ ha, trimStart]

/-- Blanks inside a run leave nothing. -/
theorem squeezeFrom_of_blank {e : Marked α} (he : ∀ a ∈ e, Symbol.isBlank a = true) :
    squeezeFrom true e = [] := by
  induction e with
  | nil => rfl
  | cons a e ih =>
    rw [List.forall_mem_cons] at he
    rw [squeezeFrom_blank he.1, if_pos rfl, ih he.2]

/-- A run of blanks becomes one space. -/
theorem squeezeFrom_run {e : Marked α} (he : ∀ a ∈ e, Symbol.isBlank a = true) (hne : e ≠ []) :
    squeezeFrom false e = [.char ' '] := by
  obtain ⟨a, e, rfl⟩ := List.exists_cons_of_ne_nil hne
  rw [List.forall_mem_cons] at he
  rw [squeezeFrom_blank he.1, if_neg (by decide), squeezeFrom_of_blank he.2]

/-- Squeezing blanks gives blanks. -/
theorem isBlank_of_mem_squeezeFrom {e : Marked α} (he : ∀ a ∈ e, Symbol.isBlank a = true) :
    ∀ a ∈ squeezeFrom false e, Symbol.isBlank a = true := by
  rw [← strip_eq_nil_iff, strip_squeezeFrom, strip_eq_nil_iff]
  exact he

/-- The only blank of a collapsed text is the space. -/
theorem eq_space_of_mem_squeezeFrom {inRun : Bool} {m : Marked α} {c : Char}
    (hc : Text.isBlank c = true) (h : .char c ∈ squeezeFrom inRun m) : c = ' ' := by
  induction m generalizing inRun with
  | nil => simp at h
  | cons a m ih =>
    cases ha : a.isBlank with
    | true =>
      rw [squeezeFrom_blank ha] at h
      split at h
      · exact ih h
      -- the space that stands for the run, or something later
      · rcases List.mem_cons.1 h with h | h
        · simpa using h
        · exact ih h
    | false =>
      rw [squeezeFrom_solid ha] at h
      rcases List.mem_cons.1 h with rfl | h
      · rw [Symbol.isBlank_char, hc] at ha
        cases ha
      · exact ih h

/-- A marked text that is not blank begins with blanks and something else. -/
theorem exists_eq_blank_append {m : Marked α} (hm : ∃ a ∈ m, Symbol.isBlank a = false) :
    ∃ e a r, m = e ++ a :: r ∧ (∀ b ∈ e, Symbol.isBlank b = true) ∧ a.isBlank = false := by
  induction m with
  | nil => simp at hm
  | cons b m ih =>
    cases hb : b.isBlank with
    | false => exact ⟨[], b, m, rfl, by simp, hb⟩
    | true =>
      obtain ⟨e, a, r, rfl, he, ha⟩ := ih (by simpa [hb] using hm)
      exact ⟨b :: e, a, r, rfl, by simpa [hb] using he, ha⟩

/-- Blanks between two marked texts that are not blank become a space. -/
theorem collapse_append_blank {m n : Marked α} (hm : ∃ a ∈ m, Symbol.isBlank a = false)
    (hn : ∃ a ∈ n, Symbol.isBlank a = false) {c : Char} (hc : Text.isBlank c = true) :
    collapse (m ++ .char c :: n) = collapse m ++ .char ' ' :: collapse n := by
  obtain ⟨e, a, r, rfl, he, ha⟩ := exists_eq_blank_append hn
  obtain ⟨f, b, x, hx, hf, hb⟩ := exists_eq_blank_append (m := m.reverse) (by simpa using hm)
  obtain rfl : m = x.reverse ++ b :: f.reverse := by simpa using congrArg List.reverse hx
  -- the blanks in the middle, with those that the two texts have there, are one run
  have hrun : ∀ d ∈ f.reverse ++ .char c :: e, Symbol.isBlank d = true := by
    simpa [hc, or_imp, forall_and] using And.intro hf he
  have hend : trimEnd (squeezeFrom false f.reverse) = [] :=
    List.rdropWhile_eq_nil_iff.2 (isBlank_of_mem_squeezeFrom (by simpa using hf))
  have hstart : trimStart (squeezeFrom false e) = [] :=
    List.dropWhile_eq_nil_iff.2 (isBlank_of_mem_squeezeFrom he)
  calc collapse (x.reverse ++ b :: f.reverse ++ .char c :: (e ++ a :: r))
      = collapse (x.reverse ++ b :: (f.reverse ++ .char c :: e) ++ a :: r) := by simp
    _ = trimStart (squeezeFrom false x.reverse) ++ b :: .char ' ' ::
          a :: trimEnd (squeezeFrom false r) := by
      rw [collapse_append_cons _ _ ha, squeezeFrom_append_cons _ _ _ hb,
        squeezeFrom_run hrun (by simp), trimStart, dropWhile_append_cons_of_neg hb, trimStart]
      simp
    _ = collapse (x.reverse ++ b :: f.reverse) ++ .char ' ' :: collapse (e ++ a :: r) := by
      rw [collapse_append_cons _ _ hb, collapse_append_cons _ _ ha, hend, hstart]
      simp

end Marked
end SqlTidy
