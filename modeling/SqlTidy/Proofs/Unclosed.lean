import SqlTidy.Proofs.Literal
import SqlTidy.Proofs.Recase
import SqlTidy.Proofs.Spacing

/-!
# Unclosed quotes

A quote that the recogniser of literals leaves in a gap is not closed by anything that follows it,
not even after the literals that follow have given way to placeholders.  It stays unclosed when
blanks are collapsed and words recased.

## Main definitions

* `Marked.exposes q pending m` — a quote `q` stands in a gap of `m` that no backslash escapes.
* `Marked.Unclosed m` — the first quote in a gap of `m` is not closed.
* `Marked.QuoteFree m` — no quote stands in a gap of `m`.

## Main results

* `Marked.unclosed_of_scans` — what the recogniser of literals leaves over is unclosed.
* `Marked.Unclosed.collapse`, `Marked.Unclosed.of_fold_eq` — and stays so.
* `Marked.spanLength_spell` — an unclosed quote takes all the rest of the text.
-/

namespace SqlTidy

variable {α : Type}

namespace Symbol

/-- Whether a symbol is a quote character. -/
def isQuote : Symbol α → Bool
  | .char c => Text.isQuote c
  | .hit _ => false

@[simp] theorem isQuote_char (c : Char) : (Symbol.char c : Symbol α).isQuote = Text.isQuote c := rfl

@[simp] theorem isQuote_hit (h : Hit α) : (Symbol.hit h).isQuote = false := rfl

/-- Whether a symbol is a quote does not depend on case. -/
theorem isQuote_of_fold_eq {a b : Symbol α} (h : a.fold = b.fold) : a.isQuote = b.isQuote := by
  cases a <;> cases b <;> simp only [fold, char.injEq, hit.injEq, reduceCtorEq] at h
  · exact eq_of_toLower_eq isQuote_case h
  · rfl

end Symbol

namespace Marked

/-! ### Unclosed quotes -/

/-- Whether a quote `q` stands in a gap that no backslash escapes.  `pending` says whether the first
symbol is escaped; a hit is escaped as a whole and does not escape what follows it. -/
def exposes (q : Char) : (pending : Bool) → Marked α → Bool
  | _, [] => false
  | true, .char _ :: m => exposes q false m
  | false, .char c :: m => if c = '\\' then exposes q true m else c = q || exposes q false m
  | _, .hit _ :: m => exposes q false m

/-- The first quote in a gap is not closed. -/
def Unclosed : Marked α → Prop
  | [] => True
  | .char c :: m => if Text.isQuote c then exposes c false m = false else Unclosed m
  | .hit _ :: m => Unclosed m

/-- No quote stands in a gap. -/
def QuoteFree (m : Marked α) : Prop := ∀ a ∈ m, Symbol.isQuote a = false

@[simp] theorem exposes_nil (q : Char) (pending : Bool) :
    exposes q pending ([] : Marked α) = false := by
  cases pending <;> rfl

@[simp] theorem exposes_hit (q : Char) (pending : Bool) (h : Hit α) (m : Marked α) :
    exposes q pending (.hit h :: m) = exposes q false m := by
  cases pending <;> rfl

/-- Whether a quote is exposed does not depend on what the hits are. -/
theorem exposes_mapHits {β : Type} (g : Hit α → Hit β) (q : Char) (pending : Bool) (m : Marked α) :
    exposes q pending (mapHits g m) = exposes q pending m := by
  induction m generalizing pending with
  | nil => rw [exposes_nil]; exact exposes_nil q pending
  | cons a m ih =>
    cases a with
    | char c =>
      rw [mapHits_char]
      cases pending <;> simp only [exposes, ih]
    | hit h => rw [mapHits_hit, exposes_hit, exposes_hit, ih]

/-- Whether a quote is closed does not depend on what the hits are. -/
theorem unclosed_mapHits {β : Type} (g : Hit α → Hit β) (m : Marked α) :
    Unclosed (mapHits g m) ↔ Unclosed m := by
  induction m with
  | nil => exact Iff.rfl
  | cons a m ih =>
    cases a with
    | char c => rw [mapHits_char, Unclosed, Unclosed, exposes_mapHits, ih]
    | hit h => exact ih

/-- What has no quotes can be left out in front. -/
theorem unclosed_append {x : Marked α} (hx : QuoteFree x) (y : Marked α) :
    Unclosed (x ++ y) ↔ Unclosed y := by
  induction x with
  | nil => exact Iff.rfl
  | cons a x ih =>
    obtain ⟨ha, htail⟩ := List.forall_mem_cons.1 hx
    cases a with
    | char c => rw [List.cons_append, Unclosed, if_neg (by simpa using ha), ih htail]
    | hit h => exact ih htail

/-- Both parts of a text without quotes have none. -/
theorem QuoteFree.of_append {m n : Marked α} (h : QuoteFree (m ++ n)) : QuoteFree m ∧ QuoteFree n :=
  List.forall_mem_append.1 h

/-- There is no quote among the symbols if there is none in any gap. -/
theorem quoteFree_iff_gaps (m : Marked α) :
    QuoteFree m ↔ ∀ g ∈ (cut m).gaps, ∀ c ∈ g, Text.isQuote c = false := by
  constructor
  · intro h
    induction m using gap_induction with
    | gap g =>
      rw [cut_ofText]
      simpa [Cut.gaps, QuoteFree, ofText] using h
    | hit g x m ih =>
      obtain ⟨hg, hm⟩ := h.of_append
      rw [cut_ofText_append_hit]
      have := ih (List.forall_mem_cons.1 hm).2
      simpa [Cut.gaps, or_imp, forall_and] using ⟨by simpa [QuoteFree, ofText] using hg, by
        simpa [Cut.gaps, or_imp, forall_and] using this⟩
  · intro h a ha
    cases a with
    | hit x => rfl
    | char c =>
      rw [← symbols_cut m] at ha
      obtain ⟨g, hg, hc⟩ := Cut.mem_gap_of_mem_symbols ha
      exact h g hg c hc

/-- Quotes are looked for in the gaps only, so that the hits may be anything. -/
theorem quoteFree_mapHits {β : Type} (f : Hit α → Hit β) (m : Marked α) :
    QuoteFree (mapHits f m) ↔ QuoteFree m := by
  have hquote : ∀ a : Symbol α, (a.mapHit f).isQuote = a.isQuote := by
    intro a
    cases a <;> rfl
  simp [QuoteFree, mapHits, hquote]

/-! ### What the recogniser of literals leaves over -/

/-- Whether a text ends in a backslash that escapes what follows. -/
def escapesNext : (pending : Bool) → Text → Bool
  | pending, [] => pending
  | true, _ :: s => escapesNext false s
  | false, c :: s => escapesNext (c = '\\') s

/-- A quote is exposed in two texts together if it is in the first or, by what the first escapes, in
the second. -/
theorem exposes_text_append (q : Char) (pending : Bool) (x s : Text) :
    Text.exposes q pending (x ++ s) =
      (Text.exposes q pending x || Text.exposes q (escapesNext pending x) s) := by
  induction x generalizing pending with
  | nil => cases pending <;> rfl
  | cons c x ih =>
    cases pending with
    | true => exact ih false
    | false =>
      by_cases hc : c = '\\'
      · simp [Text.exposes, escapesNext, hc, ih]
      · simp [Text.exposes, escapesNext, hc, ih, Bool.or_assoc]

/-- Only a backslash at the end of a text escapes what follows it. -/
theorem eq_backslash_of_escapesNext {pending : Bool} {x : Text} {c : Char}
    (h : escapesNext pending (x ++ [c]) = true) : c = '\\' := by
  induction x generalizing pending with
  | nil =>
    cases pending with
    | true => simp [escapesNext] at h
    | false => simpa [escapesNext] using h
  | cons d x ih =>
    cases pending with
    | true => exact ih h
    | false => exact ih h

end Marked

namespace Literal

/-- A literal begins with a quote, a hyphen or a slash. -/
theorem Stands.exists_cons {kind : Kind} {t r : Text} (h : Stands kind t r) :
    ∃ c b, t = c :: b ∧ (Text.isQuote c = true ∨ c = '-' ∨ c = '/') := by
  cases h with
  | @quoted _ q b _ hkind _ => exact ⟨q, b, rfl, .inl (Kind.isQuote_of_quote? hkind)⟩
  | line => exact ⟨_, _, rfl, .inr (.inl rfl)⟩
  | block => exact ⟨_, _, rfl, .inr (.inr rfl)⟩

/-- A literal that is no line comment ends in a quote or a slash, so that it does not escape what
follows it. -/
theorem Stands.escapesNext {kind : Kind} {t r : Text} (h : Stands kind t r)
    (hkind : kind ≠ .lineComment) (pending : Bool) : Marked.escapesNext pending t = false := by
  have hlast : ∀ {x : Text} {c : Char}, c ≠ '\\' →
      Marked.escapesNext pending (x ++ [c]) = false := by
    intro x c hc
    by_contra hesc
    exact hc (Marked.eq_backslash_of_escapesNext (Bool.not_eq_false _ ▸ hesc))
  cases h with
  | @quoted _ q b _ hquote hclose =>
    have hq := ne_backslash_of_isQuote (Kind.isQuote_of_quote? hquote)
    obtain ⟨x, rfl⟩ := (Text.closing_append hq hclose).1
    exact hlast (x := q :: x) hq
  | line => exact absurd rfl hkind
  | @block b _ hb =>
    obtain ⟨x, rfl⟩ := (blockLength_append hb).1
    have := hlast (x := '/' :: '*' :: (x ++ ['*'])) (c := '/') (by decide)
    rwa [List.cons_append, List.cons_append, List.append_assoc] at this

/-- A line comment goes on to the end of its line. -/
theorem Stands.isLineEnd_of_mem_head? {t r : Text} (h : Stands .lineComment t r) :
    ∀ c ∈ r.head?, isLineEnd c = true := by
  cases h with
  | quoted hquote => cases hquote
  | line _ hend => exact hend

/-- The end of a line is no quote. -/
theorem isQuote_of_isLineEnd {c : Char} (h : isLineEnd c = true) : Text.isQuote c = false := by
  simp only [isLineEnd, Bool.or_eq_true, beq_iff_eq] at h
  rcases h with rfl | rfl <;> rfl

/-- The end of a line is a blank. -/
theorem isBlank_of_isLineEnd {c : Char} (h : isLineEnd c = true) : Text.isBlank c = true := by
  simp only [isLineEnd, Bool.or_eq_true, beq_iff_eq] at h
  rcases h with rfl | rfl <;> rfl

end Literal

namespace Marked

open Literal (Kind)

/-- A hit at the front of a marked text that is scanned right is a literal in front of the rest. -/
theorem stands_of_scans {h : Hit Kind} {m : Marked Kind}
    (hm : Literal.recogniser.Scans (.hit h :: m)) : Literal.Stands h.tag h.text (text m) :=
  Literal.read_append_iff.1 hm.1

/-- Every hit is a literal of its kind. -/
theorem exists_stands_of_scans {m : Marked Kind} (hm : Literal.recogniser.Scans m) :
    ∀ h ∈ hits m, ∃ r, Literal.Stands h.tag h.text r := by
  induction m with
  | nil => simp [hits]
  | cons a m ih =>
    cases a with
    | char c => exact ih hm.2
    | hit x => exact List.forall_mem_cons.2 ⟨⟨_, stands_of_scans hm⟩, ih hm.2⟩

/-- Every hit begins with a quote, a hyphen or a slash. -/
theorem exists_cons_of_scans {m : Marked Kind} (hm : Literal.recogniser.Scans m) :
    ∀ h ∈ hits m, ∃ c b, h.text = c :: b ∧ (Text.isQuote c = true ∨ c = '-' ∨ c = '/') := by
  intro h hh
  obtain ⟨r, hr⟩ := exists_stands_of_scans hm h hh
  exact hr.exists_cons

/-- After a line comment, a marked text ends or goes on with the end of the line. -/
theorem head?_of_scans_lineComment {h : Hit Kind} {m : Marked Kind}
    (hm : Literal.recogniser.Scans (.hit h :: m)) (hkind : h.tag = .lineComment) :
    ∀ a ∈ m.head?, ∃ c, a = .char c ∧ Literal.isLineEnd c = true := by
  have hend := (hkind ▸ stands_of_scans hm).isLineEnd_of_mem_head?
  intro a ha
  obtain ⟨m, rfl⟩ := List.head?_eq_some_iff.1 (Option.mem_def.1 ha)
  cases a with
  | char c => exact ⟨c, rfl, hend c rfl⟩
  | hit x =>
    -- no literal begins with the end of a line
    obtain ⟨c, b, hb, hc⟩ := (stands_of_scans hm.2).exists_cons
    have := hend c (by simp [hb])
    rcases hc with hc | rfl | rfl
    · simp [Literal.isQuote_of_isLineEnd this] at hc
    · cases this
    · cases this

/-- A quote exposed in a gap is exposed in the text.  The two scans agree on what is escaped, but
for the end of a line after a line comment. -/
theorem exposes_text_of_exposes {q : Char} (hq : Text.isQuote q = true) {m : Marked Kind}
    (hm : Literal.recogniser.Scans m) {pending pending' : Bool}
    (hpending : pending = pending' ∨ pending = false ∧
      ∀ a ∈ m.head?, ∃ c, a = .char c ∧ Literal.isLineEnd c = true)
    (h : exposes q pending m = true) : Text.exposes q pending' (text m) = true := by
  induction m generalizing pending pending' with
  | nil => simp at h
  | cons a m ih =>
    cases a with
    | char c =>
      rw [text, spell_char]
      rcases hpending with rfl | ⟨rfl, hend⟩
      · cases pending with
        | true => exact ih hm.2 (.inl rfl) h
        | false =>
          simp only [exposes, Text.exposes] at h ⊢
          split
          · next hc => exact ih hm.2 (.inl rfl) (by simpa [hc] using h)
          · next hc =>
            simp only [hc, if_false, Bool.or_eq_true] at h ⊢
            exact h.imp_right (ih hm.2 (.inl rfl))
      · obtain ⟨d, hd, hend⟩ := hend _ rfl
        obtain rfl : c = d := by simpa using hd
        have hne : c ≠ '\\' := ne_backslash_of_isBlank (Literal.isBlank_of_isLineEnd hend)
        have hcq : c ≠ q := by
          rintro rfl
          simp [Literal.isQuote_of_isLineEnd hend] at hq
        -- the end of the line may be escaped in the text, but it is not what is exposed
        have hrest : exposes q false m = true := by simpa [exposes, hne, hcq] using h
        cases pending' with
        | true => exact ih hm.2 (.inl rfl) hrest
        | false => simpa [Text.exposes, hne, hcq] using ih hm.2 (.inl rfl) hrest
    | hit x =>
      rw [exposes_hit] at h
      rw [text, spell_hit, exposes_text_append, Bool.or_eq_true]
      refine .inr (ih hm.2 ?_ h)
      -- only a line comment can end in a backslash
      by_cases hkind : x.tag = .lineComment
      · exact .inr ⟨rfl, head?_of_scans_lineComment hm hkind⟩
      · exact .inl ((stands_of_scans hm).escapesNext hkind _).symm

/-- What the recogniser of literals leaves over is unclosed. -/
theorem unclosed_of_scans {m : Marked Kind} (hm : Literal.recogniser.Scans m) : Unclosed m := by
  induction m with
  | nil => trivial
  | cons a m ih =>
    cases a with
    | char c =>
      rw [Unclosed]
      split
      · next hc =>
        -- no literal begins at the quote, so that no quote is exposed after it
        have hclosing := (Literal.read_eq_none_iff.1 hm.1).1 hc
        rw [Text.closing_eq_none_iff] at hclosing
        by_contra hexp
        have := exposes_text_of_exposes hc hm.2 (.inl rfl) (Bool.not_eq_false _ ▸ hexp)
        simp [hclosing] at this
      · exact ih hm.2
    | hit h => exact ih hm.2

/-! ### Unclosed quotes after collapsing and recasing -/

/-- Squeezing runs of blanks exposes no quote and hides none.  Inside a run nothing is pending,
which is why the two cases differ. -/
theorem exposes_squeezeFrom {q : Char} (hq : Text.isQuote q = true) (m : Marked α) :
    (∀ pending, exposes q pending (squeezeFrom false m) = exposes q pending m) ∧
      exposes q false (squeezeFrom true m) = exposes q false m := by
  induction m with
  | nil => exact ⟨fun _ => rfl, rfl⟩
  | cons a m ih =>
    cases a with
    | hit h =>
      rw [squeezeFrom_solid rfl, squeezeFrom_solid rfl]
      simp only [exposes_hit, ih.1, implies_true, and_self]
    | char c =>
      cases hc : Text.isBlank c with
      | true =>
        -- a blank neither escapes nor is exposed, and neither is the space that stands for it
        have hblank : ∀ d, Text.isBlank d = true → ∀ (pending : Bool) (n : Marked α),
            exposes q pending (.char d :: n) = exposes q false n := by
          intro d hd pending n
          have hne := ne_backslash_of_isBlank hd
          have hdq : d ≠ q := by
            rintro rfl
            simp [isQuote_of_isBlank hd] at hq
          cases pending <;> simp [exposes, hne, hdq]
        rw [squeezeFrom_blank (by simpa using hc), squeezeFrom_blank (by simpa using hc)]
        simp only [Bool.false_eq_true, if_false, if_true]
        exact ⟨fun pending => by rw [hblank _ rfl, hblank _ hc, ih.2], by rw [hblank _ hc, ih.2]⟩
      | false =>
        rw [squeezeFrom_solid (by simpa using hc), squeezeFrom_solid (by simpa using hc)]
        have hcons : ∀ pending, exposes q pending (.char c :: squeezeFrom false m) =
            exposes q pending (.char c :: m) := by
          intro pending
          cases pending <;> simp only [exposes, ih.1]
        exact ⟨hcons, hcons false⟩

/-- Blanks at the end expose nothing. -/
theorem exposes_append_blank {q : Char} (hq : Text.isQuote q = true) {e : Marked α}
    (he : ∀ a ∈ e, Symbol.isBlank a = true) (pending : Bool) (m : Marked α) :
    exposes q pending (m ++ e) = exposes q pending m := by
  induction m generalizing pending with
  | nil =>
    rw [List.nil_append, exposes_nil]
    induction e generalizing pending with
    | nil => exact exposes_nil q pending
    | cons a e ih =>
      obtain ⟨ha, htail⟩ := List.forall_mem_cons.1 he
      cases a with
      | hit h => cases ha
      | char c =>
        have hne := ne_backslash_of_isBlank ha
        have hcq : c ≠ q := by
          rintro rfl
          rw [Symbol.isBlank_char] at ha
          simp [isQuote_of_isBlank ha] at hq
        cases pending <;> simp [exposes, hne, hcq, ih htail]
  | cons a m ih =>
    cases a with
    | hit h => simp [ih]
    | char c => cases pending <;> simp only [List.cons_append, exposes, ih]

/-- Whether a quote is exposed does not depend on case: neither quotes nor backslashes are letters.
-/
theorem exposes_of_fold_eq {q : Char} (hq : Text.isQuote q = true) {m n : Marked α}
    (h : fold m = fold n) (pending : Bool) : exposes q pending m = exposes q pending n := by
  have hletter := isAlpha_of_isPlain (isPlain_of_isQuote hq)
  induction h using fold_induction generalizing pending with
  | nil => rfl
  | char c d m n hcd _ ih =>
    have hbackslash := eq_char_iff_of_toLower_eq (e := '\\') (by decide) hcd
    have hquote := eq_char_iff_of_toLower_eq hletter hcd
    cases pending <;> simp only [exposes, hbackslash, hquote, ih]
  | hit x m n _ ih => rw [exposes_hit, exposes_hit, ih]

/-- Leaving out blanks and making letters small do not depend on each other. -/
theorem strip_fold (m : Marked α) : strip (fold m) = fold (strip m) := by
  have hblank : ∀ a : Symbol α, a.fold.isBlank = a.isBlank := by
    intro a
    cases a with
    | char c => exact toLower_class isBlank_case c
    | hit h => rfl
  rw [strip, fold, List.filter_map, strip, fold]
  exact congrArg _ (List.filter_congr fun a _ => by simp [hblank])

/-- Recasing keeps a marked text but for the case of its letters, with blanks or without. -/
theorem fold_strip_recase (o : Options) (m : Marked α) :
    fold (strip (recase o m)) = fold (strip m) := by
  rw [← strip_fold, fold_recase, strip_fold]

/-- Whether a quote stands in a gap depends on the content of the gaps only. -/
theorem quoteFree_of_fold_strip_eq {m n : Marked α} (h : fold (strip m) = fold (strip n))
    (hm : QuoteFree m) : QuoteFree n := by
  intro b hb
  cases hblank : b.isBlank with
  | true =>
    cases b with
    | char c => exact isQuote_of_isBlank hblank
    | hit x => rfl
  | false =>
    -- a symbol that is no blank has a counterpart in `m` up to case
    have hb' : b.fold ∈ fold (strip m) := by
      rw [h]
      exact List.mem_map_of_mem (List.mem_filter.2 ⟨hb, by simp [hblank]⟩)
    obtain ⟨a, ha, hab⟩ := List.mem_map.1 hb'
    rw [← Symbol.isQuote_of_fold_eq hab, hm a (List.mem_filter.1 ha).1]

/-- Squeezing runs of blanks closes no quote. -/
theorem Unclosed.squeezeFrom {m : Marked α} (hm : Unclosed m) (inRun : Bool) :
    Unclosed (squeezeFrom inRun m) := by
  induction m generalizing inRun with
  | nil => trivial
  | cons a m ih =>
    cases a with
    | hit h => rw [squeezeFrom_solid (by rfl)]; exact ih hm false
    | char c =>
      cases hc : Text.isBlank c with
      | true =>
        rw [Unclosed, if_neg (by simp [isQuote_of_isBlank hc])] at hm
        rw [squeezeFrom_blank (by simpa using hc)]
        split
        · exact ih hm true
        · exact ih hm true
      | false =>
        rw [squeezeFrom_solid (by simpa using hc), Unclosed]
        rw [Unclosed] at hm
        split
        · next hq =>
          rw [if_pos hq] at hm
          rw [(exposes_squeezeFrom hq m).1, hm]
        · next hq =>
          rw [if_neg hq] at hm
          exact ih hm false

/-- Trimming at the beginning closes no quote. -/
theorem Unclosed.trimStart {m : Marked α} (hm : Unclosed m) : Unclosed (trimStart m) := by
  have hsplit := List.takeWhile_append_dropWhile (p := Symbol.isBlank) (l := m)
  rw [← hsplit, unclosed_append] at hm
  · exact hm
  · intro a ha
    have hblank := List.mem_takeWhile_imp ha
    cases a with
    | char c => exact isQuote_of_isBlank hblank
    | hit h => rfl

/-- What trimming takes from the end is blank. -/
theorem exists_eq_trimEnd_append (m : Marked α) :
    ∃ e, (∀ a ∈ e, Symbol.isBlank a = true) ∧ m = trimEnd m ++ e := by
  refine ⟨(m.reverse.takeWhile Symbol.isBlank).reverse, fun a ha => ?_, ?_⟩
  · exact List.mem_takeWhile_imp (List.mem_reverse.1 ha)
  · rw [trimEnd, List.rdropWhile, ← List.reverse_append, List.takeWhile_append_dropWhile,
      List.reverse_reverse]

/-- Without the blanks at its end, an unclosed quote stays unclosed. -/
theorem unclosed_append_blank {e : Marked α} (he : ∀ a ∈ e, Symbol.isBlank a = true) {m : Marked α}
    (hm : Unclosed (m ++ e)) : Unclosed m := by
  induction m with
  | nil => trivial
  | cons a m ih =>
    cases a with
    | hit h => exact ih hm
    | char c =>
      rw [List.cons_append, Unclosed] at hm
      rw [Unclosed]
      split
      · next hq => rwa [if_pos hq, exposes_append_blank hq he] at hm
      · next hq =>
        rw [if_neg hq] at hm
        exact ih hm

/-- Collapsing closes no quote. -/
theorem Unclosed.collapse {m : Marked α} (hm : Unclosed m) : Unclosed (collapse m) := by
  obtain ⟨e, he, heq⟩ := exists_eq_trimEnd_append (Marked.trimStart (Marked.squeezeFrom false m))
  have := (hm.squeezeFrom false).trimStart
  rw [heq] at this
  exact unclosed_append_blank he this

/-- Whether a quote is closed does not depend on case. -/
theorem Unclosed.of_fold_eq {m n : Marked α} (hm : Unclosed m) (h : fold m = fold n) :
    Unclosed n := by
  induction h using fold_induction with
  | nil => trivial
  | char c d m n hcd hmn ih =>
    have hquote : Text.isQuote c = Text.isQuote d := eq_of_toLower_eq isQuote_case hcd
    rw [Unclosed] at hm ⊢
    rw [← hquote]
    split
    · next hc =>
      -- a quote is no letter, so that it is the same quote
      have hletter := isAlpha_of_isPlain (isPlain_of_isQuote hc)
      obtain rfl : d = c := (eq_char_iff_of_toLower_eq hletter hcd).1 rfl
      rwa [if_pos hc, exposes_of_fold_eq hc hmn] at hm
    · next hc =>
      rw [if_neg hc] at hm
      exact ih hm
  | hit x m n _ ih =>
    rw [Unclosed] at hm ⊢
    exact ih hm

/-- A quote is exposed in the text if it is in a gap, when all hits are written as parts of words.
-/
theorem exposes_spell {f : Hit α → Text} (hf : Wordlike f) {q : Char} (hq : Text.isQuote q = true)
    (pending : Bool) (m : Marked α) : Text.exposes q pending (spell f m) = exposes q pending m := by
  -- nothing in a word is exposed or escapes
  have hword : ∀ w : Text, (∀ c ∈ w, isPlain c = true) → '\\' ∉ w →
      Text.exposes q false w = false ∧ escapesNext false w = false := by
    intro w hplain hescape
    induction w with
    | nil => exact ⟨rfl, rfl⟩
    | cons c w ih =>
      obtain ⟨hc, hw⟩ := List.forall_mem_cons.1 hplain
      obtain ⟨hne, hescape⟩ : '\\' ≠ c ∧ '\\' ∉ w := by simpa using hescape
      have hcq : c ≠ q := by
        rintro rfl
        simp [isQuote_of_isPlain hc] at hq
      simp [Text.exposes, escapesNext, hne.symm, hcq, ih hw hescape]
  induction m generalizing pending with
  | nil => cases pending <;> rfl
  | cons a m ih =>
    cases a with
    | char c => cases pending <;> simp only [spell_char, Text.exposes, exposes, ih]
    | hit h =>
      obtain ⟨c, w, hw⟩ := List.exists_cons_of_ne_nil (hf.ne_nil h)
      have hplain := hf.plain h
      have hescape := hf.unescaping h
      rw [spell_hit, exposes_hit, exposes_text_append]
      cases pending with
      | false =>
        obtain ⟨hexp, hnext⟩ := hword _ hplain hescape
        rw [hexp, hnext, Bool.false_or, ih]
      -- the backslash before the hit escapes the first character of what is written for it
      | true =>
        rw [hw, List.forall_mem_cons] at hplain
        rw [hw, List.mem_cons, not_or] at hescape
        obtain ⟨hexp, hnext⟩ := hword w hplain.2 hescape.2
        rw [hw, Text.exposes, escapesNext, hexp, hnext, Bool.false_or, ih]

/-- An unclosed quote takes all the rest of the text. -/
theorem spanLength_spell {f : Hit α → Text} (hf : Wordlike f) {q : Char}
    (hq : Text.isQuote q = true) {m : Marked α} (hm : Unclosed (.char q :: m)) :
    Text.spanLength q (spell f m) = (spell f m).length := by
  rw [Unclosed, if_pos hq] at hm
  exact Text.spanLength_of_exposes (by rw [exposes_spell hf hq, hm])

end Marked
end SqlTidy
