import SqlTidy.Proofs.Place
import SqlTidy.Proofs.Weave

/-!
# Separators of the layout pass

The layout pass writes the tokens one after the other and puts a separator before each: the
indentation of a line, mostly after a line feed, or a space, or nothing.  Which one it is depends on
the token and its place only.

## Main definitions

* `Layout.Place.separator`, `Layout.Place.separators` — what stands before a token, and before each
  of several.
* `Layout.Shows o p page ps` — the page `page` shows the tokens and separators `ps` up to the place
  `p`.
* `Layout.Follows comments p q` — the separator of `q` is right for coming after `p`.

## Main results

* `Layout.Shows.put`, `Layout.Shows.putAll` — laying out a token adds it with its separator, and so
  on for several.
* `Layout.eq_weave_of_layout` — a laid-out text is its tokens with their separators.
* `Layout.isChain_follows_separators` — every separator is right for where it stands.
-/

namespace SqlTidy
namespace Layout

/-- Only a comma is a comma of a select list. -/
theorem eq_comma_of_role {clause : Clause} {t : Token} (h : role clause t = .listComma) :
    t = [','] := by
  unfold role at h
  split_ifs at h with h1 h2
  exact h2.1

/-- Only an opening parenthesis has its role, and likewise for a closing one. -/
theorem eq_open_of_role {clause : Clause} {t : Token} (h : role clause t = .openParen) :
    t = ['('] := by
  unfold role at h
  split_ifs at h with h1 h2 h3 h4
  exact h4

theorem eq_close_of_role {clause : Clause} {t : Token} (h : role clause t = .closeParen) :
    t = [')'] := by
  unfold role at h
  split_ifs at h with h1 h2 h3 h4 h5
  exact h5

/-- A parenthesis has its role in every clause. -/
theorem role_open (clause : Clause) : role clause ['('] = .openParen := by
  cases clause <;> rfl

theorem role_close (clause : Clause) : role clause [')'] = .closeParen := by
  cases clause <;> rfl

variable {o : Options} {comments : List Text} {p : Place} {t : Token}

namespace Place

/-- The level of the line on which a token is put, if a line is started for it. -/
def lineLevel? (p : Place) (t : Token) : Option Nat :=
  match role p.clause t with
  | .opener _ => some p.depth
  | .join => some (p.depth + 1)
  | .firstItem => some (p.depth + 1)
  | _ => if p.ending = .listComma ∨ p.ending = .lineComment then some (p.depth + 1) else none

/-- The space before a token that goes on with the line. -/
def space (p : Place) (t : Token) : Text :=
  if p.ending = .other ∧ (Token.isMark t = false ∨ t = ['(']) then [' '] else []

/-- No space stands before a mark, but for an opening parenthesis. -/
theorem space_of_isMark (p : Place) {t : Token} (ht : t.isMark = true) (hne : t ≠ ['(']) :
    p.space t = [] := by
  simp [space, ht, hne]

/-- What stands between a token and the text before it: the indentation of a line that is started
for it, after a line feed unless the text is empty, or else a space or nothing. -/
def separator (o : Options) (p : Place) (t : Token) : Text :=
  match p.lineLevel? t with
  | some level => if p.ending = .start then o.margin level else '\n' :: o.margin level
  | none => p.space t

/-- What stands before each of several tokens. -/
def separators (o : Options) (comments : List Text) : Place → List Token → List Text
  | _, [] => []
  | p, t :: ts => p.separator o t :: separators o comments (p.next comments t) ts

@[simp] theorem separators_nil (o : Options) (comments : List Text) (p : Place) :
    p.separators o comments [] = [] := rfl

@[simp] theorem separators_cons (o : Options) (comments : List Text) (p : Place) (t : Token)
    (ts : List Token) :
    p.separators o comments (t :: ts) =
      p.separator o t :: (p.next comments t).separators o comments ts := rfl

@[simp] theorem length_separators (o : Options) (comments : List Text) (p : Place)
    (ts : List Token) : (p.separators o comments ts).length = ts.length := by
  induction ts generalizing p with
  | nil => rfl
  | cons t ts ih => simp [ih]

/-- Separators can be found in two stages, like places. -/
theorem separators_append (o : Options) (comments : List Text) (p : Place) (ts us : List Token) :
    p.separators o comments (ts ++ us) =
      p.separators o comments ts ++ (p.after comments ts).separators o comments us := by
  induction ts generalizing p with
  | nil => rfl
  | cons t ts ih => simp [ih]

end Place

/-- A page shows the given tokens with the given separators, up to the given place. -/
structure Shows (o : Options) (p : Place) (page : Page) (ps : List (Text × Token)) : Prop where
  /-- The tokens and separators make up its text. -/
  done_eq : page.done = weave ps
  /-- A line has been started after a comma of a select list, and nothing is pending otherwise. -/
  pending_eq : page.pending = if p.ending = .listComma then '\n' :: o.margin (p.depth + 1) else []
  /-- Something is written on the line, but for these places. -/
  hasContent_iff : page.hasContent = true ↔ p.ending ≠ .start ∧ p.ending ≠ .listComma
  /-- There are lines unless nothing has been written. -/
  allLines_iff : page.allLines = [] ↔ p.ending = .start
  /-- The line does not end in a blank. -/
  solid : page.hasContent = true → Token.Solid page.current
  /-- The line ends in a parenthesis if the place says so. -/
  open_iff : p.ending = .openParen ∨ p.ending = .other →
    (['('] <:+ page.current ↔ p.ending = .openParen)

/-- An empty page shows no tokens. -/
theorem shows_empty (o : Options) : Shows o {} {} [] where
  done_eq := rfl
  pending_eq := rfl
  hasContent_iff := by decide
  allLines_iff := by decide
  solid := by simp
  open_iff := by simp

variable {page : Page} {ps : List (Text × Token)}

/-- A token that is written after what is pending and a space or none. -/
theorem shows_write {q : Page} (hdone : q.done = weave ps) (space : Text) (ht : Token.Solid t)
    {r : Role} (hr : r ≠ .listComma) (hp : p.ending = Ending.after comments r t) :
    Shows o p (q.write (space ++ t)) (ps ++ [(q.pending ++ space, t)]) := by
  have hending : p.ending ≠ .start ∧ p.ending ≠ .listComma := by
    rw [hp, Ending.after, if_neg hr]
    split_ifs <;> simp
  refine ⟨?_, ?_, ?_, ?_, fun _ => ?_, fun hopen => ?_⟩
  · rw [Page.done_write, hdone]
    simp
  · rw [Page.pending_write, if_neg hending.2]
  · simp [hending]
  · simp [Page.allLines, hending]
  · rw [Page.current_write, ← List.append_assoc]
    exact ht.append _
  · -- the line ends in the token
    have hsuffix : ['('] <:+ q.current ++ (space ++ t) ↔ ['('] <:+ t := by
      rw [← List.append_assoc]
      constructor
      · intro h
        exact List.suffix_of_suffix_length_le h (List.suffix_append _ t)
          (List.length_pos_iff.2 ht.ne_nil)
      · intro h
        exact h.trans (List.suffix_append _ t)
    rw [Page.current_write, hsuffix, hp]
    rw [hp, Ending.after] at hopen
    rw [Ending.after]
    split_ifs at hopen ⊢ <;> simp_all

/-- Starting a line leaves the tokens of a page alone. -/
theorem Shows.done_startLine (h : Shows o p page ps) (m : Text) :
    (page.startLine m).done = weave ps := by
  rw [Page.done_startLine (fun hc => Token.Solid.trimEnd_eq (h.solid hc)), h.done_eq]

/-- A token on a line of its own. -/
theorem Shows.startLine_write (h : Shows o p page ps) (ht : Token.Solid t) (m : Text) {r : Role}
    (hr : r ≠ .listComma) {p' : Place} (hp' : p'.ending = Ending.after comments r t) :
    Shows o p' ((page.startLine m).write t)
      (ps ++ [(if p.ending = .start then m else '\n' :: m, t)]) := by
  have := shows_write (o := o) (h.done_startLine m) [] ht hr hp'
  simpa [Page.pending_startLine, h.allLines_iff] using this

/-- Where a token starts a line of its own, no other line is left from closing a comment. -/
theorem startLine_opened (m m' : Text) (p : Place) (page : Page) :
    (p.opened m page).startLine m' = page.startLine m' := by
  unfold Place.opened
  split
  · exact Page.startLine_startLine m m' page
  · rfl

/-- What is pending on the page on which a token is laid out. -/
theorem Shows.pending_opened (h : Shows o p page ps) :
    (p.opened (o.margin? p.commentLevel?) page).pending =
      if p.ending = .listComma ∨ p.ending = .lineComment then '\n' :: o.margin (p.depth + 1)
      else [] := by
  by_cases hline : p.ending = .lineComment
  · have hlines : page.allLines ≠ [] := by simp [h.allLines_iff, hline]
    simp [Place.opened, Place.commentLevel?, hline, Page.pending_startLine, hlines, Options.margin?]
  · simp [Place.opened, hline, h.pending_eq]

/-- Closing a comment leaves the tokens of a page alone. -/
theorem Shows.done_opened (h : Shows o p page ps) (m : Text) :
    (p.opened m page).done = weave ps := by
  unfold Place.opened
  split
  · exact h.done_startLine m
  · exact h.done_eq

/-- Whether the line on which a token is laid out has something on it. -/
theorem Shows.hasContent_opened (h : Shows o p page ps) (m : Text) :
    (p.opened m page).hasContent = true ↔ p.ending = .openParen ∨ p.ending = .other := by
  unfold Place.opened
  split
  · next hline => simp [hline]
  · next hline =>
    rw [h.hasContent_iff]
    cases hp : p.ending <;> simp_all

/-- The line on which a token is laid out ends in a parenthesis if the place says so.  A parenthesis
that ends a comment does not count, since the comment is closed first. -/
theorem Shows.endsWith_opened (h : Shows o p page ps) (m : Text) :
    (p.opened m page).endsWith ['('] = true ↔ p.ending = .openParen := by
  rw [Page.endsWith, Bool.and_eq_true, h.hasContent_opened, List.isSuffixOf_iff_suffix]
  constructor
  · rintro ⟨hp, hsuffix⟩
    -- no line has been started for the token, so that the place speaks of this very line
    have hline : p.ending ≠ .lineComment := by rcases hp with hp | hp <;> simp [hp]
    rw [Place.opened, if_neg hline] at hsuffix
    exact (h.open_iff hp).1 hsuffix
  · intro hp
    refine ⟨.inl hp, ?_⟩
    rw [Place.opened, if_neg (by simp [hp])]
    exact (h.open_iff (.inl hp)).2 hp

/-- The line on which a token is laid out never ends in a space, since nothing that is written does.
-/
theorem Shows.endsWith_space (h : Shows o p page ps) (m : Text) :
    (p.opened m page).endsWith [' '] = false := by
  rw [Page.endsWith, Bool.and_eq_false_iff]
  by_cases hc : (p.opened m page).hasContent = true
  · have hline : p.ending ≠ .lineComment := by
      rcases (h.hasContent_opened m).1 hc with hp | hp <;> simp [hp]
    rw [Place.opened, if_neg hline] at hc ⊢
    -- the last character of the line would be a blank
    obtain ⟨x, c, hx, hblank⟩ := h.solid hc
    refine .inr (Bool.eq_false_iff.2 fun hsuffix => ?_)
    rw [List.isSuffixOf_iff_suffix, hx] at hsuffix
    obtain ⟨y, hy⟩ := hsuffix
    cases (List.append_inj' hy rfl).2
    cases hblank
  · exact .inl (by simpa using hc)

/-- How an opening parenthesis is written: at once, with a space or none before it. -/
theorem writeOpen_eq (page : Page) :
    writeOpen page =
      page.write ((if page.atLineStart || page.endsWith ['('] then [] else [' ']) ++ ['(']) := by
  unfold writeOpen
  split
  · rfl
  · exact Page.write_write page _ _

/-- How any other token is written: at once, with a space or none before it. -/
theorem writePlain_eq (t : Token) (page : Page) :
    writePlain t page =
      page.write ((if page.atLineStart || t.isMark || page.endsWith ['('] || page.endsWith [' ']
        then [] else [' ']) ++ t) := by
  unfold writePlain
  split
  · rfl
  · exact Page.write_write page _ _

/-- The separator of a token that starts no line: what a comma or a comment has left, and a space or
none. -/
theorem separator_of_lineLevel?
    (h : p.lineLevel? t =
      if p.ending = .listComma ∨ p.ending = .lineComment then some (p.depth + 1) else none) :
    p.separator o t =
      (if p.ending = .listComma ∨ p.ending = .lineComment then '\n' :: o.margin (p.depth + 1)
        else []) ++ p.space t := by
  rw [Place.separator, h]
  by_cases hline : p.ending = .listComma ∨ p.ending = .lineComment
  · have hstart : p.ending ≠ .start ∧ p.ending ≠ .other := by
      rcases hline with hline | hline <;> simp [hline]
    simp [hline, hstart, Place.space]
  · simp [hline]

/-- A token that goes on with the line. -/
theorem Shows.write_opened (h : Shows o p page ps) (ht : Token.Solid t) {r : Role}
    (hr : r ≠ .listComma) {p' : Place} (hp' : p'.ending = Ending.after comments r t)
    (hlevel : p.lineLevel? t =
      if p.ending = .listComma ∨ p.ending = .lineComment then some (p.depth + 1) else none) :
    Shows o p' ((p.opened (o.margin? p.commentLevel?) page).write (p.space t ++ t))
      (ps ++ [(p.separator o t, t)]) := by
  have := shows_write (o := o) (h.done_opened (o.margin? p.commentLevel?)) (p.space t) ht hr hp'
  rwa [h.pending_opened, ← separator_of_lineLevel? hlevel] at this

/-- The space that is written before a parenthesis. -/
theorem Shows.space_open (h : Shows o p page ps) (m : Text) :
    (if (p.opened m page).atLineStart || (p.opened m page).endsWith ['('] then [] else [' ']) =
      p.space ['('] := by
  have hcontent := h.hasContent_opened m
  have hopen := h.endsWith_opened m
  cases hp : p.ending <;> simp [hp] at hcontent hopen <;>
    simp [Page.atLineStart, hcontent, hopen, Place.space, hp]

/-- The space that is written before a token. -/
theorem Shows.space_plain (h : Shows o p page ps) (m : Text) (ht : t ≠ ['(']) :
    (if (p.opened m page).atLineStart || t.isMark || (p.opened m page).endsWith ['('] ||
        (p.opened m page).endsWith [' '] then [] else [' ']) = p.space t := by
  have hcontent := h.hasContent_opened m
  have hopen := h.endsWith_opened m
  have hspace := h.endsWith_space m
  cases hp : p.ending <;> simp [hp] at hcontent hopen <;>
    cases hmark : t.isMark <;>
    simp [Page.atLineStart, hcontent, hopen, hspace, Place.space, hp, ht, hmark]

/-- After a comma of a select list, a line is started. -/
theorem Shows.startLine_comma (h : Shows o p page ps) (hp : p.ending ≠ .start) {p' : Place}
    (hdepth : p'.depth = p.depth) (hending : p'.ending = .listComma) :
    Shows o p' (page.startLine (o.margin (p.depth + 1))) ps where
  done_eq := h.done_startLine _
  pending_eq := by
    have hlines : page.allLines ≠ [] := fun hnil => hp (h.allLines_iff.1 hnil)
    rw [Page.pending_startLine, if_neg hlines, if_pos hending, hdepth]
  hasContent_iff := by simp [hending]
  allLines_iff := by
    have hlines : page.allLines ≠ [] := fun hnil => hp (h.allLines_iff.1 hnil)
    have : (page.startLine (o.margin (p.depth + 1))).allLines ≠ [] := by
      obtain ⟨lines, current, hasContent⟩ := page
      cases hasContent with
      | true => simp [Page.allLines, Page.startLine]
      | false => simpa [Page.allLines, Page.startLine] using hlines
    simp [this, hending]
  solid := by simp
  open_iff := by simp [hending]

/-- Laying out a token adds it to the page, with its separator.  This is the step lemma of the
layout pass; `Shows.putAll` is the one for a run. -/
theorem Shows.put (comments : List Text) (h : Shows o p page ps) (ht : Token.Solid t) :
    Shows o (p.next comments t) (p.put o t page) (ps ++ [(p.separator o t, t)]) := by
  have hending : (p.next comments t).ending = Ending.after comments (role p.clause t) t := rfl
  -- a token on a line of its own
  have hline : ∀ level, p.lineLevel? t = some level → role p.clause t ≠ .listComma →
      Shows o (p.next comments t) ((page.startLine (o.margin level)).write t)
        (ps ++ [(p.separator o t, t)]) := by
    intro level hlevel hr
    rw [Place.separator, hlevel]
    exact h.startLine_write ht (o.margin level) hr hending
  unfold Place.put
  cases hrole : role p.clause t with
  | opener clause =>
    rw [Role.put, startLine_opened]
    exact hline p.depth (by simp [Place.lineLevel?, hrole]) (by simp [hrole])
  | listComma =>
    obtain rfl := eq_comma_of_role hrole
    -- the comma is written as any mark is, and a line is started after it
    have hother :
        ({ p with ending := .other } : Place).ending = Ending.after comments .plain [','] := rfl
    have hwrite := h.write_opened ht (by simp) hother (by simp [Place.lineLevel?, hrole])
    rw [Place.space_of_isMark p rfl (by simp)] at hwrite
    refine hwrite.startLine_comma (by simp) ?_ ?_
    · simp [Place.next, hrole, Role.depthAfter]
    · rw [hending, hrole]
      rfl
  | join =>
    rw [Role.put, startLine_opened]
    exact hline (p.depth + 1) (by simp [Place.lineLevel?, hrole]) (by simp [hrole])
  | openParen =>
    obtain rfl := eq_open_of_role hrole
    rw [Role.put, writeOpen_eq, h.space_open]
    exact h.write_opened ht (by simp [hrole]) hending (by simp [Place.lineLevel?, hrole])
  | closeParen =>
    obtain rfl := eq_close_of_role hrole
    have hwrite := h.write_opened ht (by simp [hrole]) hending (by simp [Place.lineLevel?, hrole])
    rwa [Place.space_of_isMark p rfl (by simp)] at hwrite
  | firstItem =>
    rw [Role.put, startLine_opened]
    exact hline (p.depth + 1) (by simp [Place.lineLevel?, hrole]) (by simp [hrole])
  | plain =>
    have hne : t ≠ ['('] := by
      rintro rfl
      simp [role_open] at hrole
    rw [Role.put, writePlain_eq, h.space_plain _ hne]
    exact h.write_opened ht (by simp [hrole]) hending (by simp [Place.lineLevel?, hrole])

/-- Laying out tokens adds them to the page, each with its separator. -/
theorem Shows.putAll (comments : List Text) {ts : List Token} (h : Shows o p page ps)
    (hts : ∀ t ∈ ts, Token.Solid t) :
    Shows o (p.after comments ts) (p.putAll o comments ts page)
      (ps ++ (p.separators o comments ts).zip ts) := by
  induction ts generalizing p page ps with
  | nil => simpa [Place.putAll] using h
  | cons t ts ih =>
    obtain ⟨ht, hts⟩ := List.forall_mem_cons.1 hts
    simpa [Place.putAll] using ih (h.put comments ht) hts

/-- Every token has its separator. -/
theorem map_snd_zip_separators (o : Options) (comments : List Text) (p : Place) (ts : List Token) :
    ((p.separators o comments ts).zip ts).map Prod.snd = ts :=
  List.map_snd_zip (by simp)

/-- A laid-out text is its tokens with their separators. -/
theorem eq_weave_of_layout {ts : List Token} (hts : ∀ t ∈ ts, Token.Solid t) {s : Text}
    (h : layout o comments ts = .ok s) :
    s = weave ((Place.separators o comments {} ts).zip ts) := by
  have hfits := fits_of_layout h
  have hrun : run o comments {} ts = _ := run_of_fits hfits {}
  have hdone := ((shows_empty o).putAll comments hts).done_eq
  rw [List.nil_append] at hdone
  have hsolid : ∀ q ∈ (Place.separators o comments {} ts).zip ts, Token.Solid q.2 := by
    rwa [← map_snd_zip_separators o comments {} ts, List.forall_mem_map] at hts
  rw [layout, hrun] at h
  -- the trimming at the end takes nothing, since the last token ends in no blank
  calc s = Text.trimEnd (Place.putAll o comments {} ts {}).done := (Except.ok.inj h).symm
    _ = weave ((Place.separators o comments {} ts).zip ts) := by rw [hdone, trimEnd_weave hsolid]

/-! ### What separators are like -/

/-- A blank indentation gives blank margins. -/
theorem Options.isAllBlank_margin (ho : Text.isAllBlank o.indentText = true) (level : Nat) :
    Text.isAllBlank (o.margin level) = true := by
  rw [Options.margin, Text.times_eq_flatten, Text.isAllBlank, List.all_eq_true]
  intro c hc
  obtain ⟨l, hl, hcl⟩ := List.mem_flatten.1 hc
  rw [List.eq_of_mem_replicate hl] at hcl
  exact List.all_eq_true.1 ho c hcl

/-- A blank indentation gives blank separators. -/
theorem isAllBlank_separator (ho : Text.isAllBlank o.indentText = true) (p : Place) (t : Token) :
    Text.isAllBlank (p.separator o t) = true := by
  unfold Place.separator
  split
  · next level _ =>
    have hmargin := Options.isAllBlank_margin ho level
    split
    · exact hmargin
    · exact Bool.and_eq_true_iff.2 ⟨rfl, hmargin⟩
  · unfold Place.space
    split <;> rfl

/-- Every separator is blank if the indentation is. -/
theorem isAllBlank_of_mem_separators (ho : Text.isAllBlank o.indentText = true) {ts : List Token} :
    ∀ e ∈ p.separators o comments ts, Text.isAllBlank e = true := by
  induction ts generalizing p with
  | nil => simp
  | cons t ts ih => exact List.forall_mem_cons.2 ⟨isAllBlank_separator ho p t, ih⟩

/-- The separator of `q` is right for coming after `p`: there is one unless a parenthesis was just
opened or a punctuation mark comes, and it begins with a line feed after a line comment. -/
def Follows (comments : List Text) (p q : Text × Token) : Prop :=
  (q.1 = [] → ['('] <:+ p.2 ∨ Token.isMark q.2 = true) ∧
    (endsInComment comments p.2 = true → q.1.head? = some '\n')

/-- A line is started for every token after a comma of a select list or a line comment. -/
theorem ending_of_lineLevel?_eq_none (h : p.lineLevel? t = none) :
    p.ending ≠ .listComma ∧ p.ending ≠ .lineComment := by
  unfold Place.lineLevel? at h
  split at h <;> simp_all

/-- The separator of a token is right for coming after the token before it. -/
theorem follows_separator (o : Options) (p : Place) (e : Text) (t u : Token) :
    Follows comments (e, t) ((p.next comments t).separator o u, u) := by
  have hstart := Ending.after_ne_start comments (role p.clause t) t
  change (p.next comments t).ending ≠ .start at hstart
  unfold Place.separator
  cases hlevel : (p.next comments t).lineLevel? u with
  | some level => simp [Follows, hstart]
  | none =>
    -- the token goes on with the line
    obtain ⟨hcomma, hcomment⟩ := ending_of_lineLevel?_eq_none hlevel
    refine ⟨fun hnil => ?_, fun hends => ?_⟩
    · cases hending : (p.next comments t).ending with
      | start => exact absurd hending hstart
      | listComma => exact absurd hending hcomma
      | lineComment => exact absurd hending hcomment
      | openParen => exact .inl (Ending.suffix_of_after_eq_openParen hending)
      | other =>
        refine .inr ?_
        by_contra hmark
        simp [Place.space, hending, hmark] at hnil
    · exact absurd (Ending.after_eq_lineComment_iff.2 hends) hcomment

/-- Every separator is right for where it stands. -/
theorem isChain_follows_separators (o : Options) (comments : List Text) (p : Place)
    (ts : List Token) : ((p.separators o comments ts).zip ts).IsChain (Follows comments) := by
  induction ts generalizing p with
  | nil => exact List.isChain_nil
  | cons t ts ih =>
    have := ih (p.next comments t)
    cases ts with
    | nil => exact List.isChain_singleton _
    | cons u ts => exact List.isChain_cons_cons.2 ⟨follows_separator o p _ t u, this⟩

end Layout
end SqlTidy
