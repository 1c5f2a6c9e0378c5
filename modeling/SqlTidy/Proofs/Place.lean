import Mathlib.Tactic.ByContra
import Mathlib.Tactic.SplitIfs
import SqlTidy.Layout.Basic

/-!
# Places of the layout pass

What the layout pass does with a token depends on the depth of parentheses, on the clause, and on
how the text before the token ends.  These three make up a place.  The next place is found from the
token alone; the page is written beside it and is never looked at to find the way.  So the levels
whose indentation is asked for are known before anything is written, and the pass fails if and only
if one of them does not fit.

## Main definitions

* `Layout.Ending`, `Layout.Place` — how the text before a token ends, and where the token comes.
* `Layout.Place.next`, `Layout.Place.after` — the place after a token, and after several.
* `Layout.Place.levels`, `Layout.Place.allLevels` — the levels whose indentation is asked for.
* `Layout.Place.put`, `Layout.Place.putAll` — what is written on the page.

## Main results

* `Layout.step_eq` — a step asks for the indentation of its levels, and does the rest whatever they
  are.
* `Layout.run_of_fits`, `Layout.exists_run_of_not_fits` — a run goes well if all levels fit, and
  fails otherwise.
-/

namespace SqlTidy

/-- The indentation at a level that fits. -/
def Options.margin (o : Options) (level : Nat) : Text :=
  Text.times (o.indentWidth level) o.indentText

/-- The indentation of the line that is started, if one is. -/
def Options.margin? (o : Options) : Option Nat → Text
  | none => []
  | some level => o.margin level

namespace Role

/-- The depth of parentheses after a token of the given role.  A parenthesis that closes nothing
leaves it at zero. -/
def depthAfter (depth : Nat) : Role → Nat
  | openParen => depth + 1
  | closeParen => depth - 1
  | _ => depth

/-- The clause after a token of the given role. -/
def clauseAfter (clause : Clause) : Role → Clause
  | opener clause => clause
  | listComma => .selectList false
  | firstItem => .selectList false
  | _ => clause

/-- The level of the line that a token of the given role starts, if it starts one. -/
def level? (depth : Nat) : Role → Option Nat
  | opener _ => some depth
  | listComma => some (depth + 1)
  | join => some (depth + 1)
  | firstItem => some (depth + 1)
  | _ => none

/-- The page after a token of the given role, if the line that it starts has the margin `m`. -/
def put (m : Text) (t : Token) (page : Page) : Role → Page
  | opener _ => (page.startLine m).write t
  | listComma => (page.write [',']).startLine m
  | join => (page.startLine m).write t
  | openParen => Layout.writeOpen page
  | closeParen => page.write [')']
  | firstItem => (page.startLine m).write t
  | plain => Layout.writePlain t page

end Role

namespace Layout

/-- How the text before a token ends. -/
inductive Ending
  /-- There is no text yet. -/
  | start
  /-- With a comma of a select list, after which a line is started. -/
  | listComma
  /-- With a line comment. -/
  | lineComment
  /-- With an opening parenthesis. -/
  | openParen
  /-- With anything else. -/
  | other
  deriving DecidableEq, Repr

/-- How the text ends after a token of the given role. -/
def Ending.after (comments : List Text) (r : Role) (t : Token) : Ending :=
  if endsInComment comments t then lineComment
  else if r = .listComma then listComma
  else if ['('].isSuffixOf t then openParen
  else other

/-- A line comment at the end of a token counts before everything else. -/
theorem Ending.after_eq_lineComment_iff {comments : List Text} {r : Role} {t : Token} :
    Ending.after comments r t = lineComment ↔ endsInComment comments t = true := by
  unfold Ending.after
  split_ifs <;> simp_all

/-- After a token, there is some text. -/
theorem Ending.after_ne_start (comments : List Text) (r : Role) (t : Token) :
    Ending.after comments r t ≠ start := by
  unfold Ending.after
  split_ifs <;> simp

/-- A text that ends with an opening parenthesis ends so in its last token. -/
theorem Ending.suffix_of_after_eq_openParen {comments : List Text} {r : Role} {t : Token}
    (h : Ending.after comments r t = openParen) : ['('] <:+ t := by
  unfold Ending.after at h
  split_ifs at h with h1 h2 h3
  exact List.isSuffixOf_iff_suffix.1 h3

/-- What the layout of a token depends on besides the token. -/
structure Place where
  /-- How many parentheses are open. -/
  depth : Nat := 0
  /-- The clause that was opened last. -/
  clause : Clause := .other
  /-- How the text before the token ends. -/
  ending : Ending := .start
  deriving DecidableEq, Repr

namespace Place

/-- The place after a token. -/
def next (comments : List Text) (p : Place) (t : Token) : Place where
  depth := (role p.clause t).depthAfter p.depth
  clause := (role p.clause t).clauseAfter p.clause
  ending := .after comments (role p.clause t) t

/-- The level of the line that is started to close a line comment. -/
def commentLevel? (p : Place) : Option Nat :=
  if p.ending = .lineComment then some (p.depth + 1) else none

/-- The levels whose indentation is asked for when a token is laid out. -/
def levels (p : Place) (t : Token) : List Nat :=
  p.commentLevel?.toList ++ ((role p.clause t).level? p.depth).toList

/-- The page on which a token is laid out: after a line comment, a line is started. -/
def opened (m : Text) (p : Place) (page : Page) : Page :=
  if p.ending = .lineComment then page.startLine m else page

/-- The page after a token whose levels fit. -/
def put (o : Options) (p : Place) (t : Token) (page : Page) : Page :=
  (role p.clause t).put (o.margin? ((role p.clause t).level? p.depth)) t
    (p.opened (o.margin? p.commentLevel?) page)

/-- The state of the layout at a place, with what has been written so far. -/
def state (p : Place) (page : Page) : State where
  page := page
  depth := p.depth
  clause := p.clause
  commentOpen := p.ending = .lineComment

end Place

variable {o : Options} {comments : List Text} {p : Place} {t : Token}

/-- The indentation of the line that a token starts; none is asked for if it starts no line. -/
def indent? (o : Options) : Option Nat → Except Fault Text
  | none => .ok []
  | some level => o.indent level

/-- Writing a token asks for one indentation at most, and does the rest whatever it is. -/
theorem emit_eq (o : Options) (t : Token) (st : State) :
    emit o t st = (indent? o ((role st.clause t).level? st.depth)).map fun m =>
      { st with
        page := (role st.clause t).put m t st.page
        depth := (role st.clause t).depthAfter st.depth
        clause := (role st.clause t).clauseAfter st.clause } := by
  -- the roles that start a line ask for its indentation first; the others write without asking
  cases hrole : role st.clause t with
  | opener clause =>
    simp only [emit, hrole, newLine, Role.level?, indent?]
    cases o.indent st.depth <;> rfl
  | listComma =>
    simp only [emit, hrole, newLine, Role.level?, indent?]
    cases o.indent (st.depth + 1) <;> rfl
  | join =>
    simp only [emit, hrole, newLine, Role.level?, indent?]
    cases o.indent (st.depth + 1) <;> rfl
  | openParen => simp only [emit, hrole]; rfl
  | closeParen => simp only [emit, hrole]; rfl
  | firstItem =>
    simp only [emit, hrole, newLine, Role.level?, indent?]
    cases o.indent (st.depth + 1) <;> rfl
  | plain => simp only [emit, hrole]; rfl

/-- Closing a line comment asks for one indentation at most. -/
theorem closeComment_eq (o : Options) (p : Place) (page : Page) :
    closeComment o (p.state page) = (indent? o p.commentLevel?).map fun m =>
      { p.state (p.opened m page) with commentOpen := false } := by
  by_cases h : p.ending = .lineComment
  · have hopen : (p.state page).commentOpen = true := by simp [Place.state, h]
    rw [closeComment, if_pos hopen, newLine, Place.commentLevel?, if_pos h]
    simp only [Place.opened, if_pos h]
    simp only [indent?, Place.state]
    cases o.indent (p.depth + 1) <;> rfl
  · have hopen : ¬(p.state page).commentOpen = true := by simp [Place.state, h]
    rw [closeComment, if_neg hopen, Place.commentLevel?, if_neg h]
    simp [Place.opened, Place.state, h, indent?, Except.map, pure, Except.pure]

/-- Laying a token out asks for the indentation of its levels, and does the rest whatever they
are. -/
theorem step_eq (o : Options) (comments : List Text) (p : Place) (t : Token) (page : Page) :
    step o comments (p.state page) t =
      (indent? o p.commentLevel?).bind fun m =>
        (indent? o ((role p.clause t).level? p.depth)).map fun m' =>
          (p.next comments t).state ((role p.clause t).put m' t (p.opened m page)) := by
  rw [step, closeComment_eq]
  -- the line comment is closed first, so that its indentation fails first
  cases indent? o p.commentLevel? with
  | error e => rfl
  | ok m =>
    simp only [Except.map, bind, Except.bind]
    rw [emit_eq]
    simp only [Place.state]
    cases indent? o ((role p.clause t).level? p.depth) with
    | error e => rfl
    | ok m' => simp [Except.map, pure, Except.pure, Place.next, Ending.after_eq_lineComment_iff]

/-- A level that fits has an indentation. -/
theorem indent?_eq_ok {level : Option Nat} (h : ∀ k ∈ level, o.Fits k) :
    indent? o level = .ok (o.margin? level) := by
  cases level with
  | none => rfl
  | some k => exact Options.indent_of_fits (h k rfl)

/-- A token whose levels fit is laid out. -/
theorem step_of_fits (hfits : ∀ k ∈ p.levels t, o.Fits k) (page : Page) :
    step o comments (p.state page) t = .ok ((p.next comments t).state (p.put o t page)) := by
  simp only [Place.levels, List.mem_append, Option.mem_toList, or_imp, forall_and] at hfits
  rw [step_eq, indent?_eq_ok hfits.1, indent?_eq_ok hfits.2]
  rfl

/-- A token one of whose levels does not fit stops the layout. -/
theorem exists_step_of_not_fits {k : Nat} (hk : k ∈ p.levels t) (hfits : ¬o.Fits k) (page : Page) :
    ∃ e, step o comments (p.state page) t = .error e := by
  obtain ⟨e, he⟩ := Options.exists_indent_of_not_fits hfits
  rw [step_eq]
  simp only [Place.levels, List.mem_append, Option.mem_toList] at hk
  -- the level is that of the line comment or that of the token; in the second case the first may
  -- fail as well
  rcases hk with hk | hk
  · exact ⟨e, by rw [hk, indent?, he]; rfl⟩
  · rw [hk, indent?, he]
    cases indent? o p.commentLevel? with
    | error e' => exact ⟨e', rfl⟩
    | ok m => exact ⟨e, rfl⟩

namespace Place

/-- The place after tokens. -/
def after (comments : List Text) (p : Place) (ts : List Token) : Place := ts.foldl (next comments) p

/-- The levels whose indentation is asked for when tokens are laid out. -/
def allLevels (comments : List Text) : Place → List Token → List Nat
  | _, [] => []
  | p, t :: ts => p.levels t ++ allLevels comments (p.next comments t) ts

@[simp] theorem after_nil (comments : List Text) (p : Place) : p.after comments [] = p := rfl

@[simp] theorem after_cons (comments : List Text) (p : Place) (t : Token) (ts : List Token) :
    p.after comments (t :: ts) = (p.next comments t).after comments ts := rfl

/-- The place after tokens can be found in two stages. -/
theorem after_append (comments : List Text) (p : Place) (ts us : List Token) :
    p.after comments (ts ++ us) = (p.after comments ts).after comments us :=
  List.foldl_append

/-- The levels of tokens in two stages are those of each stage. -/
theorem allLevels_append (comments : List Text) (p : Place) (ts us : List Token) :
    p.allLevels comments (ts ++ us) =
      p.allLevels comments ts ++ (p.after comments ts).allLevels comments us := by
  induction ts generalizing p with
  | nil => rfl
  | cons t ts ih => simp [allLevels, ih]

/-- The levels of several tokens are those of each of them, in the place where it comes. -/
theorem mem_allLevels_iff {comments : List Text} {p : Place} {ts : List Token} {k : Nat} :
    k ∈ p.allLevels comments ts ↔
      ∃ before t rest, ts = before ++ t :: rest ∧ k ∈ (p.after comments before).levels t := by
  constructor
  · intro hk
    -- by where the level is asked for
    induction ts generalizing p with
    | nil => simp [allLevels] at hk
    | cons t ts ih =>
      rcases List.mem_append.1 hk with hk | hk
      · exact ⟨[], t, ts, rfl, hk⟩
      · obtain ⟨before, u, rest, rfl, hu⟩ := ih hk
        exact ⟨t :: before, u, rest, rfl, hu⟩
  · rintro ⟨before, t, rest, rfl, hk⟩
    rw [allLevels_append]
    exact List.mem_append_right _ (List.mem_append_left _ hk)

/-- The page after tokens whose levels fit. -/
def putAll (o : Options) (comments : List Text) : Place → List Token → Page → Page
  | _, [], page => page
  | p, t :: ts, page => putAll o comments (p.next comments t) ts (p.put o t page)

end Place

/-- Tokens whose levels fit are laid out. -/
theorem run_of_fits {ts : List Token} (hfits : ∀ k ∈ p.allLevels comments ts, o.Fits k)
    (page : Page) :
    run o comments (p.state page) ts =
      .ok ((p.after comments ts).state (p.putAll o comments ts page)) := by
  -- the invariant is that the state is that of a place with some page
  induction ts generalizing p page with
  | nil => rfl
  | cons t ts ih =>
    simp only [Place.allLevels, List.mem_append, or_imp, forall_and] at hfits
    simp only [run, List.foldlM_cons, step_of_fits hfits.1, bind, Except.bind]
    exact ih hfits.2 _

/-- Tokens one of whose levels does not fit stop the layout. -/
theorem exists_run_of_not_fits {ts : List Token} {k : Nat} (hk : k ∈ p.allLevels comments ts)
    (hfits : ¬o.Fits k) (page : Page) : ∃ e, run o comments (p.state page) ts = .error e := by
  induction ts generalizing p page with
  | nil => simp [Place.allLevels] at hk
  | cons t ts ih =>
    simp only [run, List.foldlM_cons]
    by_cases hstep : ∀ k ∈ p.levels t, o.Fits k
    · -- the first token is laid out, so that a later one stops the layout
      rw [step_of_fits hstep]
      rcases List.mem_append.1 hk with hk | hk
      · exact absurd (hstep k hk) hfits
      · exact ih hk _
    · obtain ⟨k', hk', hfits'⟩ : ∃ k' ∈ p.levels t, ¬o.Fits k' := by simpa using hstep
      obtain ⟨e, he⟩ : ∃ e, step o comments (p.state page) t = .error e :=
        exists_step_of_not_fits hk' hfits' page
      exact ⟨e, by rw [he]; rfl⟩

/-- The layout fails if and only if the indentation of some level does not fit.  Which levels are
asked for is known from the tokens, so that nothing about the page is left in this. -/
theorem exists_layout_eq_error_iff {ts : List Token} :
    (∃ e, layout o comments ts = .error e) ↔
      ∃ k ∈ Place.allLevels comments {} ts, ¬o.Fits k := by
  have hstate : ({} : Place).state {} = {} := rfl
  constructor
  · rintro ⟨e, he⟩
    by_contra hfits
    have hrun : run o comments (Place.state {} {}) ts = .ok _ :=
      run_of_fits (by simpa using hfits) {}
    rw [layout, ← hstate, hrun] at he
    cases he
  · rintro ⟨k, hk, hfits⟩
    obtain ⟨e, he⟩ := exists_run_of_not_fits hk hfits {}
    exact ⟨e, by rw [layout, ← hstate, he]; rfl⟩

/-- Where the layout goes well, all levels fit. -/
theorem fits_of_layout {ts : List Token} {s : Text} (h : layout o comments ts = .ok s) :
    ∀ k ∈ Place.allLevels comments {} ts, o.Fits k := by
  by_contra hfits
  obtain ⟨e, he⟩ := exists_layout_eq_error_iff.2 (by simpa using hfits)
  rw [h] at he
  cases he

end Layout
end SqlTidy
