import SqlTidy.Text.Blank
import SqlTidy.Text.Quoted
import SqlTidy.Text.Upper

/-!
# Tokens

A text splits into quoted spans, punctuation marks and words.  A word is a run of characters that
are neither blank nor quote nor punctuation, as long as possible; blanks only separate.  These are
the tokens of §3 of the specification, and the rules of §4.2 that F004, `tokenize`, follows.

## Main definitions

* `Token` — the text of a token.
* `isPunctuation c` — `c` is one of the four marks `(`, `)`, `,` and `;`.
* `isPlain c` — `c` can stand in a word.
* `tokenize s` — the tokens of a text.
* `Token.upper`, `Token.isMark` — the upper-case form of a token; whether it is a punctuation mark.
-/

namespace SqlTidy

/-- A token, given by its text. -/
abbrev Token := Text

/-- The four punctuation marks. -/
def isPunctuation (c : Char) : Bool := c == '(' || c == ')' || c == ',' || c == ';'

/-- The characters of a word. -/
def isPlain (c : Char) : Bool := !Text.isBlank c && !Text.isQuote c && !isPunctuation c

/-- The tokens of a text, in order.  No text is refused: a quoted span that is not closed is a token
that takes all the rest (§7). -/
def tokenize (s : Text) : List Token :=
  match s with
  | [] => []
  | c :: r =>
    if Text.isQuote c then
      (c :: r.take (Text.spanLength c r)) :: tokenize (r.drop (Text.spanLength c r))
    else if Text.isBlank c then tokenize r
    else if isPunctuation c then [c] :: tokenize r
    else (c :: r.takeWhile isPlain) :: tokenize (r.dropWhile isPlain)
termination_by s.length
decreasing_by
  · simp only [List.length_drop, List.length_cons]
    omega
  · simp
  · simp
  · exact Nat.lt_succ_of_le (List.dropWhile_suffix isPlain).length_le

namespace Token

/-- The upper-case form of a token, by which keywords are known. -/
def upper (t : Token) : Text := Text.upper t

/-- Whether a token is a punctuation mark. -/
def isMark : Token → Bool
  | [c] => isPunctuation c
  | _ => false

end Token

@[simp] theorem tokenize_nil : tokenize [] = [] := by rw [tokenize]

theorem tokenize_quote {c : Char} (r : Text) (h : Text.isQuote c = true) :
    tokenize (c :: r) =
      (c :: r.take (Text.spanLength c r)) :: tokenize (r.drop (Text.spanLength c r)) := by
  rw [tokenize, if_pos h]

theorem tokenize_blank {c : Char} (r : Text) (h : Text.isQuote c = false)
    (hb : Text.isBlank c = true) : tokenize (c :: r) = tokenize r := by
  rw [tokenize, if_neg (by simp [h]), if_pos hb]

theorem tokenize_mark {c : Char} (r : Text) (h : Text.isQuote c = false)
    (hb : Text.isBlank c = false) (hp : isPunctuation c = true) :
    tokenize (c :: r) = [c] :: tokenize r := by
  rw [tokenize, if_neg (by simp [h]), if_neg (by simp [hb]), if_pos hp]

theorem tokenize_word {c : Char} (r : Text) (h : isPlain c = true) :
    tokenize (c :: r) = (c :: r.takeWhile isPlain) :: tokenize (r.dropWhile isPlain) := by
  simp only [isPlain, Bool.and_eq_true, Bool.not_eq_true'] at h
  rw [tokenize, if_neg (by simp [h]), if_neg (by simp [h]), if_neg (by simp [h])]

end SqlTidy
