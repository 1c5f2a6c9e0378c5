import SqlTidy.Text.Display

/-!
# Quoted spans

A quoted span opens with a quote and goes on to the next quote of the same kind that is neither
escaped by a backslash nor doubled.  Two recognisers read it.  They agree on a span that is closed,
and part ways on one that is not:

* `closing q s` reads the rest of a *complete* span; if the reading that takes every doubled quote
  as one runs off the end of the text, the last doubled quote is split and its first half closes the
  span.
* `spanLength q s` takes an unclosed span to the end of the text.

The first is what F001, `literal-preservation`, matches between quotes, with the doubled quotes of
§14 of the specification; the second is the quoted span of F004, `tokenize` (§4.2).

## Main definitions

* `isQuote c` — `c` opens a quoted span.
* `closing q s` — how many characters of `s` complete a span opened by `q`, if any do.
* `spanLength q s` — how many characters of `s` belong to a span opened by `q`.
* `spanEnd s i` — where the span opened at index `i` ends.
-/

namespace SqlTidy
namespace Text

/-- The characters that open a quoted span. -/
def isQuote (c : Char) : Bool := c == singleQuote || c == doubleQuote

/-- How many characters complete a span opened by `q`, its closing quote included; `none` if the
span cannot be completed.  This is the pattern of F001 behind its opening quote, which goes back on
a doubled quote if it has to.  A backslash takes the next character with it.  A doubled quote
belongs to the span if what follows can be completed; otherwise its first half closes the span. -/
def closing (q : Char) : Text → Option Nat
  | [] => none
  | [c] => if c = '\\' then none else if c = q then some 1 else none
  | c :: d :: r =>
    if c = '\\' then (closing q r).map (· + 2)
    else if c = q then
      if d = q then ((closing q r).map (· + 2)).or (some 1) else some 1
    else (closing q (d :: r)).map (· + 1)

/-- How many characters belong to a span opened by `q`, its closing quote included.  An unclosed
span takes all of them.  This is the loop of the tokenizer, which never goes back. -/
def spanLength (q : Char) : Text → Nat
  | [] => 0
  | [_] => 1
  | c :: d :: r =>
    if c = '\\' then spanLength q r + 2
    else if c = q then
      if d = q then spanLength q r + 2 else 1
    else spanLength q (d :: r) + 1

/-- Where the span opened by the character at index `i` ends, whatever that character is: the
function of the tokenizer that finds the end of a quoted span, for any arguments.  A negative index
counts from the end; the span then goes on from the beginning of the text, and its end is counted on
from `i`.  There is no span at an index outside the text. -/
def spanEnd (s : Text) (i : Int) : Option Int :=
  if 0 ≤ i then
    match s.drop i.toNat with
    | [] => none
    | q :: r => some (i + 1 + spanLength q r)
  else if 0 ≤ s.length + i then
    match s.drop (s.length + i).toNat with
    | [] => none
    | q :: r => some (i + 1 + spanLength q (r ++ s))
  else none

end Text
end SqlTidy
