import SqlTidy.Text.Printable

/-!
# Quoted display of texts

How a text is shown inside a message: between quotes, with everything that would not print shown by
an escape.  Single quotes are used unless the text holds single quotes and no double ones.

## Main definitions

* `displayQuote s` — the quote that encloses the display of `s`.
* `displayChar q c` — how `c` is shown between quotes `q`.
* `display s` — the quoted display of a text.
-/

namespace SqlTidy
namespace Text

/-- The single quote. -/
def singleQuote : Char := '\x27'

/-- The double quote. -/
def doubleQuote : Char := '\x22'

/-- The quote that encloses the display of a text. -/
def displayQuote (s : Text) : Char :=
  if s.contains singleQuote && !s.contains doubleQuote then doubleQuote else singleQuote

/-- `n` in hexadecimal notation with at least `width` digits. -/
def hex (width n : Nat) : Text :=
  let digits := Nat.toDigits 16 n
  List.replicate (width - digits.length) '0' ++ digits

/-- The code of a character that does not print, in as many digits as it needs. -/
def displayCode (n : Nat) : Text :=
  if n < 0x100 then '\\' :: 'x' :: hex 2 n
  else if n < 0x10000 then '\\' :: 'u' :: hex 4 n
  else '\\' :: 'U' :: hex 8 n

/-- How a character is shown between quotes `q`. -/
def displayChar (q c : Char) : Text :=
  if c = q || c = '\\' then ['\\', c]
  else if c = '\t' then ['\\', 't']
  else if c = '\n' then ['\\', 'n']
  else if c = '\r' then ['\\', 'r']
  else if isPrintable c then [c]
  else displayCode c.toNat

/-- The quoted display of a text. -/
def display (s : Text) : Text :=
  let q := displayQuote s
  q :: s.flatMap (displayChar q) ++ [q]

end Text
end SqlTidy
