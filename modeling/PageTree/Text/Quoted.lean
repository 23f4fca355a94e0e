import PageTree.Text.Printable

/-!
# Quoted words

A message quotes the word it complains about. The quotation marks are single, or double if the word holds
a single mark and no double one. A backslash, the mark in use, line feed, carriage return and tab are
escaped by a backslash, and each other code point that is not printable by its number in two, four or
eight hexadecimal digits.
-/

set_option autoImplicit false

namespace PageTree.Text

/-- The low `width` hexadecimal digits of a number. -/
def hexDigits : Nat → Nat → Text
  | 0, _ => []
  | width + 1, n => hexDigits width (n / 16) ++ [CodePoint.hexDigit (n % 16)]

/-- A code point inside quotation marks. -/
def quotedPoint (mark c : CodePoint) : Text :=
  if c = '\\' ∨ c = mark then ['\\', c]
  else if c = '\n' then text "\\n"
  else if c = '\r' then text "\\r"
  else if c = '\t' then text "\\t"
  else if c.isPrintable then [c]
  else if c.val < 0x100 then text "\\x" ++ hexDigits 2 c.val
  else if c.val < 0x10000 then text "\\u" ++ hexDigits 4 c.val
  else text "\\U" ++ hexDigits 8 c.val

/-- The quotation mark of a word. -/
def quotationMark (s : Text) : CodePoint :=
  if s.contains (CodePoint.ofChar '\'') && !s.contains (CodePoint.ofChar '"') then '"' else '\''

/-- A word in quotation marks. -/
def quoted (s : Text) : Text :=
  let mark := quotationMark s
  mark :: s.flatMap (quotedPoint mark) ++ [mark]

/-- A list of words in quotation marks. -/
def quotedList (words : List Text) : Text :=
  text "[" ++ join (text ", ") (words.map quoted) ++ text "]"

end PageTree.Text
