/-!
# Text

A page tree is made of texts: titles, paths, identifiers, markup. A text is a list of Unicode code
points. Surrogates are code points too, and an escape in a metadata file or in an answer of the server
can put one into a text on its own, so `CodePoint` is wider than `Char`.

`text` turns a string literal into a text. The remaining functions are the few questions that the other
modules ask: is a text blank, where does a separator stand, what are its lines.
-/

set_option autoImplicit false

namespace PageTree

/-- A Unicode code point, surrogates included. -/
structure CodePoint where
  /-- The number of the code point. -/
  val : Nat
  isLt : val < 0x110000
deriving DecidableEq

/-- A text is a list of code points. -/
abbrev Text := List CodePoint

namespace CodePoint

/-- The number of a character lies within the range of code points. -/
theorem val_lt_of_char (c : Char) : c.toNat < 0x110000 := by
  have h := c.valid
  simp only [UInt32.isValidChar, Nat.isValidChar] at h
  have e : c.toNat = c.val.toNat := rfl
  omega

/-- The code point of a character. -/
def ofChar (c : Char) : CodePoint := ⟨c.toNat, val_lt_of_char c⟩

instance : Coe Char CodePoint := ⟨ofChar⟩

/-- The code point with a number, if there is one. -/
def ofNat? (n : Nat) : Option CodePoint :=
  if h : n < 0x110000 then some ⟨n, h⟩ else none

/-- A code point is that of its number. -/
theorem ofNat?_val (c : CodePoint) : ofNat? c.val = some c := by
  simp [ofNat?, c.isLt]

/-- The mark U+FFFD that stands for what cannot be decoded. -/
def replacement : CodePoint := ⟨0xFFFD, by decide⟩

/-- The byte order mark U+FEFF. -/
def byteOrderMark : CodePoint := ⟨0xFEFF, by decide⟩

/-- Surrogates are the code points U+D800 to U+DFFF. They are halves of pairs and no characters. -/
def isSurrogate (c : CodePoint) : Bool := 0xD800 ≤ c.val && c.val ≤ 0xDFFF

/-- The first half of a surrogate pair. -/
def isHighSurrogate (c : CodePoint) : Bool := 0xD800 ≤ c.val && c.val ≤ 0xDBFF

/-- The second half of a surrogate pair. -/
def isLowSurrogate (c : CodePoint) : Bool := 0xDC00 ≤ c.val && c.val ≤ 0xDFFF

/-- The character of a code point, and the replacement mark for a surrogate. -/
def toChar (c : CodePoint) : Char := if c.isSurrogate then '\uFFFD' else Char.ofNat c.val

/-- The code points U+0000 to U+007F. -/
def isAscii (c : CodePoint) : Bool := c.val < 0x80

/-- The digits `0` to `9`. -/
def isDigit (c : CodePoint) : Bool := '0'.toNat ≤ c.val && c.val ≤ '9'.toNat

/-- The letters `A` to `Z` and `a` to `z`. -/
def isLetter (c : CodePoint) : Bool :=
  ('A'.toNat ≤ c.val && c.val ≤ 'Z'.toNat) || ('a'.toNat ≤ c.val && c.val ≤ 'z'.toNat)

/-- The value of a hexadecimal digit. -/
def hexValue? (c : CodePoint) : Option Nat :=
  if c.isDigit then some (c.val - '0'.toNat)
  else if 'a'.toNat ≤ c.val ∧ c.val ≤ 'f'.toNat then some (c.val - 'a'.toNat + 10)
  else if 'A'.toNat ≤ c.val ∧ c.val ≤ 'F'.toNat then some (c.val - 'A'.toNat + 10)
  else none

/-- The digit `0` to `9` of a number below ten. -/
def digit (n : Nat) : CodePoint := Char.ofNat ('0'.toNat + n % 10)

/-- The lower-case hexadecimal digit of a number below sixteen. -/
def hexDigit (n : Nat) : CodePoint :=
  if n % 16 < 10 then digit (n % 16) else Char.ofNat ('a'.toNat + (n % 16 - 10))

/-- A blank separates words and shows nothing: the white space of Unicode, and the four separators U+001C
to U+001F. A space key, a parent page, a user name and an API key that hold only blanks count as absent. -/
def isBlank (c : CodePoint) : Bool :=
  (0x09 ≤ c.val && c.val ≤ 0x0D) || (0x1C ≤ c.val && c.val ≤ 0x20) || c.val == 0x85 || c.val == 0xA0 ||
  c.val == 0x1680 || (0x2000 ≤ c.val && c.val ≤ 0x200A) || c.val == 0x2028 || c.val == 0x2029 ||
  c.val == 0x202F || c.val == 0x205F || c.val == 0x3000

end CodePoint

/-- The text of a string. -/
def text (s : String) : Text := s.toList.map CodePoint.ofChar

namespace Text

/-- The string of a text, with the replacement mark in the place of each surrogate. -/
def toString (s : Text) : String := String.ofList (s.map CodePoint.toChar)

/-- A blank text holds no code point but blanks. The empty text is blank. -/
def isBlank (s : Text) : Bool := s.all CodePoint.isBlank

/-- Whether a surrogate stands in a text. Such a text has no UTF-8 form. -/
def hasSurrogate (s : Text) : Bool := s.any CodePoint.isSurrogate

/-- What precedes the first `c`, and what follows it if it occurs. -/
def cut (c : CodePoint) : Text → Text × Option Text
  | [] => ([], none)
  | x :: s => if x = c then ([], some s) else ((x :: (cut c s).1), (cut c s).2)

/-- What precedes the last `c`, if it occurs, and what follows it. -/
def cutLast (c : CodePoint) (s : Text) : Option Text × Text :=
  match cut c s.reverse with
  | (tail, none) => (none, tail.reverse)
  | (tail, some front) => (some front.reverse, tail.reverse)

/-- The pieces between the occurrences of `c`. There is always one piece. -/
def splitAll (c : CodePoint) : Text → List Text
  | [] => [[]]
  | x :: s =>
    if x = c then [] :: splitAll c s
    else
      match splitAll c s with
      | [] => [[x]]
      | piece :: pieces => (x :: piece) :: pieces

/-- The pieces with a separator between them. -/
def join (separator : Text) : List Text → Text
  | [] => []
  | [s] => s
  | s :: t :: rest => s ++ separator ++ join separator (t :: rest)

/-- The text without the occurrences of `c` at its end. -/
def dropTrailing (c : CodePoint) (s : Text) : Text := (s.reverse.dropWhile (· == c)).reverse

/-- Whether `part` occurs somewhere in a text. -/
def containsText (part : Text) : Text → Bool
  | [] => part.isEmpty
  | x :: s => part.isPrefixOf (x :: s) || containsText part s

/-- The text with each line end written as one line feed: carriage return and line feed together, and a
carriage return alone, become a line feed. -/
def unifyLines : Text → Text
  | [] => []
  | x :: s =>
    if x = '\r' then
      match s with
      | [] => ['\n']
      | y :: r => if y = '\n' then '\n' :: unifyLines r else '\n' :: unifyLines (y :: r)
    else x :: unifyLines s

/-- The decimal digits of a number. -/
def ofNat (n : Nat) : Text :=
  if n < 10 then [CodePoint.digit n] else ofNat (n / 10) ++ [CodePoint.digit (n % 10)]

/-- The decimal digits of an integer, after a minus sign if it is negative. -/
def ofInt : Int → Text
  | .ofNat n => ofNat n
  | .negSucc n => '-' :: ofNat (n + 1)

/-- The number that decimal digits spell. Other code points count as the digit zero. -/
def digitsValue (s : Text) : Nat := s.foldl (fun n c => 10 * n + (c.val - '0'.toNat)) 0

end Text

end PageTree
