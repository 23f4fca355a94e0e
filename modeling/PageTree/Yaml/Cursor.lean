import PageTree.Fault

/-!
# The place of reading

YAML gives meaning to lines and columns. A `Mark` is a place in a document and a `Cursor` the place together
with what follows it. Line ends are the line feed, U+0085, U+2028 and U+2029; a carriage return does not
occur, because files are read with their lines unified. The byte order mark takes no column.
-/

set_option autoImplicit false

namespace PageTree.Yaml

/-- The end of a line. -/
def isBreak (c : CodePoint) : Bool :=
  c.val == 0x0A || c.val == 0x85 || c.val == 0x2028 || c.val == 0x2029

/-- The end of a line as it counts in a text: U+2028 and U+2029 stay, the others are line feeds. -/
def breakPoint (c : CodePoint) : CodePoint :=
  if c.val = 0x2028 ∨ c.val = 0x2029 then c else '\n'

/-- A space or a tab. -/
def isBlank (c : CodePoint) : Bool := c.val == 0x20 || c.val == 0x09

/-- Whether a text is at its end, at a blank or at the end of a line. -/
def atGap : Text → Bool
  | [] => true
  | c :: _ => isBlank c || isBreak c

/-- Whether a text is at its end, at a space or at the end of a line. -/
def atSpace : Text → Bool
  | [] => true
  | c :: _ => c.val == 0x20 || isBreak c

/-- Whether a text is at its end or at the end of a line. -/
def atLineEnd : Text → Bool
  | [] => true
  | c :: _ => isBreak c

/-- Whether a text starts with a mark of three code points that stands alone. -/
def startsWithMark (mark : String) (s : Text) : Bool :=
  (text mark).isPrefixOf s && atGap (s.drop 3)

/-- Whether a line starts with a mark that separates documents. -/
def atSeparator (s : Text) : Bool := startsWithMark "---" s || startsWithMark "..." s

/-- The letters, digits and signs of the names of anchors, handles and directives. -/
def isNamePoint (c : CodePoint) : Bool := c.isLetter || c.isDigit || c = '-' || c = '_'

/-- A place in a document. All counts start at zero. -/
structure Mark where
  index : Nat
  line : Nat
  column : Nat
deriving DecidableEq

/-- The start of a document. -/
def Mark.start : Mark := ⟨0, 0, 0⟩

/-- The place after a code point. -/
def Mark.pass (m : Mark) (c : CodePoint) : Mark :=
  if isBreak c then ⟨m.index + 1, m.line + 1, 0⟩
  else if c = CodePoint.byteOrderMark then ⟨m.index + 1, m.line, m.column⟩
  else ⟨m.index + 1, m.line, m.column + 1⟩

/-- A place and what follows it. -/
structure Cursor where
  mark : Mark
  rest : Text

namespace Cursor

/-- The place after some code points. -/
def skip : Nat → Cursor → Cursor
  | 0, k => k
  | _, ⟨m, []⟩ => ⟨m, []⟩
  | n + 1, ⟨m, c :: rest⟩ => skip n ⟨m.pass c, rest⟩

/-- The place after all code points of a kind. -/
def skipWhile (p : CodePoint → Bool) (k : Cursor) : Cursor := k.skip (k.rest.takeWhile p).length

/-- Whether a code point follows. -/
def isAt (c : CodePoint) (k : Cursor) : Bool := k.rest.head? == some c

/-- The start of a document. A byte order mark there is dropped. -/
def start (s : Text) : Cursor :=
  if (Cursor.mk .start s).isAt .byteOrderMark then (Cursor.mk .start s).skip 1 else ⟨.start, s⟩

/-- The place after the spaces. -/
def skipSpaces (k : Cursor) : Cursor := k.skipWhile (· == CodePoint.ofChar ' ')

/-- The end of the line, if nothing but spaces and a comment stands before it; the place after it. -/
def endLine? (k : Cursor) : Option Cursor :=
  let k := k.skipSpaces
  let k := if k.isAt '#' then k.skipWhile (!isBreak ·) else k
  if atLineEnd k.rest then some (k.skip 1) else none

/-- The place of the next token, past spaces, comments and the ends of lines, and whether a line has ended
on the way. -/
def nextToken (comment lineEnded : Bool) (m : Mark) : Text → Bool × Cursor
  | [] => (lineEnded, ⟨m, []⟩)
  | c :: rest =>
    if isBreak c then nextToken false true (m.pass c) rest
    else if comment || c = ' ' then nextToken comment lineEnded (m.pass c) rest
    else if c = '#' then nextToken true lineEnded (m.pass c) rest
    else (lineEnded, ⟨m, c :: rest⟩)

end Cursor

end PageTree.Yaml
