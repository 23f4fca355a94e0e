import PageTree.Text

/-!
# UTF-8

Files and answers are bytes, texts are code points, and UTF-8 is the bridge. Reading is one machine that
takes a byte at a time (`Utf8.step`) and yields a *piece* for each code point and one for each longest
run of bytes that starts a code point and does not end it. Two readings are views of the pieces:

* `Utf8.decode?` refuses bytes with a broken piece. Files are read so.
* `Utf8.decodeLossy` writes U+FFFD for each broken piece. Answers of the server are read so.

Writing (`Utf8.encode?`) refuses a surrogate, which has no UTF-8 form. The bounds of the second byte in
`Utf8.begin` keep overlong forms, surrogates and numbers above U+10FFFF out.
-/

set_option autoImplicit false

namespace PageTree

/-- The content of a file or of a message. -/
abbrev Bytes := List UInt8

namespace Utf8

/-- The bytes of a code point, surrogates included. -/
def unit (c : CodePoint) : Bytes :=
  let n := c.val
  if n < 0x80 then [n.toUInt8]
  else if n < 0x800 then [(0xC0 + n / 0x40).toUInt8, (0x80 + n % 0x40).toUInt8]
  else if n < 0x10000 then
    [(0xE0 + n / 0x1000).toUInt8, (0x80 + n / 0x40 % 0x40).toUInt8, (0x80 + n % 0x40).toUInt8]
  else
    [(0xF0 + n / 0x40000).toUInt8, (0x80 + n / 0x1000 % 0x40).toUInt8,
      (0x80 + n / 0x40 % 0x40).toUInt8, (0x80 + n % 0x40).toUInt8]

/-- The UTF-8 form of a text, and nothing if a surrogate stands in it. -/
def encode? (s : Text) : Option Bytes :=
  if s.hasSurrogate then none else some (s.flatMap unit)

/-- A code point that has begun: the bits read so far, how many bytes are missing, and the least and the
greatest byte that may come next. -/
structure Pending where
  bits : Nat
  missing : Nat
  least : Nat
  greatest : Nat

/-- A piece of the input: a code point, or bytes that are none. -/
abbrev Piece := Option CodePoint

/-- A byte read between code points: the pieces it completes, and what it begins. -/
def begin (b : UInt8) : List Piece × Option Pending :=
  let n := b.toNat
  if n < 0x80 then ([CodePoint.ofNat? n], none)
  else if n < 0xC2 then ([none], none)
  else if n < 0xE0 then ([], some ⟨n - 0xC0, 1, 0x80, 0xBF⟩)
  else if n = 0xE0 then ([], some ⟨0, 2, 0xA0, 0xBF⟩)
  else if n = 0xED then ([], some ⟨0xD, 2, 0x80, 0x9F⟩)
  else if n < 0xF0 then ([], some ⟨n - 0xE0, 2, 0x80, 0xBF⟩)
  else if n = 0xF0 then ([], some ⟨0, 3, 0x90, 0xBF⟩)
  else if n < 0xF4 then ([], some ⟨n - 0xF0, 3, 0x80, 0xBF⟩)
  else if n = 0xF4 then ([], some ⟨4, 3, 0x80, 0x8F⟩)
  else ([none], none)

/-- One byte. A byte that cannot continue what has begun breaks it off and is read afresh. -/
def step : Option Pending → UInt8 → List Piece × Option Pending
  | none, b => begin b
  | some p, b =>
    if p.least ≤ b.toNat ∧ b.toNat ≤ p.greatest then
      let bits := p.bits * 0x40 + (b.toNat - 0x80)
      if p.missing ≤ 1 then ([CodePoint.ofNat? bits], none)
      else ([], some ⟨bits, p.missing - 1, 0x80, 0xBF⟩)
    else (none :: (begin b).1, (begin b).2)

/-- The pieces of bytes, read from a state. What has begun and does not end is a broken piece. -/
def piecesFrom : Option Pending → Bytes → List Piece
  | none, [] => []
  | some _, [] => [none]
  | state, b :: rest => (step state b).1 ++ piecesFrom (step state b).2 rest

/-- The pieces of bytes. -/
def pieces (b : Bytes) : List Piece := piecesFrom none b

/-- The text whose UTF-8 form the bytes are, if there is one. -/
def decode? (b : Bytes) : Option Text := (pieces b).mapM id

/-- The text of bytes, with U+FFFD for each broken piece. -/
def decodeLossy (b : Bytes) : Text := (pieces b).map (·.getD CodePoint.replacement)

end Utf8

end PageTree
