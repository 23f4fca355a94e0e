import PageTree.Utf8

/-!
# Base 64

Three bytes are written as four digits of six bits. A group that is not full is filled up with zero bits,
and `=` stands for each digit that would hold none of its bits. `decode?` accepts exactly such texts of
whole groups. `isTolerated` is the looser test of text that mail programs pass on, where whatever is no
digit is skipped.
-/

set_option autoImplicit false

namespace PageTree.Base64

/-- The digit of a number below 64: the capital letters, the small letters, `0` to `9`, `+` and `/`. -/
def digit (n : Nat) : CodePoint :=
  if n < 26 then Char.ofNat ('A'.toNat + n)
  else if n < 52 then Char.ofNat ('a'.toNat + (n - 26))
  else if n < 62 then Char.ofNat ('0'.toNat + (n - 52))
  else if n = 62 then '+'
  else '/'

/-- The number of a digit. -/
def digitValue? (c : CodePoint) : Option Nat :=
  if 'A'.toNat ≤ c.val ∧ c.val ≤ 'Z'.toNat then some (c.val - 'A'.toNat)
  else if 'a'.toNat ≤ c.val ∧ c.val ≤ 'z'.toNat then some (c.val - 'a'.toNat + 26)
  else if c.isDigit then some (c.val - '0'.toNat + 52)
  else if c = '+' then some 62
  else if c = '/' then some 63
  else none

/-- The digits of bytes, in groups of four. -/
def encode : Bytes → Text
  | [] => []
  | [a] => [digit (a.toNat / 4), digit (a.toNat % 4 * 16), '=', '=']
  | [a, b] =>
    [digit (a.toNat / 4), digit (a.toNat % 4 * 16 + b.toNat / 16), digit (b.toNat % 16 * 4), '=']
  | a :: b :: c :: rest =>
    digit (a.toNat / 4) :: digit (a.toNat % 4 * 16 + b.toNat / 16) ::
      digit (b.toNat % 16 * 4 + c.toNat / 64) :: digit (c.toNat % 64) :: encode rest

/-- The bytes that groups of digits stand for. -/
def decode? : Text → Option Bytes
  | [] => some []
  | p :: q :: r :: s :: rest => do
    let a ← digitValue? p
    let b ← digitValue? q
    let first := (a * 4 + b / 16).toUInt8
    if r = '=' ∧ s = '=' ∧ rest = [] then
      return [first]
    else
      let c ← digitValue? r
      let second := (b % 16 * 16 + c / 4).toUInt8
      if s = '=' ∧ rest = [] then
        return [first, second]
      else
        let d ← digitValue? s
        let others ← decode? rest
        return first :: second :: (c % 4 * 64 + d).toUInt8 :: others
  | _ => none

/-- Whether digits form whole groups when all else but padding is skipped: `filled` digits of a group have
been read and then `padding` signs. A group of two or three digits that its padding completes ends the
text. -/
def isToleratedFrom (filled padding : Nat) : Text → Bool
  | [] => filled == 0
  | c :: s =>
    if c = '=' then
      if 2 ≤ filled ∧ 4 ≤ filled + padding + 1 then true
      else isToleratedFrom filled (if 2 ≤ filled then padding + 1 else padding) s
    else
      match digitValue? c with
      | none => isToleratedFrom filled padding s
      | some _ => isToleratedFrom ((filled + 1) % 4) 0 s

/-- Whether digits form whole groups when all else is skipped. -/
def isTolerated (s : Text) : Bool := isToleratedFrom 0 0 s

end PageTree.Base64
