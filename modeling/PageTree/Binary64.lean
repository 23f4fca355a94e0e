import PageTree.Text.Lowercase
import PageTree.Text.DecimalDigit

/-!
# Binary floating-point numbers

A JSON number with a fraction or an exponent is kept as a binary number of 64 bits: an integer below 2^53
times a power of two. `ofRatio` rounds a quotient of natural numbers to the nearest such number, to the
even one of two; everything that reads a decimal goes through it. `shortest` is the way back: the fewest
decimal digits that read back as the number, and among those the nearest to it.

A `DecimalStyle` holds what two printers of numbers decide differently, `render` what they share.
-/

set_option autoImplicit false

namespace PageTree

/-- A binary floating-point number of 64 bits. A finite number is `mantissa * 2 ^ exponent`. -/
inductive Binary64
  | finite (negative : Bool) (mantissa : Nat) (exponent : Int)
  | infinite (negative : Bool)
  | nan
deriving DecidableEq

namespace Binary64

/-- The exponent of the finest numbers. -/
def leastExponent : Int := -1074

/-- The exponent of the largest numbers. -/
def greatestExponent : Int := 971

/-- The quotient `num / den` over `2 ^ e`, again as a quotient. -/
def scaleByTwo (num den : Nat) (e : Int) : Nat × Nat :=
  if e < 0 then (num * Nat.pow 2 e.natAbs, den) else (num, den * Nat.pow 2 e.natAbs)

/-- The quotient `num / den` over `10 ^ k`, again as a quotient. -/
def scaleByTen (num den : Nat) (k : Int) : Nat × Nat :=
  if k < 0 then (num * Nat.pow 10 k.natAbs, den) else (num, den * Nat.pow 10 k.natAbs)

/-- The nearest integer to a quotient, and the even one of two that are equally near. -/
def roundHalfEven (num den : Nat) : Nat :=
  let q := num / den
  let r := num % den
  if 2 * r > den ∨ (2 * r = den ∧ q % 2 = 1) then q + 1 else q

/-- The number nearest to the quotient `num / den`. -/
def ofRatio (negative : Bool) (num den : Nat) : Binary64 :=
  if num = 0 then .finite negative 0 leastExponent
  else
    let estimate : Int := (Nat.log2 num : Int) - Nat.log2 den - 52
    let atEstimate := scaleByTwo num den estimate
    let fitted := if atEstimate.1 < Nat.pow 2 52 * atEstimate.2 then estimate - 1 else estimate
    let e := max fitted leastExponent
    let scaled := scaleByTwo num den e
    let m := roundHalfEven scaled.1 scaled.2
    let carried := if m = Nat.pow 2 53 then (Nat.pow 2 52, e + 1) else (m, e)
    if carried.2 > greatestExponent then .infinite negative
    else .finite negative carried.1 carried.2

/-- How many decimal digits a number has. -/
def decimalLength (n : Nat) : Nat := if n < 10 then 1 else decimalLength (n / 10) + 1

/-- The number nearest to `digits * 10 ^ k`. Beyond the orders that a finite number can have the power
itself is not computed. -/
def ofDecimal (negative : Bool) (digits : Nat) (k : Int) : Binary64 :=
  let order : Int := decimalLength digits + k
  if digits = 0 ∨ order < -330 then .finite negative 0 leastExponent
  else if order > 310 then .infinite negative
  else if k < 0 then ofRatio negative digits (Nat.pow 10 k.natAbs)
  else ofRatio negative (digits * Nat.pow 10 k.natAbs) 1

/-- The number `m * 2 ^ e` as a quotient. -/
def ratio (m : Nat) (e : Int) : Nat × Nat :=
  if e < 0 then (m, Nat.pow 2 e.natAbs) else (m * Nat.pow 2 e.natAbs, 1)

/-- The order of a positive quotient: the least `n` with `num / den < 10 ^ n`. -/
def decimalOrder (num den : Nat) : Int :=
  let n : Int := (decimalLength num : Int) - decimalLength den
  let scaled := scaleByTen num den n
  if scaled.1 < scaled.2 then n else n + 1

/-- Whether a decimal reads back as the finite number `m * 2 ^ e`. -/
def readsBack (m : Nat) (e : Int) (digits : Nat) (k : Int) : Bool :=
  ofDecimal false digits k == .finite false m e

/-- The better of the two neighbours of `m * 2 ^ e` among the multiples of `10 ^ k`, if one reads back. -/
def neighbour? (m : Nat) (e : Int) (k : Int) : Option Nat :=
  let v := ratio m e
  let scaled := scaleByTen v.1 v.2 k
  let low := scaled.1 / scaled.2
  let nearest := roundHalfEven scaled.1 scaled.2
  if readsBack m e nearest k then some nearest
  else if readsBack m e low k then some low
  else if readsBack m e (low + 1) k then some (low + 1)
  else none

/-- The first number of digits, from `17 - more` on, that suffices to read back. -/
def shortestFrom (m : Nat) (e : Int) (order : Int) : Nat → Nat × Int
  | 0 =>
    let v := ratio m e
    let scaled := scaleByTen v.1 v.2 (order - 17)
    (roundHalfEven scaled.1 scaled.2, order - 17)
  | more + 1 =>
    let k := order - (17 - (more + 1) : Nat)
    match neighbour? m e k with
    | some d => (d, k)
    | none => shortestFrom m e order more

/-- The digits without the zeros at their end, and the power of ten that remains. The fuel is the number
of digits. -/
def dropZeros : Nat → Nat → Int → Nat × Int
  | 0, d, k => (d, k)
  | fuel + 1, d, k => if d % 10 = 0 ∧ d ≠ 0 then dropZeros fuel (d / 10) (k + 1) else (d, k)

/-- The shortest decimal `d * 10 ^ k` that reads back as `m * 2 ^ e`. -/
def shortest (m : Nat) (e : Int) : Nat × Int :=
  let v := ratio m e
  let found := shortestFrom m e (decimalOrder v.1 v.2) 16
  dropZeros (decimalLength found.1) found.1 found.2

/-- The decisions of a printer of numbers. -/
structure DecimalStyle where
  /-- Numbers below `10 ^ leastOrder` are written with an exponent, as those from `10 ^ 16` on are. -/
  leastOrder : Int
  /-- The least number of digits in an exponent. -/
  exponentWidth : Nat

/-- The JSON printer writes positionally from 0.00001 on, and exponents as short as they are. -/
def jsonStyle : DecimalStyle := ⟨-5, 1⟩

/-- Plain text writes positionally from 0.0001 on, and exponents with two digits at least. -/
def plainStyle : DecimalStyle := ⟨-4, 2⟩

/-- A row of zeros. -/
def zeros (n : Nat) : Text := List.replicate n (CodePoint.digit 0)

/-- Digits with the decimal point after the first `order` of them. -/
def positional (digits : Text) (order : Int) : Text :=
  if order ≤ 0 then text "0." ++ zeros order.natAbs ++ digits
  else if order < digits.length then
    digits.take order.natAbs ++ text "." ++ digits.drop order.natAbs
  else digits ++ zeros (order.natAbs - digits.length) ++ text ".0"

/-- Digits with the decimal point after the first of them, and the exponent that makes up for it. -/
def scientific (style : DecimalStyle) (digits : Text) (order : Int) : Text :=
  let x := order - 1
  let size := Text.ofNat x.natAbs
  digits.take 1 ++ (if digits.length ≤ 1 then [] else text "." ++ digits.drop 1) ++
    text (if x < 0 then "e-" else "e+") ++
    zeros (style.exponentWidth - size.length) ++ size

/-- The text of a number. -/
def render (style : DecimalStyle) : Binary64 → Text
  | .nan => text "nan"
  | .infinite negative => text (if negative then "-inf" else "inf")
  | .finite negative m e =>
    let sign := text (if negative then "-" else "")
    if m = 0 then sign ++ text "0.0"
    else
      let found := shortest m e
      let digits := Text.ofNat found.1
      let order := found.2 + digits.length
      sign ++
        if style.leastOrder < order ∧ order ≤ 16 then positional digits order
        else scientific style digits order

/-- Whether a finite number is an integer, and which. -/
def toInt? : Binary64 → Option Int
  | .finite negative m e =>
    let v := ratio m e
    if v.1 % v.2 = 0 then
      some (if negative then -(v.1 / v.2 : Int) else (v.1 / v.2 : Int))
    else none
  | _ => none

/-- The white space of ASCII. -/
def isAsciiSpace (c : CodePoint) : Bool := (0x09 ≤ c.val && c.val ≤ 0x0D) || c.val == 0x20

/-- A spelled number as plain ASCII: digits of other scripts become `0` to `9`, and all kinds of blanks
become spaces. A text of ASCII alone stays as it is. The blanks at both ends are dropped. -/
def plainSpelling (s : Text) : Text :=
  let plain : Text :=
    if s.all CodePoint.isAscii then s
    else s.map fun c =>
      if c.isAscii && !c.isBlank then c
      else if c.isBlank then CodePoint.ofChar ' '
      else
        match c.decimalValue? with
        | some d => CodePoint.digit d
        | none => CodePoint.ofChar '?'
  ((plain.dropWhile isAsciiSpace).reverse.dropWhile isAsciiSpace).reverse

/-- The sign of a spelled number, and what follows it. -/
def cutSign : Text → Bool × Text
  | [] => (false, [])
  | c :: s => if c = '-' then (true, s) else if c = '+' then (false, s) else (false, c :: s)

/-- The exponent that ends a spelled number. -/
def readExponent? : Text → Option Int
  | [] => some 0
  | c :: s =>
    if c = 'e' ∨ c = 'E' then
      let (negative, digits) := cutSign s
      if digits ≠ [] ∧ digits.all CodePoint.isDigit then
        let n : Int := Text.digitsValue digits
        some (if negative then -n else n)
      else none
    else none

/-- The number that a text spells: digits with a point and an exponent, `inf`, `infinity` or `nan`. -/
def read? (s : Text) : Option Binary64 :=
  let (negative, unsigned) := cutSign (plainSpelling s)
  let word := Text.lower unsigned
  if word = text "inf" ∨ word = text "infinity" then some (.infinite negative)
  else if word = text "nan" then some .nan
  else
    let whole := unsigned.takeWhile CodePoint.isDigit
    let afterWhole := unsigned.dropWhile CodePoint.isDigit
    let (fraction, afterFraction) : Text × Text :=
      match afterWhole with
      | c :: s =>
        if c = '.' then (s.takeWhile CodePoint.isDigit, s.dropWhile CodePoint.isDigit)
        else ([], c :: s)
      | [] => ([], [])
    if whole = [] ∧ fraction = [] then none
    else
      (readExponent? afterFraction).map fun x =>
        ofDecimal negative (Text.digitsValue (whole ++ fraction)) (x - fraction.length)

end Binary64

end PageTree
