import PageTree.Yaml.Cursor

/-!
# Numbers

An integer is written in base two, eight, ten or sixteen, or in base sixty with colons between the digits. A
floating-point number has a point. Low lines in a number count for nothing. The form of a plain scalar
decides whether it is a number; a scalar with a tag may have any form, and `Number.readInt` and
`Number.checkFloat` then say what is wrong with it.
-/

set_option autoImplicit false

namespace PageTree.Yaml.Number

/-! ## The form of plain numbers -/

/-- The text without a sign. -/
def unsigned : Text → Text
  | [] => []
  | c :: s => if c = '+' ∨ c = '-' then s else c :: s

/-- A low line or a digit. -/
def isDigitOrLine (c : CodePoint) : Bool := c.isDigit || c = '_'

/-- A digit, and then digits and low lines. -/
def isDigits : Text → Bool
  | [] => false
  | c :: s => c.isDigit && s.all isDigitOrLine

/-- A number below sixty, in one or two digits. -/
def isSixtieth (s : Text) : Bool :=
  match s with
  | [c] => c.isDigit
  | [c, d] => c.isDigit && c.val ≤ '5'.toNat && d.isDigit
  | _ => false

/-- Digits of base sixty, the first of which has the form of a given kind. -/
def isSexagesimal (first : Text → Bool) (s : Text) : Bool :=
  match Text.splitAll ':' s with
  | part :: next :: more => first part && isSixtieth next && more.all isSixtieth
  | _ => false

/-- A digit other than zero, and then digits and low lines. -/
def isPositive (s : Text) : Bool := isDigits s && s.head? != some (CodePoint.ofChar '0')

/-- A base's mark, and then at least one of its digits. -/
def isBased (mark : String) (isPoint : CodePoint → Bool) (s : Text) : Bool :=
  (text mark).isPrefixOf s && (text mark).length < s.length &&
    (s.drop (text mark).length).all fun c => isPoint c || c = '_'

/-- Whether a plain scalar is an integer. -/
def isInt (s : Text) : Bool :=
  let s := unsigned s
  isBased "0b" (fun c => c = '0' ∨ c = '1') s ||
    isBased "0" (fun c => c.isDigit && c.val ≤ '7'.toNat) s ||
    s = text "0" || isPositive s ||
    isBased "0x" (fun c => c.hexValue?.isSome) s ||
    isSexagesimal isPositive s

/-- An exponent with its sign, or nothing. -/
def isExponent : Text → Bool
  | [] => true
  | e :: sign :: digits =>
    (e = 'e' ∨ e = 'E') && (sign = '+' ∨ sign = '-') && digits ≠ [] && digits.all CodePoint.isDigit
  | _ => false

/-- Digits and low lines, and then an exponent or nothing. -/
def isFraction (s : Text) : Bool := isExponent (s.dropWhile isDigitOrLine)

/-- Whether a plain scalar is a floating-point number. -/
def isFloat (s : Text) : Bool :=
  let u := unsigned s
  match Text.cut '.' u with
  | (whole, some fraction) =>
    (isDigits whole && isFraction fraction) ||
      (isSexagesimal isDigits whole && fraction.all isDigitOrLine) ||
      (whole = [] && ([text "inf", text "Inf", text "INF"].contains fraction ||
        (u = s && ([text "nan", text "NaN", text "NAN"].contains fraction ||
          (isDigits (fraction.take 1) && isFraction fraction)))))
  | (_, none) => false

/-! ## The value of numbers -/

/-- How many decimal digits a number may have. -/
def longestDecimal : Nat := 4300

/-- The value of digits in a base. -/
def digits? (base : Nat) (s : Text) : Option Nat :=
  if s = [] then none
  else
    s.foldl (fun n c => do
      let n ← n
      let d ← c.hexValue?
      if d < base then some (n * base + d) else none) (some 0)

/-- The text without the mark of a base. -/
def dropBaseMark (base : Nat) (s : Text) : Text :=
  let marks :=
    if base = 2 then [text "0b", text "0B"]
    else if base = 8 then [text "0o", text "0O"]
    else if base = 16 then [text "0x", text "0X"]
    else []
  if marks.contains (s.take 2) then s.drop 2 else s

/-- The integer that is spelled in a base, blanks around it, a sign and the mark of the base being
allowed. -/
def spelled (base : Nat) (s : Text) : Except YamlFault Int :=
  let (negative, rest) := Binary64.cutSign (Binary64.plainSpelling s)
  if base = 10 && rest.length > longestDecimal then .error .badNumber
  else
    match digits? base (dropBaseMark base rest) with
    | none => .error .badNumber
    | some n => .ok (if negative then -n else n)

/-- The text without low lines. -/
def dropLines (s : Text) : Text := s.filter (· != CodePoint.ofChar '_')

/-- The integer whose digits of base sixty are spelled one by one. -/
def sexagesimal (parts : List Text) : Except YamlFault Int := do
  let digits ← parts.mapM (spelled 10)
  return digits.foldl (fun n d => n * 60 + d) 0

/-- The integer that a text without low lines and without a sign spells. -/
def readUnsigned : Text → Except YamlFault Int
  | [] => .error .noDigits
  | c :: s =>
    let whole := c :: s
    if whole = text "0" then .ok 0
    else if (text "0b").isPrefixOf whole then spelled 2 (whole.drop 2)
    else if (text "0x").isPrefixOf whole then spelled 16 (whole.drop 2)
    else if c = '0' then spelled 8 whole
    else if whole.contains (CodePoint.ofChar ':') then sexagesimal (Text.splitAll ':' whole)
    else spelled 10 whole

/-- The integer that a text spells. -/
def readInt (s : Text) : Except YamlFault Int :=
  match dropLines s with
  | [] => .error .noDigits
  | c :: rest =>
    if c = '-' then (readUnsigned rest).map (- ·)
    else if c = '+' then readUnsigned rest
    else readUnsigned (c :: rest)

/-- The greatest number of digits of base sixty whose place values are floating-point numbers. -/
def mostSixtieths : Nat := 174

/-- What is wrong with a text as a floating-point number without a sign. -/
def checkUnsignedFloat (s : Text) : Except YamlFault Unit :=
  if s = text ".inf" ∨ s = text ".nan" then .ok ()
  else
    let parts := if s.contains (CodePoint.ofChar ':') then Text.splitAll ':' s else [s]
    if parts.any fun part => (Binary64.read? part).isNone then .error .badNumber
    else if parts.length > mostSixtieths then .error .numberTooLarge
    else .ok ()

/-- What is wrong with a text as a floating-point number. -/
def checkFloat (s : Text) : Except YamlFault Unit :=
  match Text.lower (dropLines s) with
  | [] => .error .noDigits
  | c :: rest => checkUnsignedFloat (if c = '-' ∨ c = '+' then rest else c :: rest)

end PageTree.Yaml.Number
