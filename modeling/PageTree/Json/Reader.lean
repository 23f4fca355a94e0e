import PageTree.Value

/-!
# Reading JSON

The reader is a machine that takes one code point at a time. Its state holds the arrays and objects that
are open around the place of reading, innermost first, and what is being read there (`Reading`). A blank
between two tokens leaves the state as it is, so the four kinds of blanks are interchangeable, and a
number ends at the first code point that cannot continue it, which is then read afresh.

Two dialects are read. Metadata files are held to the standard; the answers of a server are read more
leniently. `Dialect` lists the differences.
-/

set_option autoImplicit false

namespace PageTree.Json

/-- What one reader of JSON admits and another refuses. -/
structure Dialect where
  /-- Whether the words `NaN`, `Infinity` and `-Infinity` are numbers, and whether a number may be too
  large for a floating-point number and then counts as infinite. -/
  admitsInfinite : Bool
  /-- Whether an escape may stand for a surrogate without its partner. -/
  admitsLoneSurrogates : Bool
  /-- Whether an integer beyond 64 bits stays an integer. It becomes a floating-point number otherwise. -/
  keepsLargeIntegers : Bool

/-- The dialect of metadata files. -/
def strict : Dialect := ⟨false, false, false⟩

/-- The dialect of answers. -/
def lenient : Dialect := ⟨true, true, true⟩

/-- The white space of JSON: space, tab, line feed and carriage return. -/
def isSpace (c : CodePoint) : Bool := c.val == 0x20 || c.val == 0x09 || c.val == 0x0A || c.val == 0x0D

/-- The integers that fit in 64 bits, with or without a sign. -/
def fits64 (n : Int) : Bool := -0x8000000000000000 ≤ n && n < 0x10000000000000000

/-! ## Numbers -/

/-- The parts of a number, named for what was read last. -/
inductive NumberPart
  | sign
  | zero
  | whole
  | point
  | fraction
  | exponentMark
  | exponentSign
  | exponent
deriving DecidableEq

/-- How a code point continues a number. -/
def NumberPart.next? (part : NumberPart) (c : CodePoint) : Option NumberPart :=
  let digit := c.isDigit
  let isPoint := c = '.'
  let isMark := c = 'e' ∨ c = 'E'
  match part with
  | .sign => if c = '0' then some .zero else if digit then some .whole else none
  | .zero => if isPoint then some .point else if isMark then some .exponentMark else none
  | .whole =>
    if digit then some .whole else if isPoint then some .point
    else if isMark then some .exponentMark else none
  | .point => if digit then some .fraction else none
  | .fraction => if digit then some .fraction else if isMark then some .exponentMark else none
  | .exponentMark =>
    if digit then some .exponent else if c = '+' ∨ c = '-' then some .exponentSign else none
  | .exponentSign => if digit then some .exponent else none
  | .exponent => if digit then some .exponent else none

/-- The integer that a sign and digits spell. -/
def integerOf (spelling : Text) : Int :=
  let (negative, digits) := Binary64.cutSign spelling
  if negative then -(Text.digitsValue digits : Int) else Text.digitsValue digits

/-- A floating-point number, unless it is infinite and the dialect refuses that. -/
def floatOf? (d : Dialect) (spelling : Text) : Option Value :=
  match Binary64.read? spelling with
  | some (.infinite negative) =>
    if d.admitsInfinite then some (.float (.infinite negative)) else none
  | some x => some (.float x)
  | none => none

/-- The number that a spelling ends as, if it may end with this part. -/
def numberOf? (d : Dialect) (part : NumberPart) (spelling : Text) : Option Value :=
  match part with
  | .zero | .whole =>
    let n := integerOf spelling
    if d.keepsLargeIntegers || fits64 n then some (.int n) else floatOf? d spelling
  | .fraction | .exponent => floatOf? d spelling
  | _ => none

/-! ## The state -/

/-- An array or an object around the place of reading: its items so far, the last first, or its members
so far and the key whose value is being read. -/
inductive Frame
  | array (items : List Value)
  | object (members : Members) (key : Text)

/-- The place of a string: it is a value, or the next key of an object. -/
inductive Place
  | value
  | key (members : Members)

/-- How far an escape inside a string has been read. -/
inductive Escape
  | outside
  | backslash
  | hex (missing value : Nat)

/-- What is read at the current place. Spellings are kept in reverse. -/
inductive Reading
  | value
  | firstItem
  | firstKey
  | nextKey (members : Members)
  | colon (members : Members) (key : Text)
  | string (place : Place) (soFar : Text) (escape : Escape)
  | word (rest : Text) (v : Value)
  | number (part : NumberPart) (soFar : Text)
  | after (v : Value)

/-- The state of the reader. -/
structure State where
  frames : List Frame
  reading : Reading

/-- At the start nothing is open and a value is expected. -/
def start : State := ⟨[], .value⟩

/-! ## Steps -/

/-- The code point that a letter after a backslash stands for. -/
def escaped? (c : CodePoint) : Option CodePoint :=
  if c = '"' ∨ c = '\\' ∨ c = '/' then some c
  else if c = 'b' then some ⟨0x08, by decide⟩
  else if c = 'f' then some ⟨0x0C, by decide⟩
  else if c = 'n' then some '\n'
  else if c = 'r' then some '\r'
  else if c = 't' then some '\t'
  else none

/-- Adds the code point of a numeric escape to what was read, which is in reverse. The two halves of a
surrogate pair become one code point. -/
def addUnit (n : Nat) (soFar : Text) : Option Text := do
  let c ← CodePoint.ofNat? n
  match soFar with
  | high :: rest =>
    if high.isHighSurrogate ∧ c.isLowSurrogate then
      let joined ← CodePoint.ofNat? (0x10000 + (high.val - 0xD800) * 0x400 + (n - 0xDC00))
      return joined :: rest
    else return c :: soFar
  | [] => return [c]

/-- What follows a string: after a key comes a colon. -/
def endString (d : Dialect) (place : Place) (soFar : Text) : Option Reading :=
  let s : Text := soFar.reverse
  if !d.admitsLoneSurrogates && s.hasSurrogate then none
  else
    match place with
    | .value => some (.after (.str s))
    | .key members => some (.colon members s)

/-- A code point inside a string. -/
def inString (d : Dialect) (place : Place) (soFar : Text) (c : CodePoint) : Escape → Option Reading
  | .outside =>
    if c = '"' then endString d place soFar
    else if c = '\\' then some (.string place soFar .backslash)
    else if c.val < 0x20 then none
    else some (.string place (c :: soFar) .outside)
  | .backslash =>
    if c = 'u' then some (.string place soFar (.hex 4 0))
    else (escaped? c).map fun e => .string place (e :: soFar) .outside
  | .hex missing value => do
    let h ← c.hexValue?
    let n := value * 16 + h
    if missing ≤ 1 then
      let s ← addUnit n soFar
      return .string place s .outside
    else return .string place soFar (.hex (missing - 1) n)

/-- The first code point of a value. -/
def beginValue (d : Dialect) (frames : List Frame) (c : CodePoint) : Option State :=
  if c = '"' then some ⟨frames, .string .value [] .outside⟩
  else if c = '[' then some ⟨.array [] :: frames, .firstItem⟩
  else if c = '{' then some ⟨frames, .firstKey⟩
  else if c = 'n' then some ⟨frames, .word (text "ull") .null⟩
  else if c = 't' then some ⟨frames, .word (text "rue") (.bool true)⟩
  else if c = 'f' then some ⟨frames, .word (text "alse") (.bool false)⟩
  else if c = '-' then some ⟨frames, .number .sign [c]⟩
  else if c = '0' then some ⟨frames, .number .zero [c]⟩
  else if c.isDigit then some ⟨frames, .number .whole [c]⟩
  else if d.admitsInfinite && c = 'N' then some ⟨frames, .word (text "aN") (.float .nan)⟩
  else if d.admitsInfinite && c = 'I' then
    some ⟨frames, .word (text "nfinity") (.float (.infinite false))⟩
  else none

/-- A code point that is no blank after a value: a comma or the end of what is open. -/
def afterValue (v : Value) (c : CodePoint) : List Frame → Option State
  | .array items :: frames =>
    if c = ',' then some ⟨.array (v :: items) :: frames, .value⟩
    else if c = ']' then some ⟨frames, .after (.array (v :: items).reverse)⟩
    else none
  | .object members key :: frames =>
    if c = ',' then some ⟨frames, .nextKey (Members.set key v members)⟩
    else if c = '}' then some ⟨frames, .after (.object (Members.set key v members))⟩
    else none
  | [] => none

/-- A code point after a value. -/
def stepAfter (frames : List Frame) (v : Value) (c : CodePoint) : Option State :=
  if isSpace c then some ⟨frames, .after v⟩ else afterValue v c frames

/-- One step of the reader. -/
def step (d : Dialect) (s : State) (c : CodePoint) : Option State :=
  match s.reading with
  | .value => if isSpace c then some s else beginValue d s.frames c
  | .firstItem =>
    if isSpace c then some s
    else if c = ']' then some ⟨s.frames.tail, .after (.array [])⟩
    else beginValue d s.frames c
  | .firstKey =>
    if isSpace c then some s
    else if c = '}' then some ⟨s.frames, .after (.object [])⟩
    else if c = '"' then some ⟨s.frames, .string (.key []) [] .outside⟩
    else none
  | .nextKey members =>
    if isSpace c then some s
    else if c = '"' then some ⟨s.frames, .string (.key members) [] .outside⟩
    else none
  | .colon members key =>
    if isSpace c then some s
    else if c = ':' then some ⟨.object members key :: s.frames, .value⟩
    else none
  | .string place soFar escape => (inString d place soFar c escape).map fun r => ⟨s.frames, r⟩
  | .word rest v =>
    match rest with
    | [] => stepAfter s.frames v c
    | [x] => if c = x then some ⟨s.frames, .after v⟩ else none
    | x :: more => if c = x then some ⟨s.frames, .word more v⟩ else none
  | .number part soFar =>
    match part.next? c with
    | some next => some ⟨s.frames, .number next (c :: soFar)⟩
    | none =>
      if d.admitsInfinite && part == .sign && c = 'I' then
        some ⟨s.frames, .word (text "nfinity") (.float (.infinite true))⟩
      else
        match numberOf? d part soFar.reverse with
        | some v => stepAfter s.frames v c
        | none => none
  | .after v => stepAfter s.frames v c

/-- The steps of a text, from a state on. -/
def run (d : Dialect) : State → Text → Option State
  | s, [] => some s
  | s, c :: rest =>
    match step d s c with
    | some next => run d next rest
    | none => none

/-- The value that has been read when the text ends, if nothing is open. -/
def finish (d : Dialect) (s : State) : Option Value :=
  match s.frames, s.reading with
  | [], .after v => some v
  | [], .number part soFar => numberOf? d part soFar.reverse
  | _, _ => none

/-- The value of a JSON text. -/
def read? (d : Dialect) (s : Text) : Option Value :=
  match run d start s with
  | some last => finish d last
  | none => none

end PageTree.Json
