import PageTree.Yaml.Token
import PageTree.Yaml.Style.Plain
import PageTree.Yaml.Style.Quoted
import PageTree.Yaml.Style.Block

/-!
# The tokens of a document

Tokens are taken one by one. What makes YAML hard to read is that a key need not be marked: only the colon
after it shows that it was one. So the place of each token that could be a key is kept as a
`PossibleKey`, at most one for each level of flow collections, and when the colon comes the tokens that
mark the key, and a mapping that starts with it, are put in before it. A possible key is given up when its
line ends or after 1024 code points; where the indentation shows that there has to be a key, that is a
fault.

A document can be at fault in its last line and yet be refused for its first one by those who read the
tokens. `TokenStream` therefore keeps the tokens that had been settled before the fault was met.
-/

set_option autoImplicit false

namespace PageTree.Yaml

/-- A token that could be a key: how many tokens precede it, whether it has to be a key, and its place. -/
structure PossibleKey where
  number : Nat
  required : Bool
  mark : Mark

/-- How far tokens have been taken. -/
structure Scanner where
  cursor : Cursor
  /-- The tokens so far, the last first. -/
  tokens : List Token
  count : Nat
  /-- How many flow collections are open. -/
  flow : Nat
  /-- The indentation of the innermost block collection, and those of the ones around it. -/
  indent : Int
  outer : List Int
  /-- Whether a key may start here. -/
  keyAllowed : Bool
  /-- The possible keys with their levels. -/
  keys : List (Nat × PossibleKey)
  done : Bool

/-- The tokens of a document, up to a fault if there is one. -/
structure TokenStream where
  tokens : List Token
  fault : Option YamlFault

namespace Scanner

/-- The start of a document. -/
def start (s : Text) : Scanner := ⟨Cursor.start s, [], 0, 0, -1, [], true, [], false⟩

/-- The column of the place of reading. -/
def column (s : Scanner) : Nat := s.cursor.mark.column

/-- Adds a token. -/
def push (t : Token) (s : Scanner) : Scanner := { s with tokens := t :: s.tokens, count := s.count + 1 }

/-- Adds a token behind which other tokens stand already. -/
def insert (number : Nat) (t : Token) (s : Scanner) : Scanner :=
  let later := s.count - number
  { s with tokens := s.tokens.take later ++ t :: s.tokens.drop later, count := s.count + 1 }

/-- Adds a token of some code points. -/
def pushSkipping (n : Nat) (t : Token) (s : Scanner) : Scanner :=
  { s.push t with cursor := s.cursor.skip n }

/-- Ends the block collections that are indented more deeply than a column. -/
def unwindTo (column : Int) : List Int → Scanner → Scanner
  | [], s => s
  | outer :: more, s =>
    if s.indent > column then
      unwindTo column more { s.push .blockEnd with indent := outer, outer := more }
    else s

/-- Ends the block collections that are indented more deeply than a column. Inside a flow collection
indentation says nothing. -/
def unwind (column : Int) (s : Scanner) : Scanner :=
  if s.flow = 0 then unwindTo column s.outer s else s

/-- Whether a block collection starts at a column. -/
def startsBlock (column : Nat) (s : Scanner) : Bool := s.indent < column

/-- Starts a block collection at a column. -/
def indentTo (column : Nat) (s : Scanner) : Scanner :=
  { s with indent := column, outer := s.indent :: s.outer }

/-! ## Possible keys -/

/-- Whether a possible key is too far behind. -/
def isStale (s : Scanner) (key : PossibleKey) : Bool :=
  key.mark.line != s.cursor.mark.line || key.mark.index + 1024 < s.cursor.mark.index

/-- Gives up the possible keys that are too far behind. -/
def dropStale (s : Scanner) : Except YamlFault Scanner :=
  if s.keys.any fun k => s.isStale k.2 && k.2.required then .error .malformed
  else .ok { s with keys := s.keys.filter fun k => !s.isStale k.2 }

/-- Gives up the possible key of the current level. -/
def dropKey (s : Scanner) : Except YamlFault Scanner :=
  if s.keys.any fun k => k.1 == s.flow && k.2.required then .error .malformed
  else .ok { s with keys := s.keys.filter fun k => k.1 != s.flow }

/-- Keeps the next token as a possible key, where a key may start. -/
def saveKey (s : Scanner) : Except YamlFault Scanner :=
  if s.keyAllowed then do
    let required := s.flow = 0 ∧ s.indent = s.column
    let s ← s.dropKey
    return { s with keys := (s.flow, ⟨s.count, required, s.cursor.mark⟩) :: s.keys }
  else .ok s

/-- Where the settled tokens end: a possible key that may still be needed settles nothing after it. -/
def settled (s : Scanner) : Nat :=
  (s.keys.filter fun k => !s.isStale k.2).foldl (fun n k => min n k.2.number) s.count

/-! ## Tokens -/

/-- The end of the document. -/
def takeEnd (s : Scanner) : Except YamlFault Scanner := do
  let s ← (s.unwind (-1)).dropKey
  return { s.push .streamEnd with keyAllowed := false, keys := [], done := true }

/-- A directive. -/
def takeDirective (s : Scanner) : Except YamlFault Scanner := do
  let s ← (s.unwind (-1)).dropKey
  let (d, cursor) ← Lexeme.directive s.cursor
  return { s.push (.directive d) with keyAllowed := false, cursor }

/-- A mark that starts or ends a document. -/
def takeMark (t : Token) (s : Scanner) : Except YamlFault Scanner := do
  let s ← (s.unwind (-1)).dropKey
  return { s.pushSkipping 3 t with keyAllowed := false }

/-- The start of a flow collection. -/
def takeFlowStart (t : Token) (s : Scanner) : Except YamlFault Scanner := do
  let s ← s.saveKey
  return { s.pushSkipping 1 t with flow := s.flow + 1, keyAllowed := true }

/-- The end of a flow collection. -/
def takeFlowEnd (t : Token) (s : Scanner) : Except YamlFault Scanner := do
  let s ← s.dropKey
  return { s.pushSkipping 1 t with flow := s.flow - 1, keyAllowed := false }

/-- A comma in a flow collection. -/
def takeFlowEntry (s : Scanner) : Except YamlFault Scanner := do
  let s ← s.dropKey
  return { s.pushSkipping 1 .flowEntry with keyAllowed := true }

/-- Starts a block collection here, if one starts, where a key may start. -/
def openBlock (t : Token) (s : Scanner) : Except YamlFault Scanner :=
  if s.flow ≠ 0 then .ok s
  else if !s.keyAllowed then .error .malformed
  else if s.startsBlock s.column then .ok ((s.push t).indentTo s.column)
  else .ok s

/-- The hyphen before an entry of a block sequence. -/
def takeBlockEntry (s : Scanner) : Except YamlFault Scanner := do
  let s ← s.openBlock .blockSequenceStart
  let s ← s.dropKey
  return { s.pushSkipping 1 .blockEntry with keyAllowed := true }

/-- The question mark before a key. -/
def takeKey (s : Scanner) : Except YamlFault Scanner := do
  let s ← s.openBlock .blockMappingStart
  let s ← s.dropKey
  return { s.pushSkipping 1 .key with keyAllowed := s.flow = 0 }

/-- The colon after a possible key, which it shows to be one. -/
def takeValueOf (key : PossibleKey) (s : Scanner) : Scanner :=
  let s := { s with keys := s.keys.filter fun k => k.1 != s.flow, keyAllowed := false }
  let column := key.mark.column
  let s := s.insert key.number .key
  let s :=
    if s.flow = 0 && s.startsBlock column then
      (s.insert key.number .blockMappingStart).indentTo column
    else s
  s.pushSkipping 1 .value

/-- The colon before a value. -/
def takeValue (s : Scanner) : Except YamlFault Scanner :=
  match s.keys.find? (·.1 == s.flow) with
  | some (_, key) => .ok (s.takeValueOf key)
  | none => do
    let s ← s.openBlock .blockMappingStart
    let s ← s.dropKey
    return { s.pushSkipping 1 .value with keyAllowed := s.flow = 0 }

/-- The name of an anchor or an alias. -/
def takeName (make : Text → Token) (s : Scanner) : Except YamlFault Scanner := do
  let s ← s.saveKey
  let (name, cursor) ← Lexeme.name s.cursor
  return { s.push (make name) with keyAllowed := false, cursor }

/-- A tag. -/
def takeTag (s : Scanner) : Except YamlFault Scanner := do
  let s ← s.saveKey
  let ((handle, suffix), cursor) ← Lexeme.tag s.cursor
  return { s.push (.tag handle suffix) with keyAllowed := false, cursor }

/-- A block scalar. -/
def takeBlockScalar (folded : Bool) (s : Scanner) : Except YamlFault Scanner := do
  let s ← s.dropKey
  let afterSign := s.cursor.skip 1
  let (header, length) ← Block.header folded afterSign.rest
  match (afterSign.skip length).endLine? with
  | none => throw .malformed
  | some body =>
    let least := (max (s.indent + 1) 1).toNat
    let place := match header.depth with
      | none => Block.Place.search 0
      | some depth => .between (least + depth - 1)
    let (content, cursor) := Block.read header least [] ⟨[], false⟩ [] place body.mark body.rest
    return { s.push (.scalar content false) with keyAllowed := true, cursor }

/-- A quoted scalar. -/
def takeQuoted (double : Bool) (s : Scanner) : Except YamlFault Scanner := do
  let s ← s.saveKey
  let inner := s.cursor.skip 1
  let (content, cursor) ← Quoted.read double [] .inside inner.mark inner.rest
  return { s.push (.scalar content false) with keyAllowed := false, cursor }

/-- A plain scalar. -/
def takePlain (s : Scanner) : Except YamlFault Scanner := do
  let s ← s.saveKey
  let indent := (s.indent + 1).toNat
  let found := Plain.read (s.flow ≠ 0) indent [] .word s.cursor.mark s.cursor.rest
  return { s.push (.scalar found.value true) with keyAllowed := found.lineEnded, cursor := found.cursor }

/-- The signs that no plain scalar starts with, unless it may for what follows. -/
def isIndicator (c : CodePoint) : Bool :=
  isBlank c || isBreak c || (text "-?:,[]\x7b\x7d#&*!|>'\"%@\x60").contains c

/-- Whether a plain scalar starts with a code point, the text after it being given. -/
def startsPlain (flow : Bool) (c : CodePoint) (rest : Text) : Bool :=
  !isIndicator c || (!atGap rest && (c = '-' || (!flow && (c = '?' || c = ':'))))

/-- The next token, which starts with a code point, the text after it being given. -/
def takeToken (s : Scanner) (c : CodePoint) (rest : Text) : Except YamlFault Scanner :=
  let flow := s.flow ≠ 0
  if c = '%' && s.column = 0 then s.takeDirective
  else if s.column = 0 && startsWithMark "---" (c :: rest) then s.takeMark .documentStart
  else if s.column = 0 && startsWithMark "..." (c :: rest) then s.takeMark .documentEnd
  else if c = '[' then s.takeFlowStart .flowSequenceStart
  else if c = '\x7b' then s.takeFlowStart .flowMappingStart
  else if c = ']' then s.takeFlowEnd .flowSequenceEnd
  else if c = '\x7d' then s.takeFlowEnd .flowMappingEnd
  else if c = ',' then s.takeFlowEntry
  else if c = '-' && atGap rest then s.takeBlockEntry
  else if c = '?' && (flow || atGap rest) then s.takeKey
  else if c = ':' && (flow || atGap rest) then s.takeValue
  else if c = '*' then s.takeName .alias
  else if c = '&' then s.takeName .anchor
  else if c = '!' then s.takeTag
  else if c = '|' && !flow then s.takeBlockScalar false
  else if c = '>' && !flow then s.takeBlockScalar true
  else if c = '\'' then s.takeQuoted false
  else if c = '"' then s.takeQuoted true
  else if startsPlain flow c rest then s.takePlain
  else .error .malformed

/-- The place of the next token. In block style a key may start in every line. -/
def approach (s : Scanner) : Scanner :=
  let (lineEnded, cursor) := Cursor.nextToken false false s.cursor.mark s.cursor.rest
  { s with cursor, keyAllowed := s.keyAllowed || (lineEnded && s.flow = 0) }

/-- Takes the next token. -/
def next (s : Scanner) : Except YamlFault Scanner := do
  let s ← s.approach.dropStale
  let s := s.unwind s.column
  match s.cursor.rest with
  | [] => s.takeEnd
  | c :: rest => s.takeToken c rest

/-- Takes all the tokens that are left. The fuel is more than the length of the document. -/
def finish : Nat → Scanner → TokenStream
  | 0, s => ⟨s.tokens.reverse, some .malformed⟩
  | fuel + 1, s =>
    match s.next with
    | .error fault => ⟨s.tokens.reverse.take s.settled, some fault⟩
    | .ok after => if after.done then ⟨after.tokens.reverse, none⟩ else finish fuel after

end Scanner

/-- The tokens of a document. -/
def TokenStream.ofText (s : Text) : TokenStream := Scanner.finish (s.length + 2) (Scanner.start s)

end PageTree.Yaml
