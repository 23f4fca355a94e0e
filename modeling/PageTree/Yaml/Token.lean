import PageTree.Yaml.Cursor

/-!
# Tokens

The grammar of YAML is written in terms of tokens. Indentation makes tokens of its own: a collection in
block style has a token at its start and one at its end.

This module has the tokens and the small lexemes: the names of anchors and aliases, tags, and directives.
-/

set_option autoImplicit false

namespace PageTree.Yaml

/-- A directive: the major version of YAML, a handle for tags, or one that is ignored. -/
inductive Directive
  | version (major : Nat)
  | handle (name expansion : Text)
  | other
deriving DecidableEq

/-- A token. The handle of a tag is missing when the tag is written out. -/
inductive Token
  | streamEnd
  | directive (d : Directive)
  | documentStart
  | documentEnd
  | blockSequenceStart
  | blockMappingStart
  | blockEnd
  | flowSequenceStart
  | flowSequenceEnd
  | flowMappingStart
  | flowMappingEnd
  | blockEntry
  | flowEntry
  | key
  | value
  | alias (name : Text)
  | anchor (name : Text)
  | tag (handle : Option Text) (suffix : Text)
  | scalar (content : Text) (plain : Bool)
deriving DecidableEq

namespace Lexeme

/-- What may follow the name of an anchor or an alias. -/
def endsName : Text → Bool
  | [] => true
  | c :: rest => atGap (c :: rest) || (text "?:,]\x7d%@\x60").contains c

/-- The name of an anchor or an alias after its sign. -/
def name (k : Cursor) : Except YamlFault (Text × Cursor) :=
  let k := k.skip 1
  let found := k.rest.takeWhile isNamePoint
  let after := k.skip found.length
  if found ≠ [] && endsName after.rest then .ok (found, after) else .error .malformed

/-- The code points of a tag. A percent sign starts an escape. -/
def isTagPoint (c : CodePoint) : Bool :=
  c.isLetter || c.isDigit || (text "-;/?:@&=+$,_.!~*'()[]").contains c

/-- The bytes of escapes in a row, each a percent sign and two hexadecimal digits, and what follows. -/
def escapedBytes : Text → Except YamlFault (Bytes × Text)
  | [] => .ok ([], [])
  | c :: rest =>
    if c = '%' then
      match rest with
      | x :: y :: more =>
        match x.hexValue?, y.hexValue? with
        | some high, some low =>
          (escapedBytes more).map fun r => ((high * 16 + low).toUInt8 :: r.1, r.2)
        | _, _ => .error .malformed
      | _ => .error .malformed
    else .ok ([], c :: rest)

/-- The text of a tag's part and what follows. The fuel is the length of what is read. -/
def tagTextFrom : Nat → Text → Except YamlFault (Text × Text)
  | 0, s => .ok ([], s)
  | fuel + 1, s =>
    match s with
    | [] => .ok ([], [])
    | c :: rest =>
      if c = '%' then do
        let (bytes, after) ← escapedBytes (c :: rest)
        match Utf8.decode? bytes with
        | none => throw .malformed
        | some found =>
          let (more, last) ← tagTextFrom fuel after
          return (found ++ more, last)
      else if isTagPoint c then (tagTextFrom fuel rest).map fun r => (c :: r.1, r.2)
      else .ok ([], c :: rest)

/-- The text of a tag's part, which must not be empty. -/
def tagText (k : Cursor) : Except YamlFault (Text × Cursor) := do
  let (found, rest) ← tagTextFrom k.rest.length k.rest
  let after := k.skip (k.rest.length - rest.length)
  if after.mark = k.mark then throw .malformed
  return (found, after)

/-- The handle of a tag: one exclamation mark, or two with a name between them. -/
def handle (k : Cursor) : Except YamlFault (Text × Cursor) :=
  let after := k.skip 1
  let name := after.rest.takeWhile isNamePoint
  if !k.isAt '!' then .error .malformed
  else if after.isAt ' ' then .ok (text "!", after)
  else
    let closed := after.skip name.length
    if closed.isAt '!' then .ok (text "!" ++ name ++ text "!", closed.skip 1) else .error .malformed

/-- A tag: a handle, which is missing when the tag is written out between angle brackets or is a mark
alone, and a suffix. -/
def tag (k : Cursor) : Except YamlFault ((Option Text × Text) × Cursor) := do
  let inner := k.skip 1
  let ((found, suffix), after) ←
    if inner.isAt '<' then do
      let (suffix, after) ← tagText (inner.skip 1)
      if after.isAt '>' then pure ((none, suffix), after.skip 1) else throw .malformed
    else if atGap inner.rest then pure ((none, text "!"), inner)
    else
      let word := inner.rest.takeWhile fun c => c.val ≠ 0x20 && !isBreak c
      if word.contains (CodePoint.ofChar '!') then do
        let (found, afterHandle) ← handle k
        let (suffix, after) ← tagText afterHandle
        pure ((some found, suffix), after)
      else do
        let (suffix, after) ← tagText inner
        pure ((some (text "!"), suffix), after)
  if atSpace after.rest then return ((found, suffix), after)
  else throw .malformed

/-- A number in a directive. -/
def number (k : Cursor) : Except YamlFault (Nat × Cursor) :=
  let digits := k.rest.takeWhile CodePoint.isDigit
  if digits = [] then .error .malformed else .ok (Text.digitsValue digits, k.skip digits.length)

/-- The version in a directive. -/
def version (k : Cursor) : Except YamlFault (Directive × Cursor) := do
  let (major, afterMajor) ← number k.skipSpaces
  if !afterMajor.isAt '.' then throw .malformed
  let (_, after) ← number (afterMajor.skip 1)
  if atSpace after.rest then return (.version major, after) else throw .malformed

/-- The handle and its expansion in a directive. -/
def handleDirective (k : Cursor) : Except YamlFault (Directive × Cursor) := do
  let (found, afterHandle) ← handle k.skipSpaces
  if !afterHandle.isAt ' ' then throw .malformed
  let (expansion, after) ← tagText afterHandle.skipSpaces
  if atSpace after.rest then return (.handle found expansion, after) else throw .malformed

/-- A directive, from its percent sign to the end of its line. -/
def directive (k : Cursor) : Except YamlFault (Directive × Cursor) := do
  let k := k.skip 1
  let name := k.rest.takeWhile isNamePoint
  let afterName := k.skip name.length
  if name = [] || !atSpace afterName.rest then throw .malformed
  let (found, after) ←
    if name = text "YAML" then version afterName
    else if name = text "TAG" then handleDirective afterName
    else pure (Directive.other, afterName.skipWhile (!isBreak ·))
  match after.endLine? with
  | some last => return (found, last)
  | none => throw .malformed

end Lexeme

end PageTree.Yaml
