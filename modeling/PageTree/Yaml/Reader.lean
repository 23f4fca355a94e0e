import PageTree.Yaml.Document
import PageTree.Base64

/-!
# Reading YAML

The value of a document is made from its nodes. What can go wrong is looked for level by level: the scalars
of a collection when the collection is opened, the collections in it after all others of its level. So of
two faults the one that is less deep in the document is the one that is reported.

A mapping may take over the entries of other mappings under the key `<<`; its own entries come after them
and win. A key of a mapping must not be a collection. Keys that are no texts cannot be asked for, and are
left out of the value.
-/

set_option autoImplicit false

namespace PageTree.Yaml

/-- What a document may hold besides line feeds: no control codes, no surrogates, no codes that stand for
nothing. -/
def isAllowed (c : CodePoint) : Bool :=
  c.val == 0x09 || c.val == 0x0A || c.val == 0x0D || (0x20 ≤ c.val && c.val ≤ 0x7E) || c.val == 0x85 ||
    (0xA0 ≤ c.val && c.val ≤ 0xD7FF) || (0xE000 ≤ c.val && c.val ≤ 0xFFFD) || 0x10000 ≤ c.val

namespace Node

/-! ## Merging -/

/-- A key whose tag is the sign `=`, as the text that it is. -/
def plainKey : Node → Node
  | .scalar .value content => .scalar .text content
  | n => n

mutual

/-- The entries of a mapping after those that it takes over, which come first. -/
def merged : List (Node × Node) → Except YamlFault (List (Node × Node) × List (Node × Node))
  | [] => .ok ([], [])
  | (k, v) :: rest =>
    if k.tag = .merge then do
      let taken ← takenFrom v
      let (more, own) ← merged rest
      return (taken ++ more, own)
    else do
      let (more, own) ← merged rest
      return (more, (k.plainKey, v) :: own)

/-- The entries that a mapping gives away. -/
def givenBy : Node → Except YamlFault (List (Node × Node))
  | .mapping _ _ entries => do
    let (taken, own) ← merged entries
    return taken ++ own
  | .enclosing _ => .ok []
  | _ => .error .malformed

/-- The entries that are taken over from a mapping or a sequence of mappings, the first of which wins. -/
def takenFrom : Node → Except YamlFault (List (Node × Node))
  | .sequence _ _ items => takenFromAll items
  | .mapping _ _ entries => do
    let (taken, own) ← merged entries
    return taken ++ own
  | .enclosing _ => .ok []
  | _ => .error .malformed

/-- The entries that are taken over from a sequence of mappings. -/
def takenFromAll : List Node → Except YamlFault (List (Node × Node))
  | [] => .ok []
  | n :: rest => do
    let first ← givenBy n
    let others ← takenFromAll rest
    return others ++ first

end

/-- All entries of a mapping: those that it takes over, and its own. -/
def allEntries (entries : List (Node × Node)) : Except YamlFault (List (Node × Node)) := do
  let (taken, own) ← merged entries
  return taken ++ own

/-! ## Scalars -/

mutual

/-- The text of a scalar. A mapping with the key `=` stands for the scalar under it. -/
def content : Node → Except YamlFault Text
  | .scalar _ s => .ok s
  | .mapping _ _ entries => contentOf entries
  | _ => .error .malformed

/-- The text of the scalar under the key `=`. -/
def contentOf : List (Node × Node) → Except YamlFault Text
  | [] => .error .malformed
  | (k, v) :: rest => if k.tag = .value then content v else contentOf rest

end

/-- The truth value of a word. -/
def truthOf (s : Text) : Except YamlFault Bool :=
  let word := Text.lower s
  if [text "yes", text "true", text "on"].contains word then .ok true
  else if [text "no", text "false", text "off"].contains word then .ok false
  else .error (.unknownWord word)

/-- The date or the time of a text. -/
def timeOf (s : Text) : Except YamlFault Foreign :=
  match Timestamp.ofText? s with
  | none => .error .badTimestamp
  | some t =>
    if !t.isPossible then .error .badNumber
    else .ok (if t.time.isSome then .datetime else .date)

/-- Whether a text holds bytes in base 64. -/
def isBinary (s : Text) : Bool := s.all CodePoint.isAscii && Base64.isTolerated s

/-- The value of a text whose tag is not that of a collection. -/
def scalarOf (tag : Tag) (s : Text) : Except YamlFault Value :=
  match tag with
  | .null => .ok .null
  | .bool => (truthOf s).map .bool
  | .int => (Number.readInt s).map .int
  | .float => (Number.checkFloat s).map fun _ => .foreign .real
  | .binary => if isBinary s then .ok (.foreign .bytes) else .error .malformed
  | .timestamp => (timeOf s).map .foreign
  | .text => .ok (.str s)
  | _ => .error .malformed

/-- The value of a node whose tag is not that of a collection. A time has to be a scalar itself: it is not
looked for under the key `=`. -/
def scalarValue (n : Node) : Except YamlFault Value :=
  match n.tag, n with
  | .timestamp, .mapping _ _ entries => (contentOf entries).bind fun _ => .error .timestampNotScalar
  | tag, n => n.content.bind (scalarOf tag)

/-! ## Faults -/

/-- What is wrong with a node when the collection around it is opened. -/
def check (n : Node) : Except YamlFault Unit :=
  if n.tag.isMutable then .ok () else n.scalarValue.map fun _ => ()

/-- What is wrong with an entry of a mapping when the mapping is opened. -/
def checkEntry (e : Node × Node) : Except YamlFault Unit := do
  check e.1
  if e.1.tag.isMutable then throw .malformed
  check e.2

/-- The only entry of a mapping that stands for a pair. -/
def pair : Node → Except YamlFault (Node × Node)
  | .mapping _ _ [e] => .ok e
  | _ => .error .malformed

/-- Opens one of the mappings that stand for pairs. -/
def openPair (n : Node) : Except YamlFault (List Node) := do
  let e ← n.pair
  check e.1
  check e.2
  return [e.1, e.2]

/-- Opens pairs one after the other. -/
def openPairs : List Node → Except YamlFault (List Node)
  | [] => .ok []
  | n :: rest => do
    let first ← openPair n
    let others ← openPairs rest
    return first ++ others

/-- Checks nodes one after the other. -/
def checkAll : List Node → Except YamlFault Unit
  | [] => .ok ()
  | n :: rest => do
    check n
    checkAll rest

/-- Checks entries one after the other. -/
def checkEntries : List (Node × Node) → Except YamlFault Unit
  | [] => .ok ()
  | e :: rest => do
    checkEntry e
    checkEntries rest

/-- Opens a node: what is in a collection, and nothing in a scalar. -/
def opened (n : Node) : Except YamlFault (List Node) :=
  match n.tag, n with
  | .seq, .sequence _ _ items => (checkAll items).map fun _ => items
  | .map, .mapping _ _ entries => do
    let entries ← allEntries entries
    checkEntries entries
    return entries.map (·.2)
  | .set, .mapping _ _ entries => do
    let entries ← allEntries entries
    checkEntries entries
    return entries.map (·.2)
  | .omap, .sequence _ _ items => openPairs items
  | .pairs, .sequence _ _ items => openPairs items
  | _, .enclosing _ => .ok []
  | tag, _ => if tag.isMutable then .error .malformed else .ok []

/-- Opens nodes one after the other. -/
def openAll : List Node → Except YamlFault (List Node)
  | [] => .ok []
  | n :: rest => do
    let first ← n.opened
    let others ← openAll rest
    return first ++ others

/-- Opens level after level. The fuel is the height of the nodes. -/
def openLevels : Nat → List Node → Except YamlFault Unit
  | 0, _ => .ok ()
  | fuel + 1, ns =>
    if ns.isEmpty then .ok ()
    else do
      let inner ← openAll ns
      openLevels fuel inner

/-! ## Values -/

/-- The value of a mapping that stands for a pair, when it is known what its nodes stand for. -/
def pairValue (valueOf : Node → Value) (n : Node) : Value :=
  match n.pair with
  | .ok (k, v) => .foreign (.tuple (Value.texts [valueOf k, valueOf v]))
  | .error _ => .null

/-- The member that a key and a value make, if the key is a text. -/
def member? (k v : Value) : Option (Text × Value) := k.asText?.map fun s => (s, v)

/-- The value of a node in which nothing is wrong. The fuel is the height of the node. -/
def valueWithin : Nat → Node → Value
  | 0, _ => .null
  | fuel + 1, n =>
    let entriesOf (entries : List (Node × Node)) : List (Value × Value) :=
      match allEntries entries with
      | .ok all => all.map fun e => (valueWithin fuel e.1, valueWithin fuel e.2)
      | .error _ => []
    match n.tag, n with
    | .seq, .sequence _ _ items => .array (items.map (valueWithin fuel))
    | .map, .mapping _ _ entries =>
      .object (Members.ofList ((entriesOf entries).filterMap fun e => member? e.1 e.2))
    | .set, .mapping _ _ entries => .foreign (.set (Value.texts ((entriesOf entries).map (·.1))))
    | .omap, .sequence _ _ items => .array (items.map (pairValue (valueWithin fuel)))
    | .pairs, .sequence _ _ items => .array (items.map (pairValue (valueWithin fuel)))
    | _, n =>
      match n.scalarValue with
      | .ok v => v
      | .error _ => .null

/-- The value of a node. -/
def toValue (n : Node) : Except YamlFault Value := do
  check n
  openLevels n.height [n]
  return valueWithin n.height n

end Node

/-- The value of a YAML text. An empty text stands for null. -/
def read (s : Text) : Except YamlFault Value :=
  if !s.all isAllowed then .error .malformed
  else
    match Document.ofText s with
    | .error fault => .error fault
    | .ok none => .ok .null
    | .ok (some n) => n.toValue

end PageTree.Yaml
