import PageTree.Yaml.Node
import PageTree.Yaml.TokenStream

/-!
# Documents

The nodes of a document are read off its tokens. A block collection ends with a token of its own; a
sequence may also stand at the indentation of the mapping around it, and then ends with the last of its
entries. Places where a node may be left out hold an empty scalar.

Reading asks for a token only when it needs to know it, so a document that is refused for an early token is
refused for that, whatever comes later. When the tokens give out (`Refusal.starved`), the fault that ended
them is the one to report.
-/

set_option autoImplicit false

namespace PageTree.Yaml

/-- Why there is no node: the tokens are out of order, or there are too few of them. -/
inductive Refusal
  | malformed
  | starved
deriving DecidableEq

/-- What handles of tags stand for. -/
abbrev Handles := List (Text × Text)

namespace Document

/-- The handles that need no directive. -/
def standardHandles : Handles := [(text "!", text "!"), (text "!!", Tag.common)]

/-- What is left when a part of a document has been read: the tokens and the names of nodes. -/
structure Rest where
  tokens : List Token
  anchors : Anchors

/-- The anchor and the tag before a node, each missing or once, and the tokens after them. -/
structure Properties where
  anchor : Option Text
  tag : Option Text
  tokens : List Token

/-- The tag that a handle and a suffix stand for. -/
def expandTag (handles : Handles) (handle : Option Text) (suffix : Text) : Except Refusal Text :=
  match handle with
  | none => .ok suffix
  | some name =>
    match handles.find? (·.1 == name) with
    | some (_, expansion) => .ok (expansion ++ suffix)
    | none => .error .malformed

/-- The anchor and the tag before a node. They stand in either order. -/
def properties (handles : Handles) : List Token → Except Refusal Properties
  | .anchor name :: .tag handle suffix :: rest =>
    (expandTag handles handle suffix).map fun tag => ⟨some name, some tag, rest⟩
  | .anchor name :: rest => if rest = [] then .error .starved else .ok ⟨some name, none, rest⟩
  | .tag handle suffix :: .anchor name :: rest =>
    (expandTag handles handle suffix).map fun tag => ⟨some name, some tag, rest⟩
  | .tag handle suffix :: rest =>
    if rest = [] then .error .starved
    else (expandTag handles handle suffix).map fun tag => ⟨none, some tag, rest⟩
  | tokens => .ok ⟨none, none, tokens⟩

/-- Where a node stands: in a flow collection, in a block collection, or in a block mapping, where a
sequence need not be indented. -/
inductive Place
  | flow
  | block
  | blockMapping
deriving DecidableEq

/-- The tokens before which a place in a block mapping is left empty. -/
def endsBlockPart : Token → Bool
  | .key => true
  | .value => true
  | .blockEnd => true
  | _ => false

/-- The tokens before which an entry of a sequence without indentation is left empty. -/
def endsPlainEntry : Token → Bool
  | .blockEntry => true
  | t => endsBlockPart t

/-- The tokens before which an entry of an indented sequence is left empty. -/
def endsBlockEntry : Token → Bool
  | .blockEntry => true
  | .blockEnd => true
  | _ => false

/-- The tokens before which a value in a flow sequence is left empty. -/
def endsSequencePart : Token → Bool
  | .flowEntry => true
  | .flowSequenceEnd => true
  | _ => false

/-- The tokens before which a value in a flow mapping is left empty. -/
def endsMappingPart : Token → Bool
  | .flowEntry => true
  | .flowMappingEnd => true
  | _ => false

/-- Whether a token is the colon before a value. -/
def isValue : Token → Bool
  | .value => true
  | _ => false

/-- The tokens after the comma before an entry of a flow collection. The first entry has none. -/
def afterComma (first : Bool) (tokens : List Token) : Except Refusal (List Token) :=
  if first then .ok tokens
  else
    match tokens with
    | [] => .error .starved
    | .flowEntry :: rest => if rest = [] then .error .starved else .ok rest
    | _ => .error .malformed

/-- The names with the name of a node that has been read. -/
def register (anchor : Option Text) (n : Node) (rest : Rest) : Rest :=
  { rest with anchors := Node.anchored anchor n rest.anchors }

/-- The names with the name of a node that is being read. -/
def announce (anchor : Option Text) (anchors : Anchors) : Anchors :=
  match anchor with
  | some name => (name, .enclosing name) :: anchors
  | none => anchors

mutual

/-- A node. The fuel is more than twice the number of tokens. -/
def node (fuel : Nat) (handles : Handles) (place : Place) (r : Rest) : Except Refusal (Node × Rest) :=
  match fuel with
  | 0 => .error .malformed
  | fuel + 1 =>
    match r.tokens with
    | .alias name :: tokens =>
      match r.anchors.find? (·.1 == name) with
      | some (_, n) => .ok (n, ⟨tokens, r.anchors⟩)
      | none => .error .malformed
    | _ =>
      match properties handles r.tokens with
      | .error e => .error e
      | .ok p =>
        if p.tokens = [] then .error .starved
        else if r.anchors.any fun a => some a.1 == p.anchor then .error .malformed
        else content fuel handles place p r.anchors

/-- What follows the anchor and the tag of a node. -/
def content (fuel : Nat) (handles : Handles) (place : Place) (p : Properties) (anchors : Anchors) :
    Except Refusal (Node × Rest) :=
  match fuel with
  | 0 => .error .malformed
  | fuel + 1 =>
    let inner : Anchors := announce p.anchor anchors
    let sequence (items : Except Refusal (List Node × Rest)) : Except Refusal (Node × Rest) :=
      items.map fun found =>
        let n := Node.sequence p.anchor (Tag.ofCollection .seq p.tag) found.1
        (n, register p.anchor n found.2)
    let mapping (entries : Except Refusal (List (Node × Node) × Rest)) :
        Except Refusal (Node × Rest) :=
      entries.map fun found =>
        let n := Node.mapping p.anchor (Tag.ofCollection .map p.tag) found.1
        (n, register p.anchor n found.2)
    let scalar (plain : Bool) (content : Text) (tokens : List Token) : Node × Rest :=
      let n := Node.scalar (Tag.ofScalar p.tag plain content) content
      (n, register p.anchor n ⟨tokens, anchors⟩)
    match place, p.tokens with
    | _, .scalar content plain :: tokens => .ok (scalar plain content tokens)
    | _, .flowSequenceStart :: tokens => sequence (flowItems fuel handles true ⟨tokens, inner⟩)
    | _, .flowMappingStart :: tokens => mapping (flowEntries fuel handles true ⟨tokens, inner⟩)
    | .blockMapping, .blockEntry :: tokens =>
      sequence (plainItems fuel handles ⟨.blockEntry :: tokens, inner⟩)
    | .block, .blockSequenceStart :: tokens => sequence (blockItems fuel handles ⟨tokens, inner⟩)
    | .blockMapping, .blockSequenceStart :: tokens =>
      sequence (blockItems fuel handles ⟨tokens, inner⟩)
    | .block, .blockMappingStart :: tokens => mapping (blockEntries fuel handles ⟨tokens, inner⟩)
    | .blockMapping, .blockMappingStart :: tokens =>
      mapping (blockEntries fuel handles ⟨tokens, inner⟩)
    | _, tokens =>
      if p.anchor.isSome || p.tag.isSome then .ok (scalar true [] tokens) else .error .malformed

/-- A node, or an empty scalar before certain tokens. -/
def part (fuel : Nat) (handles : Handles) (place : Place) (ends : Token → Bool) (r : Rest) :
    Except Refusal (Node × Rest) :=
  match fuel with
  | 0 => .error .malformed
  | fuel + 1 =>
    match r.tokens with
    | [] => .error .starved
    | t :: _ => if ends t then .ok (Node.empty, r) else node fuel handles place r

/-- The part after a colon, or an empty scalar if there is no colon. -/
def valuePart (fuel : Nat) (handles : Handles) (place : Place) (ends : Token → Bool) (r : Rest) :
    Except Refusal (Node × Rest) :=
  match fuel with
  | 0 => .error .malformed
  | fuel + 1 =>
    match r.tokens with
    | [] => .error .starved
    | .value :: tokens => part fuel handles place ends ⟨tokens, r.anchors⟩
    | _ => .ok (Node.empty, r)

/-- The entries of an indented sequence. -/
def blockItems (fuel : Nat) (handles : Handles) (r : Rest) : Except Refusal (List Node × Rest) :=
  match fuel with
  | 0 => .error .malformed
  | fuel + 1 =>
    match r.tokens with
    | [] => .error .starved
    | .blockEntry :: tokens => do
      let (n, r) ← part fuel handles .block endsBlockEntry ⟨tokens, r.anchors⟩
      let (more, r) ← blockItems fuel handles r
      return (n :: more, r)
    | .blockEnd :: tokens => .ok ([], ⟨tokens, r.anchors⟩)
    | _ => .error .malformed

/-- The entries of a sequence that is not indented. -/
def plainItems (fuel : Nat) (handles : Handles) (r : Rest) : Except Refusal (List Node × Rest) :=
  match fuel with
  | 0 => .error .malformed
  | fuel + 1 =>
    match r.tokens with
    | [] => .error .starved
    | .blockEntry :: tokens => do
      let (n, r) ← part fuel handles .block endsPlainEntry ⟨tokens, r.anchors⟩
      let (more, r) ← plainItems fuel handles r
      return (n :: more, r)
    | _ => .ok ([], r)

/-- The entries of a block mapping. -/
def blockEntries (fuel : Nat) (handles : Handles) (r : Rest) :
    Except Refusal (List (Node × Node) × Rest) :=
  match fuel with
  | 0 => .error .malformed
  | fuel + 1 =>
    match r.tokens with
    | [] => .error .starved
    | .key :: tokens => do
      let (k, r) ← part fuel handles .blockMapping endsBlockPart ⟨tokens, r.anchors⟩
      let (v, r) ← valuePart fuel handles .blockMapping endsBlockPart r
      let (more, r) ← blockEntries fuel handles r
      return ((k, v) :: more, r)
    | .blockEnd :: tokens => .ok ([], ⟨tokens, r.anchors⟩)
    | _ => .error .malformed

/-- The entries of a flow sequence. An entry may be a key and a value, which make a mapping of their
own. -/
def flowItems (fuel : Nat) (handles : Handles) (first : Bool) (r : Rest) :
    Except Refusal (List Node × Rest) :=
  match fuel with
  | 0 => .error .malformed
  | fuel + 1 =>
    match r.tokens with
    | [] => .error .starved
    | .flowSequenceEnd :: tokens => .ok ([], ⟨tokens, r.anchors⟩)
    | _ => do
      let tokens ← afterComma first r.tokens
      match tokens with
      | .flowSequenceEnd :: tokens => return ([], ⟨tokens, r.anchors⟩)
      | .key :: tokens =>
        let (k, r) ← part fuel handles .flow (fun t => isValue t || endsSequencePart t)
          ⟨tokens, r.anchors⟩
        let (v, r) ← valuePart fuel handles .flow endsSequencePart r
        let (more, r) ← flowItems fuel handles false r
        return (.mapping none .map [(k, v)] :: more, r)
      | tokens =>
        let (n, r) ← node fuel handles .flow ⟨tokens, r.anchors⟩
        let (more, r) ← flowItems fuel handles false r
        return (n :: more, r)

/-- The entries of a flow mapping. An entry without a mark for its key has no value. -/
def flowEntries (fuel : Nat) (handles : Handles) (first : Bool) (r : Rest) :
    Except Refusal (List (Node × Node) × Rest) :=
  match fuel with
  | 0 => .error .malformed
  | fuel + 1 =>
    match r.tokens with
    | [] => .error .starved
    | .flowMappingEnd :: tokens => .ok ([], ⟨tokens, r.anchors⟩)
    | _ => do
      let tokens ← afterComma first r.tokens
      match tokens with
      | .flowMappingEnd :: tokens => return ([], ⟨tokens, r.anchors⟩)
      | .key :: tokens =>
        let (k, r) ← part fuel handles .flow (fun t => isValue t || endsMappingPart t)
          ⟨tokens, r.anchors⟩
        let (v, r) ← valuePart fuel handles .flow endsMappingPart r
        let (more, r) ← flowEntries fuel handles false r
        return ((k, v) :: more, r)
      | tokens =>
        let (k, r) ← node fuel handles .flow ⟨tokens, r.anchors⟩
        let (more, r) ← flowEntries fuel handles false r
        return ((k, Node.empty) :: more, r)

end

/-! ## The whole -/

/-- The handles that directives define, and the tokens after them. -/
def directives (seenVersion : Bool) (defined : Handles) :
    List Token → Except Refusal (Handles × List Token)
  | .directive (.version major) :: rest =>
    if seenVersion || major ≠ 1 then .error .malformed else directives true defined rest
  | .directive (.handle name expansion) :: rest =>
    if defined.any (·.1 == name) then .error .malformed
    else directives seenVersion ((name, expansion) :: defined) rest
  | .directive .other :: rest => directives seenVersion defined rest
  | tokens => .ok (defined ++ standardHandles, tokens)

/-- Whether a token ends a document or precedes one. -/
def isOutside : Token → Bool
  | .directive _ => true
  | .documentStart => true
  | .documentEnd => true
  | .streamEnd => true
  | _ => false

/-- Whether a token is a directive. -/
def isDirective : Token → Bool
  | .directive _ => true
  | _ => false

/-- Whether a token is the mark at the end of a document. -/
def isEndMark : Token → Bool
  | .documentEnd => true
  | _ => false

/-- Nothing may follow a document but marks of its end. -/
def nothingLeft (tokens : List Token) : Except Refusal Unit :=
  match tokens.dropWhile isEndMark with
  | [] => .error .starved
  | .streamEnd :: _ => .ok ()
  | tokens => if tokens.dropWhile isDirective = [] then .error .starved else .error .malformed

/-- The node of a document, and the end of the tokens after it. -/
def rooted (handles : Handles) (tokens : List Token) : Except Refusal Node := do
  let (n, r) ← node (4 * tokens.length + 4) handles .block ⟨tokens, []⟩
  nothingLeft r.tokens
  return n

/-- The node of a document that starts with its mark, perhaps after directives. -/
def marked (tokens : List Token) : Except Refusal Node := do
  let (handles, tokens) ← directives false [] tokens
  match tokens with
  | [] => throw .starved
  | .documentStart :: tokens =>
    match tokens with
    | [] => throw .starved
    | t :: rest =>
      if isOutside t then
        nothingLeft (t :: rest)
        return Node.empty
      else rooted handles (t :: rest)
  | _ => throw .malformed

/-- The node of the only document of some tokens. There is none in an empty stream. -/
def ofTokens : List Token → Except Refusal (Option Node)
  | [] => .error .starved
  | .streamEnd :: _ => .ok none
  | .directive d :: rest => (marked (.directive d :: rest)).map some
  | .documentStart :: rest => (marked (.documentStart :: rest)).map some
  | tokens => (rooted standardHandles tokens).map some

/-- The node of a text's only document. -/
def ofText (s : Text) : Except YamlFault (Option Node) :=
  let stream := TokenStream.ofText s
  if stream.fault = some .malformed then .error .malformed
  else
    match ofTokens stream.tokens with
    | .ok n => .ok (n.map Node.unfold)
    | .error .malformed => .error .malformed
    | .error .starved => .error (stream.fault.getD .malformed)

end Document

end PageTree.Yaml
