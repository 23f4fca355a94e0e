import PageTree.Yaml.Cursor

/-!
# Block scalars

A block scalar is made of the lines that are indented under its header. The header says whether line ends
are kept or folded into spaces, what becomes of the line ends after the last line, and, if it has to, how
deep the lines are indented; else the first line that is not empty shows that.

Folding turns one line end between two lines that start with no blank into a space, and drops the first
of several.
-/

set_option autoImplicit false

namespace PageTree.Yaml.Block

/-- What becomes of the line ends after the last line: one stays, none, or all. -/
inductive Tail
  | clip
  | strip
  | keep
deriving DecidableEq

/-- The header of a block scalar. -/
structure Header where
  folded : Bool
  tail : Tail
  /-- The depth of the lines below the indentation around them, if it is given. -/
  depth : Option Nat

/-- What a sign in a header says about the tail. -/
def tailOf? (c : CodePoint) : Option Tail :=
  if c = '+' then some .keep else if c = '-' then some .strip else none

/-- The sign at the start of a text, if there is one, and what follows it. -/
def cutTail : Text → Option Tail × Text
  | [] => (none, [])
  | c :: rest =>
    match tailOf? c with
    | some tail => (some tail, rest)
    | none => (none, c :: rest)

/-- The digit at the start of a text, if there is one, and what follows it. Zero is refused. -/
def cutDepth : Text → Except YamlFault (Option Nat × Text)
  | [] => .ok (none, [])
  | c :: rest =>
    if c.isDigit then
      if c = '0' then .error .malformed else .ok (some (c.val - '0'.toNat), rest)
    else .ok (none, c :: rest)

/-- The header after its first sign, and how many code points it has. The sign of the tail and the depth
stand in either order. -/
def header (folded : Bool) (s : Text) : Except YamlFault (Header × Nat) := do
  let (before, afterTail) := cutTail s
  let (depth, afterDepth) ← cutDepth afterTail
  let (tail, rest) :=
    match before, depth with
    | none, some _ => cutTail afterDepth
    | tail, _ => (tail, afterDepth)
  if atSpace rest then
    return (⟨folded, tail.getD .clip, depth⟩, s.length - rest.length)
  else throw .malformed

/-- Where the reading of a block scalar is: before the first line that shows the indentation, between
lines, or inside a line. -/
inductive Place
  | search (deepest : Nat)
  | between (indent : Nat)
  | inside (indent : Nat)

/-- The end of the last line: the line end, if there was one, and whether the line started with no
blank. -/
structure LastLine where
  lineEnd : Text
  flush : Bool

/-- What stands for the end of the last line before the next line. Before the first line there is none. -/
def joint (folded : Bool) (last : LastLine) (c : CodePoint) (breaks : Text) : Text :=
  if folded && last.lineEnd == text "\n" && last.flush && !isBlank c then
    (if breaks = [] then text " " else [])
  else last.lineEnd

/-- The scalar when no line follows. -/
def finish (tail : Tail) (soFar : Text) (last : LastLine) (breaks : Text) : Text :=
  soFar.reverse ++
    match tail with
    | .strip => []
    | .clip => last.lineEnd
    | .keep => last.lineEnd ++ breaks

/-- Reads a block scalar on. The text so far is in reverse, `breaks` are the line ends since the last
line, and lines are indented by `least` at least. -/
def read (h : Header) (least : Nat) (soFar : Text) (last : LastLine) (breaks : Text) (place : Place)
    (m : Mark) : Text → Text × Cursor
  | [] => (finish h.tail soFar last breaks, ⟨m, []⟩)
  | c :: rest =>
    let begin (indent : Nat) : Text × Cursor :=
      if m.column = indent then
        read h least (c :: ((joint h.folded last c breaks ++ breaks).reverse ++ soFar))
          ⟨[], !isBlank c⟩ [] (.inside indent) (m.pass c) rest
      else (finish h.tail soFar last breaks, ⟨m, c :: rest⟩)
    match place with
    | .search deepest =>
      if c = ' ' then
        read h least soFar last breaks (.search (max deepest (m.pass c).column)) (m.pass c) rest
      else if isBreak c then
        read h least soFar last (breaks ++ [breakPoint c]) place (m.pass c) rest
      else begin (max least deepest)
    | .between indent =>
      if c = ' ' && m.column < indent then read h least soFar last breaks place (m.pass c) rest
      else if isBreak c then
        read h least soFar last (breaks ++ [breakPoint c]) place (m.pass c) rest
      else begin indent
    | .inside indent =>
      if isBreak c then
        read h least soFar { last with lineEnd := [breakPoint c] } [] (.between indent) (m.pass c) rest
      else read h least (c :: soFar) last breaks place (m.pass c) rest

end PageTree.Yaml.Block
