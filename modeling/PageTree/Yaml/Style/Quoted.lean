import PageTree.Yaml.Cursor

/-!
# Quoted scalars

A quoted scalar stands between single or double quotation marks. Between single marks only the mark itself
is written twice; between double marks a backslash starts an escape. Blanks inside a line stay. A line end
counts as a space, the blanks around it for nothing, and more line ends as all but the first; an escaped
line end counts for nothing.

A line inside a quoted scalar must not look like a separator of documents.
-/

set_option autoImplicit false

namespace PageTree.Yaml.Quoted

/-- Where the reading of a quoted scalar is: between blanks and line ends, at a single mark that may be
doubled, after blanks, after line ends (of which the first is missing if it was escaped), or in an
escape. -/
inductive Place
  | inside
  | mark
  | blanks (passed : Text)
  | lines (first : Option CodePoint) (more : Text)
  | escape
  | hex (missing value : Nat)

/-- The text that stands for line ends. -/
def folded (first : Option CodePoint) (more : Text) : Text :=
  match first with
  | none => more
  | some c => if c = '\n' then (if more = [] then text " " else more) else c :: more

/-- The text so far with what was passed since, both in reverse. -/
def Place.join (place : Place) (soFar : Text) : Text :=
  match place with
  | .blanks passed => passed ++ soFar
  | .lines first more => (folded first more).reverse ++ soFar
  | _ => soFar

/-- The code points that a letter after a backslash stands for. -/
def escapes : List (CodePoint × Nat) :=
  [('0', 0x00), ('a', 0x07), ('b', 0x08), ('t', 0x09), ('\t', 0x09), ('n', 0x0A), ('v', 0x0B),
    ('f', 0x0C), ('r', 0x0D), ('e', 0x1B), (' ', 0x20), ('"', 0x22), ('\\', 0x5C), ('/', 0x2F),
    ('N', 0x85), ('_', 0xA0), ('L', 0x2028), ('P', 0x2029)]

/-- How many hexadecimal digits follow a letter after a backslash. -/
def hexWidth? (c : CodePoint) : Option Nat :=
  if c = 'x' then some 2 else if c = 'u' then some 4 else if c = 'U' then some 8 else none

/-- The code point of a numeric escape. -/
def numbered (n : Nat) : Except YamlFault CodePoint :=
  match CodePoint.ofNat? n with
  | some c => .ok c
  | none => .error (if n < 0x80000000 then .badNumber else .numberTooLarge)

/-- What a code point does: it ends the scalar, or it leads to a place, with the text so far in reverse. -/
inductive Step
  | stop
  | go (soFar : Text) (place : Place)

/-- A code point that nothing special precedes. -/
def inside (double : Bool) (soFar : Text) (c : CodePoint) : Step :=
  if isBlank c then .go soFar (.blanks [c])
  else if isBreak c then .go soFar (.lines (some (breakPoint c)) [])
  else if double then
    if c = '"' then .stop
    else if c = '\\' then .go soFar .escape
    else .go (c :: soFar) .inside
  else if c = '\'' then .go soFar .mark
  else .go (c :: soFar) .inside

/-- A code point after a backslash. -/
def escaped (soFar : Text) (c : CodePoint) : Except YamlFault Step :=
  match escapes.find? (·.1 == c) with
  | some (_, n) => (numbered n).map fun e => .go (e :: soFar) .inside
  | none =>
    match hexWidth? c with
    | some width => .ok (.go soFar (.hex width 0))
    | none => if isBreak c then .ok (.go soFar (.lines none [])) else .error .malformed

/-- A code point at a place. -/
def step (double : Bool) (soFar : Text) (place : Place) (c : CodePoint) : Except YamlFault Step :=
  match place with
  | .inside => .ok (inside double soFar c)
  | .mark => .ok (if c = '\'' then .go (c :: soFar) .inside else .stop)
  | .blanks passed =>
    if isBlank c then .ok (.go soFar (.blanks (c :: passed)))
    else if isBreak c then .ok (.go soFar (.lines (some (breakPoint c)) []))
    else .ok (inside double (place.join soFar) c)
  | .lines first more =>
    if isBlank c then .ok (.go soFar place)
    else if isBreak c then .ok (.go soFar (.lines first (more ++ [breakPoint c])))
    else .ok (inside double (place.join soFar) c)
  | .escape => escaped soFar c
  | .hex missing value =>
    match c.hexValue? with
    | none => .error .malformed
    | some h =>
      if missing ≤ 1 then (numbered (value * 16 + h)).map fun e => .go (e :: soFar) .inside
      else .ok (.go soFar (.hex (missing - 1) (value * 16 + h)))

/-- Whether a single mark has been read that is not doubled. -/
def Place.isMark : Place → Bool
  | .mark => true
  | _ => false

/-- Reads a quoted scalar on, what has been read being given in reverse. -/
def read (double : Bool) (soFar : Text) (place : Place) (m : Mark) :
    Text → Except YamlFault (Text × Cursor)
  | [] => if place.isMark then .ok (soFar.reverse, ⟨m, []⟩) else .error .malformed
  | c :: rest =>
    match step double soFar place c with
    | .error fault => .error fault
    | .ok .stop =>
      .ok ((place.join soFar).reverse, if place.isMark then ⟨m, c :: rest⟩ else ⟨m.pass c, rest⟩)
    | .ok (.go soFar place) =>
      if isBreak c && atSeparator rest then .error .malformed
      else read double soFar place (m.pass c) rest

end PageTree.Yaml.Quoted
