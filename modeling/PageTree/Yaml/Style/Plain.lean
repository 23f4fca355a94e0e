import PageTree.Yaml.Cursor

/-!
# Plain scalars

A plain scalar has no marks around it. It is made of words with spaces or line ends between them, and goes
on in the next line when that line is indented more deeply than what surrounds it. A comment, a colon
before a gap, and in a flow collection its delimiters end it. A tab ends it as well.

One line end between words counts as a space, and more of them as all but the first.
-/

set_option autoImplicit false

namespace PageTree.Yaml.Plain

/-- Where the reading of a plain scalar is: inside a word, after spaces, or after line ends. -/
inductive Place
  | word
  | spaces (passed : Text)
  | lines (first : CodePoint) (more : Text)

/-- The text that stands for what was passed between two words. -/
def Place.toText : Place → Text
  | .word => []
  | .spaces passed => passed
  | .lines first more =>
    if first = '\n' then (if more = [] then text " " else more) else first :: more

/-- The delimiters of flow collections. -/
def isFlowDelimiter (c : CodePoint) : Bool :=
  c = ',' || c = '?' || c = '[' || c = ']' || c = '\x7b' || c = '\x7d'

/-- The delimiters of flow collections that end a scalar after a colon. -/
def endsAfterColon (flow : Bool) : Text → Bool
  | [] => true
  | c :: rest => atGap (c :: rest) || (flow && isFlowDelimiter c && c != CodePoint.ofChar '?')

/-- Whether a word cannot go on with a code point, the text after it being given. -/
def endsWord (flow : Bool) (c : CodePoint) (rest : Text) : Bool :=
  isBlank c || isBreak c || (c = ':' && endsAfterColon flow rest) || (flow && isFlowDelimiter c)

/-- A plain scalar that has been read, and whether it ends in a later line than its last word. -/
structure Result where
  value : Text
  lineEnded : Bool
  cursor : Cursor

/-- Whether a scalar ends before a code point that follows spaces or line ends. -/
def endsBefore (flow : Bool) (indent : Nat) (m : Mark) (c : CodePoint) (rest : Text) : Bool :=
  c = '#' || (!flow && m.column < indent) || endsWord flow c rest

/-- Reads a plain scalar on, what has been read being given in reverse. -/
def read (flow : Bool) (indent : Nat) (soFar : Text) (place : Place) (m : Mark) : Text → Result
  | [] =>
    let lineEnded := match place with
      | .lines _ _ => true
      | _ => false
    ⟨soFar.reverse, lineEnded, ⟨m, []⟩⟩
  | c :: rest =>
    match place with
    | .word =>
      if c = ' ' then read flow indent soFar (.spaces [c]) (m.pass c) rest
      else if isBreak c then
        if atSeparator rest then ⟨soFar.reverse, true, ⟨m.pass c, rest⟩⟩
        else read flow indent soFar (.lines (breakPoint c) []) (m.pass c) rest
      else if endsWord flow c rest then ⟨soFar.reverse, false, ⟨m, c :: rest⟩⟩
      else read flow indent (c :: soFar) .word (m.pass c) rest
    | .spaces passed =>
      if c = ' ' then read flow indent soFar (.spaces (c :: passed)) (m.pass c) rest
      else if isBreak c then
        if atSeparator rest then ⟨soFar.reverse, true, ⟨m.pass c, rest⟩⟩
        else read flow indent soFar (.lines (breakPoint c) []) (m.pass c) rest
      else if endsBefore flow indent m c rest then ⟨soFar.reverse, false, ⟨m, c :: rest⟩⟩
      else read flow indent (c :: (passed ++ soFar)) .word (m.pass c) rest
    | .lines first more =>
      if c = ' ' then read flow indent soFar place (m.pass c) rest
      else if isBreak c then
        if atSeparator rest then ⟨soFar.reverse, true, ⟨m.pass c, rest⟩⟩
        else read flow indent soFar (.lines first (more ++ [breakPoint c])) (m.pass c) rest
      else if endsBefore flow indent m c rest then ⟨soFar.reverse, true, ⟨m, c :: rest⟩⟩
      else read flow indent (c :: (place.toText.reverse ++ soFar)) .word (m.pass c) rest

end PageTree.Yaml.Plain
