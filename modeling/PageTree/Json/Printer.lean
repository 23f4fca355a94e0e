import PageTree.Json.Reader

/-!
# Writing JSON

A value is written without blanks, its members in their order. Text stands as it is, apart from the mark,
the backslash and the control codes below U+0020. A number that is infinite or none is written `null`.

Not every value has a JSON form: `obstacle?` finds what stands in the way first, in the order of writing,
and `write` writes a value in whose way nothing stands. `print` joins the two. Among the obstacles is an array
or object that stands inside too many others: it is one before anything in it is looked at, and also when
there is nothing in it.
-/

set_option autoImplicit false

namespace PageTree.Json

/-- What has no JSON form: an integer beyond 64 bits, a surrogate without its partner, an array or object
inside too many others, a value of a kind that JSON does not have. -/
inductive Obstacle
  | largeInteger
  | loneSurrogate
  | nesting
  | foreignKind (kind : Text)
deriving DecidableEq

/-- The complaint about an obstacle. -/
def Obstacle.message : Obstacle → Text
  | .largeInteger => text "Integer exceeds 64-bit range"
  | .loneSurrogate => text "str is not valid UTF-8: surrogates not allowed"
  | .nesting => text "Recursion limit reached"
  | .foreignKind kind => text "Type is not JSON serializable: " ++ kind

/-- The number of arrays and objects that may stand inside each other. -/
def maxNesting : Nat := 255

/-- The obstacle in a text. -/
def textObstacle? (s : Text) : Option Obstacle :=
  if s.hasSurrogate then some .loneSurrogate else none

mutual

/-- The first obstacle in a value, where arrays and objects may still stand inside each other as often as
there is room. -/
def obstacle? : Nat → Value → Option Obstacle
  | _, .int n => if fits64 n then none else some .largeInteger
  | _, .str s => textObstacle? s
  | 0, .array _ => some .nesting
  | 0, .object _ => some .nesting
  | room + 1, .array items => itemObstacle? room items
  | room + 1, .object members => memberObstacle? room members
  | _, .foreign f => some (.foreignKind f.kind)
  | _, .null => none
  | _, .bool _ => none
  | _, .float _ => none

/-- The first obstacle in the items of an array. -/
def itemObstacle? : Nat → List Value → Option Obstacle
  | _, [] => none
  | room, v :: rest => (obstacle? room v).or (itemObstacle? room rest)

/-- The first obstacle in the members of an object. A key comes before its value. -/
def memberObstacle? : Nat → List (Text × Value) → Option Obstacle
  | _, [] => none
  | room, (key, v) :: rest => (textObstacle? key).or ((obstacle? room v).or (memberObstacle? room rest))

end

/-- A code point inside a string. -/
def writePoint (c : CodePoint) : Text :=
  if c = '"' then text "\\\""
  else if c = '\\' then text "\\\\"
  else if c.val = 0x08 then text "\\b"
  else if c.val = 0x0C then text "\\f"
  else if c = '\n' then text "\\n"
  else if c = '\r' then text "\\r"
  else if c = '\t' then text "\\t"
  else if c.val < 0x20 then text "\\u00" ++ [CodePoint.hexDigit (c.val / 16), CodePoint.hexDigit c.val]
  else [c]

/-- A text between marks. -/
def writeText (s : Text) : Text := text "\"" ++ s.flatMap writePoint ++ text "\""

/-- A floating-point number. -/
def writeFloat : Binary64 → Text
  | .finite negative m e => Binary64.render Binary64.jsonStyle (.finite negative m e)
  | _ => text "null"

mutual

/-- The JSON form of a value. -/
def write : Value → Text
  | .null => text "null"
  | .bool b => text (if b then "true" else "false")
  | .int n => Text.ofInt n
  | .float x => writeFloat x
  | .str s => writeText s
  | .array items => text "[" ++ Text.join (text ",") (writeItems items) ++ text "]"
  | .object members => text "\x7b" ++ Text.join (text ",") (writeMembers members) ++ text "\x7d"
  | .foreign _ => text "null"

/-- The JSON forms of items. -/
def writeItems : List Value → List Text
  | [] => []
  | v :: rest => write v :: writeItems rest

/-- The JSON forms of members. -/
def writeMembers : List (Text × Value) → List Text
  | [] => []
  | (key, v) :: rest => (writeText key ++ text ":" ++ write v) :: writeMembers rest

end

/-- The JSON form of a value, or what stands in its way. -/
def print (v : Value) : Except Obstacle Text :=
  match obstacle? maxNesting v with
  | some o => .error o
  | none => .ok (write v)

end PageTree.Json
