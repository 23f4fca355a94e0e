import PageTree.Yaml.Number
import PageTree.Yaml.Timestamp

/-!
# Tags

A tag says what kind of value a node stands for. A node can name its tag; a plain scalar without one gets
it from its form (`Tag.ofPlain`), and any other node without one is a text, a sequence or a mapping.
-/

set_option autoImplicit false

namespace PageTree.Yaml

/-- The kind of value that a node stands for. Tags that are not known are all alike. -/
inductive Tag
  | null
  | bool
  | int
  | float
  | binary
  | timestamp
  | text
  | seq
  | map
  | set
  | omap
  | pairs
  | merge
  | value
  | unknown
deriving DecidableEq

namespace Tag

/-- What the known tags start with. -/
def common : Text := PageTree.text "tag:yaml.org,2002:"

/-- The known tags by what follows their start. -/
def names : List (Text × Tag) :=
  [(PageTree.text "null", .null), (PageTree.text "bool", .bool), (PageTree.text "int", .int),
    (PageTree.text "float", .float), (PageTree.text "binary", .binary),
    (PageTree.text "timestamp", .timestamp), (PageTree.text "str", .text),
    (PageTree.text "seq", .seq), (PageTree.text "map", .map), (PageTree.text "set", .set),
    (PageTree.text "omap", .omap), (PageTree.text "pairs", .pairs),
    (PageTree.text "merge", .merge), (PageTree.text "value", .value)]

/-- The tag that a text names. -/
def ofText (s : Text) : Tag :=
  if common.isPrefixOf s then
    match names.find? (·.1 == s.drop common.length) with
    | some (_, tag) => tag
    | none => .unknown
  else .unknown

/-- Whether the values of a tag can be changed, so that they are no keys. -/
def isMutable : Tag → Bool
  | .seq => true
  | .map => true
  | .set => true
  | .omap => true
  | .pairs => true
  | _ => false

/-- The spellings of the two truth values. -/
def truthWords : List Text :=
  [PageTree.text "yes", PageTree.text "Yes", PageTree.text "YES", PageTree.text "no",
    PageTree.text "No", PageTree.text "NO", PageTree.text "true", PageTree.text "True",
    PageTree.text "TRUE", PageTree.text "false", PageTree.text "False", PageTree.text "FALSE",
    PageTree.text "on", PageTree.text "On", PageTree.text "ON", PageTree.text "off",
    PageTree.text "Off", PageTree.text "OFF"]

/-- The spellings of null. -/
def nullWords : List Text :=
  [[], PageTree.text "~", PageTree.text "null", PageTree.text "Null", PageTree.text "NULL"]

/-- The signs that are reserved when they stand alone. -/
def reserved : List Text := [PageTree.text "!", PageTree.text "&", PageTree.text "*"]

/-- The tag of a plain scalar. A line feed at its end counts for nothing, but is not all there is. -/
def ofPlain (s : Text) : Tag :=
  let line := Timestamp.dropLineEnd s
  if s ≠ [] ∧ line = [] then .text
  else if truthWords.contains line then .bool
  else if Number.isFloat line then .float
  else if Number.isInt line then .int
  else if line = PageTree.text "<<" then .merge
  else if nullWords.contains line then .null
  else if ((Timestamp.ofLine? line).map Timestamp.isPlain).getD false then .timestamp
  else if line = PageTree.text "=" then .value
  else if reserved.contains line then .unknown
  else .text

/-- The mark that stands for no tag, and makes any scalar plain. -/
def mark : Text := PageTree.text "!"

/-- The tag of a scalar. -/
def ofScalar (named : Option Text) (plain : Bool) (content : Text) : Tag :=
  match named with
  | none => if plain then ofPlain content else .text
  | some s => if s = mark then ofPlain content else ofText s

/-- The tag of a collection. -/
def ofCollection (otherwise : Tag) (named : Option Text) : Tag :=
  match named with
  | none => otherwise
  | some s => if s = mark then otherwise else ofText s

end Tag

end PageTree.Yaml
