import PageTree.Binary64

/-!
# Values

A metadata file, a request and an answer of the server hold a `Value`: the seven kinds of JSON and, for
files in YAML, a few kinds that JSON does not have. No shape that a page tree is checked against admits
one of these `Foreign` values, so a value keeps of them only what a report of a mismatch can show: the name
of their kind, and the texts among their elements.

The members of an object stand in the order in which they were first given, and no key occurs twice:
`Members.set` replaces a value in its place.
-/

set_option autoImplicit false

namespace PageTree

/-- A value that JSON does not have. -/
inductive Foreign
  | date
  | datetime
  | bytes
  | real
  | set (texts : List Text)
  | tuple (texts : List Text)
  | object
deriving DecidableEq

/-- A value of a metadata file, a request or an answer. -/
inductive Value
  | null
  | bool (b : Bool)
  | int (n : Int)
  | float (x : Binary64)
  | str (s : Text)
  | array (items : List Value)
  | object (members : List (Text × Value))
  | foreign (f : Foreign)

/-- The members of an object, a key and a value each. -/
abbrev Members := List (Text × Value)

/-- The name of a foreign value's kind. -/
def Foreign.kind : Foreign → Text
  | .date => text "date"
  | .datetime => text "datetime"
  | .bytes => text "bytes"
  | .real => text "float"
  | .set _ => text "set"
  | .tuple _ => text "tuple"
  | .object => text "object"

namespace Value

/-- The name of a value's kind, as a report of a mismatch gives it. -/
def kind : Value → Text
  | .null => text "NoneType"
  | .bool _ => text "bool"
  | .int _ => text "int"
  | .float _ => text "float"
  | .str _ => text "str"
  | .array _ => text "list"
  | .object _ => text "dict"
  | .foreign f => f.kind

/-- The text that a value is, if it is one. -/
def asText? : Value → Option Text
  | .str s => some s
  | _ => none

/-- The texts among values. -/
def texts (vs : List Value) : List Text := vs.filterMap asText?

end Value

namespace Members

/-- The value of a key. -/
def find? (key : Text) : Members → Option Value
  | [] => none
  | (k, v) :: rest => if k = key then some v else find? key rest

/-- Whether a key occurs. -/
def has (key : Text) (members : Members) : Bool := (find? key members).isSome

/-- The members with a value for a key, in the place of the key if it occurs and else at the end. -/
def set (key : Text) (v : Value) : Members → Members
  | [] => [(key, v)]
  | (k, w) :: rest => if k = key then (k, v) :: rest else (k, w) :: set key v rest

/-- Members given one after the other: the last value of a key holds, in the key's first place. -/
def ofList (given : List (Text × Value)) : Members := given.foldl (fun ms m => set m.1 m.2 ms) []

end Members

end PageTree
