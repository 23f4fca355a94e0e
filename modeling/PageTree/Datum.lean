import PageTree.Session
import PageTree.Text.Quoted

/-!
# Data in memory

What a program holds in memory is richer than JSON: a dictionary can have any keys, a tuple is not a list,
and there are records and things without any written form. A `Datum` is such a piece of data and
`Datum.toValue` the value that is written for it. Keys are written as text; of keys that are written alike
the last value holds.

The fields of a record are data of any kind here: a record is not checked when it is written.
-/

set_option autoImplicit false

namespace PageTree

/-- A key of a dictionary. -/
inductive Key
  | none
  | bool (b : Bool)
  | int (n : Int)
  | float (x : Binary64)
  | str (s : Text)
  | contentType (c : ContentType)
  | tuple (items : List Key)

namespace Key

/-- The integer that a number or a truth value is. -/
def toInt? : Key → Option Int
  | .bool b => some (if b then 1 else 0)
  | .int n => some n
  | .float x => x.toInt?
  | _ => .none

mutual

/-- Whether two keys are the same. Numbers are compared by their value, and a truth value is one or
zero. -/
def same : Key → Key → Bool
  | .none, .none => true
  | .str s, .str t => s == t
  | .contentType c, .contentType d => c == d
  | .float x, .float y =>
    (x == y && x != .nan) || (x.toInt?.isSome && x.toInt? == y.toInt?)
  | .tuple xs, .tuple ys => sameAll xs ys
  | x, y => (toInt? x).isSome && toInt? x == toInt? y

/-- Whether two rows of keys are the same. -/
def sameAll : List Key → List Key → Bool
  | [], [] => true
  | x :: xs, y :: ys => same x y && sameAll xs ys
  | _, _ => false

end

mutual

/-- A key as it is shown inside a tuple. -/
def shown : Key → Text
  | .none => text "None"
  | .bool b => text (if b then "True" else "False")
  | .int n => Text.ofInt n
  | .float x => Binary64.render Binary64.plainStyle x
  | .str s => Text.quoted s
  | .contentType .page => text "<ConfluenceContentType.PAGE: 'page'>"
  | .tuple [] => text "()"
  | .tuple [x] => text "(" ++ shown x ++ text ",)"
  | .tuple (x :: y :: rest) =>
    text "(" ++ shown x ++ text ", " ++ Text.join (text ", ") (shown y :: shownAll rest) ++ text ")"

/-- Keys as they are shown inside a tuple. -/
def shownAll : List Key → List Text
  | [] => []
  | x :: xs => shown x :: shownAll xs

end

/-- The text that a key is written as. -/
def spelling : Key → Text
  | .str s => s
  | .contentType .page => text "ConfluenceContentType.PAGE"
  | key => shown key

/-- The values of keys, each in the place of the first key that is the same. -/
def set {α : Type} (key : Key) (a : α) : List (Key × α) → List (Key × α)
  | [] => [(key, a)]
  | (k, b) :: rest => if same k key then (k, a) :: rest else (k, b) :: set key a rest

end Key

/-- A piece of data. -/
inductive Datum
  | null
  | bool (b : Bool)
  | int (n : Int)
  | float (x : Binary64)
  | str (s : Text)
  | contentType (c : ContentType)
  | list (items : List Datum)
  | tuple (items : List Datum)
  | dict (entries : List (Key × Datum))
  | ancestor (id : Datum)
  | page (title contentPath attachments children : Datum)
  | metadata (spaceKey pages parentId : Datum)
  | object

namespace Datum

/-- The name of a datum's kind in a message. -/
def kind : Datum → Text
  | .null => text "NoneType"
  | .bool _ => text "bool"
  | .int _ => text "int"
  | .float _ => text "float"
  | .str _ => text "str"
  | .contentType _ => text "ConfluenceContentType"
  | .list _ => text "list"
  | .tuple _ => text "tuple"
  | .dict _ => text "dict"
  | .ancestor _ => text "ConfluenceAncestor"
  | .page .. => text "ConfluencePageNode"
  | .metadata .. => text "ConfluencePublisherMetadata"
  | .object => text "object"

/-- Whether a datum is the default of a field that holds a list. -/
def isEmptyList : Datum → Bool
  | .list [] => true
  | _ => false

/-- Whether a datum is the default of a field that may be empty. -/
def isNull : Datum → Bool
  | .null => true
  | _ => false

mutual

/-- The value that is written for a datum. Fields of records that hold their default are left out. -/
def toValue : Datum → Value
  | .null => .null
  | .bool b => .bool b
  | .int n => .int n
  | .float x => .float x
  | .str s => .str s
  | .contentType c => .str c.toText
  | .list items => .array (toValues items)
  | .tuple items => .array (toValues items)
  | .dict entries =>
    let distinct := (toEntries entries).foldl (fun es e => Key.set e.1 e.2 es) []
    .object (Members.ofList (distinct.map fun e => (e.1.spelling, e.2)))
  | .ancestor id => .object [(text "id", toValue id)]
  | .page title contentPath attachments children =>
    .object ([(text "title", toValue title), (text "contentFilePath", toValue contentPath)] ++
      (if attachments.isEmptyList then [] else [(text "attachments", toValue attachments)]) ++
      (if children.isEmptyList then [] else [(text "children", toValue children)]))
  | .metadata spaceKey pages parentId =>
    .object ([(text "spaceKey", toValue spaceKey)] ++
      (if pages.isEmptyList then [] else [(text "pages", toValue pages)]) ++
      (if parentId.isNull then [] else [(text "parentContentId", toValue parentId)]))
  | .object => .foreign .object

/-- The values that are written for data. -/
def toValues : List Datum → List Value
  | [] => []
  | d :: ds => toValue d :: toValues ds

/-- Keys with the values that are written for their data. -/
def toEntries : List (Key × Datum) → List (Key × Value)
  | [] => []
  | (key, d) :: rest => (key, toValue d) :: toEntries rest

end

/-- The JSON form of a datum. -/
def payload (d : Datum) : Except Failure Text := PageTree.payload d.kind d.toValue

end Datum

end PageTree
