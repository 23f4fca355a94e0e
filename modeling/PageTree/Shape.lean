import PageTree.Value

/-!
# Shapes

A shape says what a value has to look like in order to be read as something of the domain, and reads it
as that. Nothing is coerced: a text is a text and an array an array.

Reading a value either yields what it describes or a `Mismatch`. A list stops at its first bad element. A
record goes through all its fields and collects a `Leaf` for each that does not fit, in the order of its
fields, with the path of field names that leads there. Elements of lists add nothing to a path.

A record can be looked for in any value. Required fields are asked for by name, which only an object
answers. Whether an optional field is there is asked first, and a text answers by its parts and an array
by its elements; a value that has neither parts nor elements cannot even be asked.
-/

set_option autoImplicit false

namespace PageTree

/-- Why a value does not fit. -/
inductive Misfit
  | missing (name : Text)
  | notText (kind : Text)
  | notArray (kind : Text)
  | noMembers
  | noChoice
deriving DecidableEq

/-- The complaint about a misfit, where it has one of its own. -/
def Misfit.detail? : Misfit → Option Text
  | .missing name => some name
  | .notText kind => some (text "expected: string; got: " ++ kind)
  | .notArray kind => some (text "expected: array; got: " ++ kind)
  | .noMembers => none
  | .noChoice => none

/-- A misfit at the end of a path of field names. -/
structure Leaf where
  path : List Text
  misfit : Misfit
deriving DecidableEq

/-- The leaf seen from a record in whose field it lies. -/
def Leaf.under (name : Text) (leaf : Leaf) : Leaf := { leaf with path := name :: leaf.path }

/-- Why a value does not have a shape: a misfit of its own, or the misfits of a record's fields. -/
inductive Mismatch
  | single (misfit : Misfit)
  | fields (leaves : List Leaf)
deriving DecidableEq

/-- The leaves of a mismatch. -/
def Mismatch.leaves : Mismatch → List Leaf
  | .single misfit => [⟨[], misfit⟩]
  | .fields leaves => leaves

/-- How a value is read as something of type `α`. -/
abbrev Shape (α : Type) := Value → Except Mismatch α

/-- What the fields of a record yield, or their misfits. -/
abbrev Collected (α : Type) := Except (List Leaf) α

namespace Collected

/-- The fields of two groups together. The misfits of both are kept. -/
def both {α β : Type} : Collected α → Collected β → Collected (α × β)
  | .ok a, .ok b => .ok (a, b)
  | .ok _, .error right => .error right
  | .error left, .ok _ => .error left
  | .error left, .error right => .error (left ++ right)

/-- What a field of a name yields, its misfits seen from the record. -/
def under {α : Type} (name : Text) : Except Mismatch α → Collected α
  | .ok a => .ok a
  | .error m => .error (m.leaves.map (Leaf.under name))

/-- The record that is made of collected fields. -/
def toRecord {α β : Type} (make : α → β) : Collected α → Except Mismatch β
  | .ok a => .ok (make a)
  | .error leaves => .error (.fields leaves)

end Collected

namespace Shape

/-- The value of a member. -/
def member (name : Text) : Value → Except Mismatch Value
  | .object members =>
    match Members.find? name members with
    | some v => .ok v
    | none => .error (.single (.missing name))
  | _ => .error (.single .noMembers)

/-- Whether a value can be asked for a name. -/
def isSearchable : Value → Bool
  | .object _ => true
  | .array _ => true
  | .str _ => true
  | .foreign (.set _) => true
  | .foreign (.tuple _) => true
  | _ => false

/-- Whether a name occurs in a value. -/
def mentions (name : Text) : Value → Bool
  | .object members => Members.has name members
  | .array items => (Value.texts items).contains name
  | .str s => Text.containsText name s
  | .foreign (.set texts) => texts.contains name
  | .foreign (.tuple texts) => texts.contains name
  | _ => false

/-- A text. -/
def text : Shape Text
  | .str s => .ok s
  | v => .error (.single (.notText v.kind))

/-- A text or null. -/
def optionalText : Shape (Option Text)
  | .null => .ok none
  | v => (text v).map some

/-- Any value. -/
def any : Shape Value := .ok

/-- Elements of a shape, up to the first that does not have it. -/
def elements {α : Type} (shape : Shape α) : List Value → Except Mismatch (List α)
  | [] => .ok []
  | v :: rest => do
    let a ← shape v
    let others ← elements shape rest
    return a :: others

/-- An array of elements of a shape. -/
def list {α : Type} (shape : Shape α) : Shape (List α)
  | .array items => elements shape items
  | v => .error (.single (.notArray v.kind))

/-- One of several texts, each of which stands for a value. -/
def choice {α : Type} (choices : List (Text × α)) : Shape α
  | .str s =>
    match choices.find? (·.1 == s) with
    | some (_, a) => .ok a
    | none => .error (.single .noChoice)
  | _ => .error (.single .noChoice)

/-- A field that has to be there. -/
def required {α : Type} (name : Text) (shape : Shape α) (v : Value) : Collected α :=
  .under name ((member name v).bind shape)

/-- A field that has a value of its own when it is not there. -/
def optional {α : Type} (name : Text) (otherwise : α) (shape : Shape α) (v : Value) : Collected α :=
  if mentions name v then required name shape v else .ok otherwise

/-- A record with optional fields, which has to be searched for them. -/
def searched {α : Type} (shape : Shape α) : Shape α := fun v =>
  if isSearchable v then shape v else .error (.single .noMembers)

end Shape

end PageTree
