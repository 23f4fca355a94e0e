import PageTree.PageRequest
import PageTree.Proofs.Shape

/-!
# Records and their fields

Seven records are read from values and written as values: trees, pages, requests for pages, and the records
that a request consists of. `Record.fields` lists the fields of each in their order, and what is asked of
their values. It says nothing about how a record is read or written; that is `Record.shape` and
`Record.toValue`, which collect what the records have of their own.
-/

set_option autoImplicit false

namespace PageTree

/-- The records that are read from values and written as values. -/
inductive Record
  | tree
  | page
  | request
  | body
  | storage
  | space
  | ancestor
deriving DecidableEq

/-- What is asked of a value. -/
inductive Schema
  | text
  | optionalText
  | choice (words : List Text)
  | list (item : Schema)
  | record (r : Record)

namespace Record

/-- A field of a record. -/
structure Field where
  name : Text
  isRequired : Bool
  schema : Schema

/-- A field that has to be there. -/
def Field.required (name : String) (schema : Schema) : Field := ⟨text name, true, schema⟩

/-- A field that may be left out. -/
def Field.optional (name : String) (schema : Schema) : Field := ⟨text name, false, schema⟩

/-- The fields of a record in their order. -/
def fields : Record → List Field
  | .tree =>
    [.required "spaceKey" .text, .optional "pages" (.list (.record .page)),
      .optional "parentContentId" .optionalText]
  | .page =>
    [.required "title" .text, .required "contentFilePath" .text,
      .optional "attachments" (.list .text), .optional "children" (.list (.record .page))]
  | .request =>
    [.required "type" (.choice [text "page"]), .required "title" .text,
      .required "space" (.record .space), .required "body" (.record .body),
      .optional "ancestors" (.list (.record .ancestor))]
  | .body => [.required "storage" (.record .storage)]
  | .storage =>
    [.required "value" .text, .required "representation" (.choice [text "storage"])]
  | .space => [.required "key" .text]
  | .ancestor => [.required "id" .text]

/-- What a record is read as. -/
def Carrier : Record → Type
  | .tree => Metadata
  | .page => Page
  | .request => PageRequest
  | .body => Body
  | .storage => Storage
  | .space => Space
  | .ancestor => Ancestor

/-- How a record is read. -/
def shape : (r : Record) → Shape r.Carrier
  | .tree => Metadata.shape
  | .page => Page.shape
  | .request => PageRequest.shape
  | .body => Body.shape
  | .storage => Storage.shape
  | .space => Space.shape
  | .ancestor => Ancestor.shape

/-- How a record is written. -/
def toValue : (r : Record) → r.Carrier → Value
  | .tree => Metadata.toValue
  | .page => Page.toValue
  | .request => PageRequest.toValue
  | .body => Body.toValue
  | .storage => Storage.toValue
  | .space => Space.toValue
  | .ancestor => Ancestor.toValue

end Record

/-! ## Pages within pages -/

/-- Pages in values are the elements of a list of pages. -/
theorem Page.elementShapes_eq (items : List Value) :
    Page.elementShapes items = Shape.elements Page.shape items := by
  induction items with
  | nil => rfl
  | cons v rest ih =>
      rw [Page.elementShapes, ih]
      show _ = (Page.shape v).bind fun page =>
        (Shape.elements Page.shape rest).bind fun pages => .ok (page :: pages)
      cases Page.shape v with
      | error m => rfl
      | ok page => cases Shape.elements Page.shape rest <;> rfl

/-- An array of pages is a list like any other. -/
theorem Page.listShape_eq : Page.listShape = Shape.list Page.shape := by
  funext v
  cases v with
  | array items => exact Page.elementShapes_eq items
  | _ => rfl

/-- In a value that is no object it makes no difference how an optional field would be read. -/
theorem Shape.optional_of_not_object {α : Type} {name : Text} {otherwise : α} {v : Value}
    (h : ∀ members, v ≠ .object members) (shape other : Shape α) :
    optional name otherwise shape v = optional name otherwise other v := by
  cases v with
  | object members => exact absurd rfl (h members)
  | _ => rfl

/-- A page is read like a record whose last field holds a list of pages. -/
theorem Page.shape_eq (v : Value) :
    Page.shape v =
      Page.shapeWith (Shape.optional (text "children") [] (Shape.list Page.shape) v) v := by
  cases v with
  | object members =>
      rw [Page.shape, Page.childrenShape_eq, Shape.optional_object, Page.listShape_eq]
  | _ =>
      rw [Page.shape, Page.childrenElsewhere, Shape.optional_of_not_object _ _ (Shape.list Page.shape)]
      all_goals nofun

end PageTree
