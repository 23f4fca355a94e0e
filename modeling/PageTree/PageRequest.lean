import PageTree.Page

/-!
# Requests that create pages

The body of a request that creates a page: its type, which is always a page, its title, its space, its
content and the page above it. Each part is a record of its own, because the server nests them so. A page
without a page above it has no ancestors, and the field is then left out.
-/

set_option autoImplicit false

namespace PageTree

/-- The type of new content. -/
inductive ContentType
  | page
deriving DecidableEq

/-- The format of a body. -/
inductive Representation
  | storage
deriving DecidableEq

/-- The space of a page. -/
structure Space where
  key : Text
deriving DecidableEq

/-- A page above another. -/
structure Ancestor where
  id : Text
deriving DecidableEq

/-- A body and its format. -/
structure Storage where
  value : Text
  representation : Representation
deriving DecidableEq

/-- The content of a page. -/
structure Body where
  storage : Storage
deriving DecidableEq

/-- A request that creates a page. -/
structure PageRequest where
  contentType : ContentType
  title : Text
  space : Space
  body : Body
  ancestors : List Ancestor
deriving DecidableEq

namespace ContentType

/-- The text of a content type. -/
def toText : ContentType → Text
  | .page => text "page"

/-- A content type in a value. -/
def shape : Shape ContentType := Shape.choice [(toText .page, .page)]

end ContentType

namespace Representation

/-- The text of a format. -/
def toText : Representation → Text
  | .storage => text "storage"

/-- A format in a value. -/
def shape : Shape Representation := Shape.choice [(toText .storage, .storage)]

end Representation

namespace Space

/-- A space in a value. -/
def shape : Shape Space := fun v => (Shape.required (text "key") Shape.text v).toRecord .mk

/-- The value of a space. -/
def toValue (s : Space) : Value := .object [(text "key", .str s.key)]

end Space

namespace Ancestor

/-- An ancestor in a value. -/
def shape : Shape Ancestor := fun v => (Shape.required (text "id") Shape.text v).toRecord .mk

/-- The value of an ancestor. -/
def toValue (a : Ancestor) : Value := .object [(text "id", .str a.id)]

end Ancestor

namespace Storage

/-- A body with its format in a value. -/
def shape : Shape Storage := fun v =>
  ((Shape.required (text "value") Shape.text v).both
    (Shape.required (text "representation") Representation.shape v)).toRecord fun f => ⟨f.1, f.2⟩

/-- The value of a body with its format. -/
def toValue (s : Storage) : Value :=
  .object [(text "value", .str s.value), (text "representation", .str s.representation.toText)]

end Storage

namespace Body

/-- The content of a page in a value. -/
def shape : Shape Body := fun v => (Shape.required (text "storage") Storage.shape v).toRecord .mk

/-- The value of a page's content. -/
def toValue (b : Body) : Value := .object [(text "storage", b.storage.toValue)]

end Body

namespace PageRequest

/-- A request in a value. -/
def shape : Shape PageRequest :=
  Shape.searched fun v =>
    Collected.toRecord (fun f => ⟨f.1, f.2.1, f.2.2.1, f.2.2.2.1, f.2.2.2.2⟩) <|
      .both (Shape.required (text "type") ContentType.shape v) <|
      .both (Shape.required (text "title") Shape.text v) <|
      .both (Shape.required (text "space") Space.shape v) <|
      .both (Shape.required (text "body") Body.shape v)
        (Shape.optional (text "ancestors") [] (Shape.list Ancestor.shape) v)

/-- The value of a request. -/
def toValue (r : PageRequest) : Value :=
  withoutDefaults
    [(text "type", .str r.contentType.toText), (text "title", .str r.title),
      (text "space", r.space.toValue), (text "body", r.body.toValue),
      (text "ancestors", .array (r.ancestors.map Ancestor.toValue))]

end PageRequest

/-- The request for a page with a title, a space key and a body. A blank parent counts as none. -/
def pageRequest (spaceKey title content : Text) (parentId : Option Text) : PageRequest :=
  { contentType := .page
    title
    space := ⟨spaceKey⟩
    body := ⟨⟨content, .storage⟩⟩
    ancestors :=
      match parentId with
      | some id => if Text.isBlank id then [] else [⟨id⟩]
      | none => [] }

end PageTree
