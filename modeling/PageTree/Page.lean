import PageTree.Shape

/-!
# Page trees

A `Page` has a title, the path of the file with its body, the paths of its attachments, and the pages
below it. A `Metadata` describes a tree: the space, the top-level pages, and the page that exists already
and goes above them.

`Metadata.shape` reads a tree from a value and `Metadata.toValue` writes it as one. Fields that hold their
default are left out in writing and filled in in reading. `outline` lists the pages of a forest with their
depths, in the order in which they are published: each page before the pages below it.
-/

set_option autoImplicit false

namespace PageTree

/-- A page to publish. -/
structure Page where
  /-- The title. -/
  title : Text
  /-- The path of the file with the body, in storage format. -/
  contentPath : Text
  /-- The paths of the files to attach. -/
  attachments : List Text
  /-- The pages below, in the order of publishing. -/
  children : List Page

/-- A tree of pages to publish. -/
structure Metadata where
  /-- The key of the space that new pages go to. -/
  spaceKey : Text
  /-- The top-level pages, in the order of publishing. -/
  pages : List Page
  /-- The identifier of the page above the top-level pages. A blank one counts as none. -/
  parentId : Option Text

/-! ## The outline -/

mutual

/-- A page and the pages below it with their depths. -/
def Page.outline (depth : Int) : Page → List (Int × Page)
  | ⟨title, contentPath, attachments, children⟩ =>
    (depth, ⟨title, contentPath, attachments, children⟩) :: outline (depth + 1) children

/-- The pages of a forest with their depths, each page before the pages below it. -/
def outline (depth : Int) : List Page → List (Int × Page)
  | [] => []
  | page :: pages => page.outline depth ++ outline depth pages

end

/-- How many attachments the pages of an outline have. -/
def attachmentCount (entries : List (Int × Page)) : Nat :=
  (entries.flatMap fun e => e.2.attachments).length

/-! ## Reading -/

/-- A page in a value, when it is known what the field of the children yields. -/
def Page.shapeWith (children : Collected (List Page)) : Shape Page :=
  Shape.searched fun v =>
    Collected.toRecord (fun f => ⟨f.1, f.2.1, f.2.2.1, f.2.2.2⟩) <|
      .both (Shape.required (text "title") Shape.text v) <|
      .both (Shape.required (text "contentFilePath") Shape.text v) <|
      .both (Shape.optional (text "attachments") [] (Shape.list Shape.text) v) children

/-- The field of the children in a value that is no object: it is not there, or cannot be read. -/
def Page.childrenElsewhere (v : Value) : Collected (List Page) :=
  Shape.optional (text "children") [] (fun _ => .error (.single .noMembers)) v

mutual

/-- A page in a value. -/
def Page.shape : Value → Except Mismatch Page
  | .object members =>
    Page.shapeWith (.under (text "children") (Page.childrenShape members)) (.object members)
  | v => Page.shapeWith (Page.childrenElsewhere v) v

/-- The pages in the member that holds the children, and none if there is no such member. -/
def Page.childrenShape : List (Text × Value) → Except Mismatch (List Page)
  | [] => .ok []
  | (key, v) :: rest => if key = text "children" then Page.listShape v else Page.childrenShape rest

/-- An array of pages. -/
def Page.listShape : Value → Except Mismatch (List Page)
  | .array items => Page.elementShapes items
  | v => .error (.single (.notArray v.kind))

/-- Pages in values, up to the first value that is none. -/
def Page.elementShapes : List Value → Except Mismatch (List Page)
  | [] => .ok []
  | v :: rest =>
    match Page.shape v with
    | .error e => .error e
    | .ok page =>
      match Page.elementShapes rest with
      | .error e => .error e
      | .ok pages => .ok (page :: pages)

end

/-- A tree in a value. -/
def Metadata.shape : Shape Metadata :=
  Shape.searched fun v =>
    Collected.toRecord (fun f => ⟨f.1, f.2.1, f.2.2⟩) <|
      .both (Shape.required (text "spaceKey") Shape.text v)
        (.both (Shape.optional (text "pages") [] Page.listShape v)
          (Shape.optional (text "parentContentId") none Shape.optionalText v))

/-! ## Writing -/

/-- Whether a value is the default of an optional field. -/
def isDefault : Value → Bool
  | .null => true
  | .array [] => true
  | _ => false

/-- The object of fields, those left out that hold their default. -/
def withoutDefaults (fields : List (Text × Value)) : Value :=
  .object (fields.filter fun f => !isDefault f.2)

mutual

/-- The value of a page. -/
def Page.toValue : Page → Value
  | ⟨title, contentPath, attachments, children⟩ =>
    withoutDefaults
      [(text "title", .str title), (text "contentFilePath", .str contentPath),
        (text "attachments", .array (attachments.map .str)),
        (text "children", .array (Page.toValues children))]

/-- The values of pages. -/
def Page.toValues : List Page → List Value
  | [] => []
  | page :: pages => page.toValue :: Page.toValues pages

end

/-- The value of an optional text. -/
def optionalValue : Option Text → Value
  | none => .null
  | some s => .str s

/-- The value of a tree. -/
def Metadata.toValue (m : Metadata) : Value :=
  withoutDefaults
    [(text "spaceKey", .str m.spaceKey), (text "pages", .array (Page.toValues m.pages)),
      (text "parentContentId", optionalValue m.parentId)]

end PageTree
