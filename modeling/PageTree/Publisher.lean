import PageTree.MetadataFile
import PageTree.Session

/-!
# Publishing

A publisher holds a page tree and the directory that its paths start from. Publishing walks the tree: each
page is created before the pages below it, and its attachments are uploaded right after it. The
identifier that the server gives to a page goes down to the pages below it and nowhere else. The first
fault ends the walk; what has been created stays.
-/

set_option autoImplicit false

namespace PageTree

/-- A tree that is ready to be published in a session. -/
structure Publisher where
  session : Session
  metadata : Metadata
  contentRoot : Path

/-- The paths of the files that a page refers to, seen from a directory. -/
def Page.filePaths (root : Path) (page : Page) : List Path :=
  (page.contentPath :: page.attachments).map fun s => root.join (Path.ofText s)

/-- The paths of the files that a tree refers to, in the order of publishing. -/
def Metadata.filePaths (root : Path) (m : Metadata) : List Path :=
  (outline 0 m.pages).flatMap fun e => e.2.filePaths root

namespace Publisher

/-- Reads the tree that a file describes. Its paths start from the directory of the file. -/
def load (session : Session) (path : Path) : Run Publisher := do
  let metadata ← Metadata.load path
  let workingDirectory := (← get).files.workingDirectory
  return ⟨session, metadata, (path.absolute workingDirectory).parent⟩

/-- The body of a page. -/
def readContent (path : Path) : Run Text := Run.readText path (.contentUnreadable path)

/-- Uploads the attachments of a page. -/
def uploadAll (session : Session) (root : Path) (pageId : Text) : List Text → Run Unit
  | [] => return ()
  | attachment :: rest => do
    session.uploadAttachment pageId (root.join (Path.ofText attachment))
    uploadAll session root pageId rest

mutual

/-- Publishes a page, its attachments and the pages below it. -/
def publishPage (session : Session) (spaceKey : Text) (root : Path) (parentId : Option Text) :
    Page → Run Unit
  | ⟨title, contentPath, attachments, children⟩ => do
    let content ← readContent (root.join (Path.ofText contentPath))
    let id ← session.createPage spaceKey title content parentId
    uploadAll session root id attachments
    publishPages session spaceKey root (some id) children

/-- Publishes the pages of a forest one after the other. -/
def publishPages (session : Session) (spaceKey : Text) (root : Path) (parentId : Option Text) :
    List Page → Run Unit
  | [] => return ()
  | page :: pages => do
    publishPage session spaceKey root parentId page
    publishPages session spaceKey root parentId pages

end

/-- Publishes the tree. -/
def publish (p : Publisher) : Run Unit :=
  publishPages p.session p.metadata.spaceKey p.contentRoot p.metadata.parentId p.metadata.pages

end Publisher

end PageTree
