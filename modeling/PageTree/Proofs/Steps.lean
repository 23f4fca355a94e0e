import PageTree.Publisher

/-!
# The steps of publishing

Publishing reads content files, creates pages and uploads attachments, and does nothing else. Whatever relates
these steps for two sessions, and still relates steps that follow one another, relates publishing with the
one session to publishing with the other (`Publisher.publish_related`). This is the one place where the
recursion over the page tree is gone through to say what all of its steps have in common.
-/

set_option autoImplicit false

namespace PageTree

/-- The steps of publishing are related for two sessions, and so are related steps one after the other. -/
structure StepsRelated (R : ∀ {α : Type}, Run α → Run α → Prop) (s s' : Session) : Prop where
  pure : ∀ {α : Type} (a : α), R (Pure.pure a) (Pure.pure a)
  bind : ∀ {α β : Type} {x y : Run α} {f g : α → Run β}, R x y → (∀ a, R (f a) (g a)) →
    R (x >>= f) (y >>= g)
  readText : ∀ path unreadable, R (Run.readText path unreadable) (Run.readText path unreadable)
  createPage : ∀ spaceKey title content parentId,
    R (s.createPage spaceKey title content parentId) (s'.createPage spaceKey title content parentId)
  uploadAttachment : ∀ pageId path, R (s.uploadAttachment pageId path) (s'.uploadAttachment pageId path)

namespace Publisher

variable {R : ∀ {α : Type}, Run α → Run α → Prop} {s s' : Session}

/-- Uploading attachments is related in two sessions whose steps are. -/
theorem uploadAll_related (h : StepsRelated R s s') (root : Path) (pageId : Text)
    (attachments : List Text) :
    R (uploadAll s root pageId attachments) (uploadAll s' root pageId attachments) := by
  induction attachments with
  | nil => exact h.pure ()
  | cons attachment rest ih => exact h.bind (h.uploadAttachment _ _) fun _ => ih

mutual

/-- Publishing a page is related in two sessions whose steps are. -/
theorem publishPage_related (h : StepsRelated R s s') (spaceKey : Text) (root : Path) :
    (parentId : Option Text) → (page : Page) →
      R (publishPage s spaceKey root parentId page) (publishPage s' spaceKey root parentId page)
  | parentId, ⟨title, contentPath, attachments, children⟩ => by
      rw [publishPage, publishPage]
      refine h.bind (h.readText (root.join (Path.ofText contentPath)) _) fun content => ?_
      refine h.bind (h.createPage spaceKey title content parentId) fun id => ?_
      refine h.bind (uploadAll_related h root id attachments) fun _ => ?_
      exact publishPages_related h spaceKey root (some id) children

/-- Publishing pages is related in two sessions whose steps are. -/
theorem publishPages_related (h : StepsRelated R s s') (spaceKey : Text) (root : Path) :
    (parentId : Option Text) → (pages : List Page) →
      R (publishPages s spaceKey root parentId pages) (publishPages s' spaceKey root parentId pages)
  | _, [] => h.pure ()
  | parentId, page :: pages => by
      rw [publishPages, publishPages]
      refine h.bind (publishPage_related h spaceKey root parentId page) fun _ => ?_
      exact publishPages_related h spaceKey root parentId pages

end

/-- Publishing a tree is related in two sessions whose steps are. -/
theorem publish_related (h : StepsRelated R s s') (metadata : Metadata) (root : Path) :
    R (publish ⟨s, metadata, root⟩) (publish ⟨s', metadata, root⟩) :=
  publishPages_related h metadata.spaceKey root metadata.parentId metadata.pages

end Publisher

end PageTree
