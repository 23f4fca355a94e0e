import PageTree.Proofs.Payload
import PageTree.Proofs.Outline

/-!
# Publishing as a list of items

Publishing is a recursion over a tree of pages that passes identifiers down. Seen from the server it is a
list: one request for each page and each attachment, in the order of the outline. `Publisher.rehearse` goes
through that list and nothing else. All it remembers are the pages created so far, each with its depth and
its identifier, the latest first; the page above a page of depth `d` is the latest one of depth `d - 1`
(`Publisher.parentFor`).

`publish_performs` says that publishing does what the rehearsal does. The invariant behind it: when the
recursion is at depth `d`, the identifier that it has been passed is the one that `parentFor` finds for
depth `d`. It is kept because what is created on the way is never higher than `d`.
-/

set_option autoImplicit false

namespace PageTree

/-! ## Items -/

/-- What one request is sent for: a page with its depth, or an attachment with its path. -/
inductive Item
  | page (depth : Int) (page : Page)
  | attachment (path : Text)

namespace Item

/-- What the request for an item is sent for. -/
def activity : Item → Activity
  | .page _ _ => .creatingPage
  | .attachment _ => .uploadingAttachment

/-- The path of the file that the request for an item carries, as the tree spells it. -/
def path : Item → Text
  | .page _ p => p.contentPath
  | .attachment path => path

end Item

/-- The items of an outline: each page is followed by its attachments. -/
def items (entries : List (Int × Page)) : List Item :=
  entries.flatMap fun e => .page e.1 e.2 :: e.2.attachments.map .attachment

/-- The items of two outlines, one behind the other, are those of the first and then those of the second. -/
theorem items_append (a b : List (Int × Page)) : items (a ++ b) = items a ++ items b :=
  List.flatMap_append

/-- The items of an outline are its first page, then the attachments of that page, then the other items. -/
theorem items_cons (depth : Int) (page : Page) (rest : List (Int × Page)) :
    items ((depth, page) :: rest) =
      .page depth page :: (page.attachments.map .attachment ++ items rest) := rfl

/-- The pages created so far, the latest first: their depths and their identifiers. -/
abbrev Created := List (Int × Text)

/-- The identifier of the page created last. -/
def Created.latest (created : Created) : Text := (created.head?.map Prod.snd).getD []

namespace Publisher

variable (p : Publisher)

/-- The path of a file, as the tree spells it, seen from the directory of the tree. -/
def locate (path : Text) : Path := p.contentRoot.join (Path.ofText path)

/-- The identifier of the page above a page of a depth: the latest one of the depth above, and the page
above the whole tree if there is none. -/
def parentFor (created : Created) (depth : Int) : Option Text :=
  match created.find? fun c => c.1 = depth - 1 with
  | some c => some c.2
  | none => p.metadata.parentId

/-- The request for an item, or the fault of a run that needs it. -/
def prepare (files : FileSystem) (created : Created) : Item → Except Fault Post
  | .page depth page =>
    (files.textAt (p.locate page.contentPath) (.contentUnreadable (p.locate page.contentPath))).bind
      fun content =>
        p.session.pagePost p.metadata.spaceKey page.title content (p.parentFor created depth)
  | .attachment path =>
    (files.contentAt (p.locate path) (.attachmentUnreadable (p.locate path))).bind
      (p.session.attachmentPost created.latest (p.locate path))

end Publisher

/-- The pages created once an item has been replied to, or the failure of its request. -/
def Item.conclude (created : Created) (post : Post) (r : Response) : Item → Except Failure Created
  | .page depth _ => (r.identified post).map fun id => (depth, id) :: created
  | .attachment _ => (r.accepted post).map fun _ => created

namespace Item

variable {created : Created} {post : Post} {r : Response}

/-- A page is remembered with its depth by the identifier that the response gives. -/
theorem conclude_page {id : Text} (h : r.identifier? = some id) (depth : Int) (p : Page) :
    (Item.page depth p).conclude created post r = .ok ((depth, id) :: created) := by
  rw [conclude, Response.identified_eq_ok.mpr h]
  rfl

/-- An accepted attachment leaves what is remembered as it is. -/
theorem conclude_attachment (h : r.isAccepted = true) (path : Text) :
    (Item.attachment path).conclude created post r = .ok created := by
  rw [← Response.accepted_isOk post r] at h
  obtain ⟨answer, haccepted⟩ := isOk_iff.mp h
  rw [conclude, haccepted]
  rfl

end Item

namespace Publisher

variable (p : Publisher)

/-- What publishing items comes to: the requests, and the pages created at the end or the fault. -/
def rehearse (files : FileSystem) :
    Server → Created → List Item → List Post × Except Fault Created
  | _, created, [] => ([], .ok created)
  | v, created, item :: rest =>
    match p.prepare files created item with
    | .error fault => ([], .error fault)
    | .ok post =>
      andThen ([post], (item.conclude created post (v.respond item.activity)).mapError .failure)
        fun created => rehearse files (v.next item.activity) created rest

/-- Where nothing is left to do, nothing is sent. -/
theorem rehearse_nil (files : FileSystem) (v : Server) (created : Created) :
    p.rehearse files v created [] = ([], .ok created) := rfl

/-- An item that cannot be prepared ends the rehearsal before its request. -/
theorem rehearse_cons_of_fault {files : FileSystem} {v : Server} {created : Created} {item : Item}
    {fault : Fault} (hprepare : p.prepare files created item = .error fault) (rest : List Item) :
    p.rehearse files v created (item :: rest) = ([], .error fault) := by
  rw [rehearse, hprepare]

/-- A response of no use ends the rehearsal behind its request. -/
theorem rehearse_cons_of_failure {files : FileSystem} {v : Server} {created : Created} {item : Item}
    {post : Post} {failure : Failure} (hprepare : p.prepare files created item = .ok post)
    (hconclude : item.conclude created post (v.respond item.activity) = .error failure)
    (rest : List Item) :
    p.rehearse files v created (item :: rest) = ([post], .error (.failure failure)) := by
  rw [rehearse, hprepare]
  dsimp only
  rw [hconclude]
  rfl

/-- A useful response lets the rehearsal go on with what is remembered after it. -/
theorem rehearse_cons_of_ok {files : FileSystem} {v : Server} {created next : Created} {item : Item}
    {post : Post} (hprepare : p.prepare files created item = .ok post)
    (hconclude : item.conclude created post (v.respond item.activity) = .ok next)
    (rest : List Item) :
    p.rehearse files v created (item :: rest) =
      (post :: (p.rehearse files (v.next item.activity) next rest).1,
        (p.rehearse files (v.next item.activity) next rest).2) := by
  rw [rehearse, hprepare]
  dsimp only
  rw [hconclude]
  rfl

/-- Everything that can happen at an item: there is no request, its request fails, or it is followed by
the other items. -/
theorem rehearse_cases (files : FileSystem) (v : Server) (created : Created) (item : Item) :
    (∃ fault, p.prepare files created item = .error fault) ∨
    (∃ post failure, p.prepare files created item = .ok post ∧
      item.conclude created post (v.respond item.activity) = .error failure) ∨
    (∃ post next, p.prepare files created item = .ok post ∧
      item.conclude created post (v.respond item.activity) = .ok next) := by
  cases hprepare : p.prepare files created item with
  | error fault => exact .inl ⟨fault, rfl⟩
  | ok post =>
      right
      cases hconclude : item.conclude created post (v.respond item.activity) with
      | error failure => exact .inl ⟨post, failure, rfl, hconclude⟩
      | ok next => exact .inr ⟨post, next, rfl, hconclude⟩

/-- The requests for items: there are none, or there is one for the first item, and the other ones are for
the other items once the first request has gone well. -/
theorem rehearse_cases_sent (files : FileSystem) (v : Server) (created : Created) (item : Item)
    (rest : List Item) :
    (p.rehearse files v created (item :: rest)).1 = [] ∨
      ∃ post ps, p.prepare files created item = .ok post ∧
        (p.rehearse files v created (item :: rest)).1 = post :: ps ∧
          (ps = [] ∨ ∃ next, item.conclude created post (v.respond item.activity) = .ok next ∧
            ps = (p.rehearse files (v.next item.activity) next rest).1) := by
  rcases p.rehearse_cases files v created item with
    ⟨fault, hprepare⟩ | ⟨post, failure, hprepare, hconclude⟩ | ⟨post, next, hprepare, hconclude⟩
  · left
    rw [rehearse_cons_of_fault p hprepare]
  · right
    refine ⟨post, [], hprepare, ?_, .inl rfl⟩
    rw [rehearse_cons_of_failure p hprepare hconclude]
  · right
    refine ⟨post, _, hprepare, ?_, .inr ⟨next, hconclude, rfl⟩⟩
    rw [rehearse_cons_of_ok p hprepare hconclude]

/-- Items are published one after the other. -/
theorem rehearse_append (files : FileSystem) (v : Server) (created : Created) (a b : List Item) :
    p.rehearse files v created (a ++ b) =
      andThen (p.rehearse files v created a) fun created' =>
        p.rehearse files (v.after (a.map Item.activity)) created' b := by
  induction a generalizing v created with
  | nil => rfl
  | cons item rest ih =>
      rw [List.cons_append, List.map_cons]
      rcases p.rehearse_cases files v created item with
        ⟨fault, hprepare⟩ | ⟨post, failure, hprepare, hconclude⟩ | ⟨post, next, hprepare, hconclude⟩
      · rw [rehearse_cons_of_fault p hprepare, rehearse_cons_of_fault p hprepare, andThen_error]
      · rw [rehearse_cons_of_failure p hprepare hconclude,
          rehearse_cons_of_failure p hprepare hconclude, andThen_error]
      · rw [rehearse_cons_of_ok p hprepare hconclude, rehearse_cons_of_ok p hprepare hconclude, ih,
          Server.after_cons]
        cases p.rehearse files (v.next item.activity) next rest with
        | mk ps ending => cases ending <;> rfl

end Publisher

namespace Publisher

variable {p : Publisher}

/-- Pages of other depths do not come between a page and the page above it. -/
theorem parentFor_append {new created : Created} {depth : Int} (h : ∀ c ∈ new, depth ≤ c.1) :
    p.parentFor (new ++ created) depth = p.parentFor created depth := by
  have hnone : new.find? (fun c => c.1 = depth - 1) = none := by
    rw [List.find?_eq_none]
    intro c hc
    have hdepth := h c hc
    simp only [decide_eq_true_eq]
    omega
  unfold parentFor
  rw [List.find?_append, hnone]
  rfl

/-- The page created last is the one above the pages of the next depth. -/
theorem parentFor_cons (id : Text) (created : Created) (depth : Int) :
    p.parentFor ((depth, id) :: created) (depth + 1) = some id := by
  unfold parentFor
  rw [List.find?_cons_of_pos (by simp)]

/-- The request for an item is sent for what the item is. -/
theorem activity_of_prepare {files : FileSystem} {created : Created} {item : Item} {post : Post}
    (h : p.prepare files created item = .ok post) : post.activity = item.activity := by
  cases item with
  | page depth page =>
      obtain ⟨content, -, hpost⟩ := bind_eq_ok.mp h
      obtain ⟨-, fields, -, rfl⟩ := Session.pagePost_eq_ok.mp hpost
      rfl
  | attachment path =>
      obtain ⟨content, -, hpost⟩ := bind_eq_ok.mp h
      obtain ⟨fields, -, rfl⟩ := Session.attachmentPost_eq_ok.mp hpost
      rfl

/-- In a rehearsal that comes to its end there was one request for each item, in the same order. -/
theorem activities_of_rehearse {files : FileSystem} {todo : List Item} {v : Server}
    {created final : Created} {ps : List Post}
    (h : p.rehearse files v created todo = (ps, .ok final)) :
    ps.map Post.activity = todo.map Item.activity := by
  induction todo generalizing v created ps with
  | nil =>
      obtain ⟨rfl, -⟩ := Prod.mk.inj h
      rfl
  | cons item rest ih =>
      rcases p.rehearse_cases files v created item with
        ⟨fault, hprepare⟩ | ⟨post, failure, hprepare, hconclude⟩ | ⟨post, next, hprepare, hconclude⟩
      · simp [rehearse_cons_of_fault p hprepare] at h
      · simp [rehearse_cons_of_failure p hprepare hconclude] at h
      · rw [rehearse_cons_of_ok p hprepare hconclude] at h
        obtain ⟨rfl, hending⟩ := Prod.mk.inj h
        rw [List.map_cons, List.map_cons, activity_of_prepare hprepare]
        exact congrArg (_ :: ·) (ih (Prod.ext rfl hending))

/-- Each request of a rehearsal was prepared for one of the items. -/
theorem prepared_of_mem_rehearse {files : FileSystem} {todo : List Item} {v : Server} {created : Created}
    {post : Post} (h : post ∈ (p.rehearse files v created todo).1) :
    ∃ item ∈ todo, ∃ before, p.prepare files before item = .ok post := by
  induction todo generalizing v created with
  | nil => cases h
  | cons item rest ih =>
      rcases p.rehearse_cases_sent files v created item rest with
        hnone | ⟨first, ps, hprepare, hsent, hrest⟩
      · rw [hnone] at h
        cases h
      · rw [hsent] at h
        rcases List.mem_cons.mp h with rfl | hlater
        · exact ⟨item, List.mem_cons_self, created, hprepare⟩
        · rcases hrest with rfl | ⟨next, -, rfl⟩
          · cases hlater
          · obtain ⟨other, hother, hprepared⟩ := ih hlater
            exact ⟨other, List.mem_cons_of_mem item hother, hprepared⟩

/-! ## The recursion and the list -/

/-- The requests of a rehearsal, and whether it comes to an end. -/
def silent (r : List Post × Except Fault Created) : List Post × Except Fault Unit :=
  (r.1, r.2.map fun _ => ())

/-- A value that does not matter after a second step does not matter within it. -/
theorem silent_andThen {α : Type} (r : List Post × Except Fault α)
    (f : α → List Post × Except Fault Created) :
    silent (andThen r f) = andThen r fun a => silent (f a) := by
  obtain ⟨ps, ending⟩ := r
  cases ending <;> rfl

/-- A run for an item, with something behind it, does what rehearsing does with the item and the items
behind it: it takes the request for the item, and what it yields stands for the pages created so far. -/
theorem item_then {α : Type} (item : Item) (yielded : Post → Except Failure α)
    (toCreated : α → Created) {x : Run α} {next : α → Run Unit} {w : World} {created : Created}
    {todo : List Item}
    (hx : Performs x w
      (match p.prepare w.files created item with
        | .ok post => ([post], (yielded post).mapError .failure)
        | .error fault => ([], .error fault)))
    (hyielded : ∀ post, item.conclude created post (w.server.respond item.activity) =
      (yielded post).map toCreated)
    (hnext : ∀ a w', Performs (next a) w'
      (silent (p.rehearse w'.files w'.server (toCreated a) todo))) :
    Performs (x >>= next) w (silent (p.rehearse w.files w.server created (item :: todo))) := by
  rw [rehearse]
  cases hprepare : p.prepare w.files created item with
  | error fault =>
      rw [hprepare] at hx
      exact hx.bind_error _
  | ok post =>
      rw [hprepare] at hx
      -- What comes next starts from the files as they were and from the server behind this request.
      have hrun := hx.bind fun a w' hsent => by
        have hnext := hnext a w'
        rw [hsent.files, hsent.server] at hnext
        exact hnext
      dsimp only
      rw [hyielded, silent_andThen]
      simp only [List.map_cons, List.map_nil, Server.after_cons, Server.after_nil,
        activity_of_prepare hprepare] at hrun
      cases hresult : yielded post with
      | error failure =>
          rw [hresult] at hrun
          exact hrun
      | ok a =>
          rw [hresult] at hrun
          exact hrun

/-- Creating a page, with everything behind it, does what rehearsing does with the page and the other
items. -/
theorem createPage_then (page : Page) {created : Created} {depth : Int} {w : World}
    {todo : List Item} {next : Text → Run Unit}
    (h : ∀ id w', Performs (next id) w'
      (silent (p.rehearse w'.files w'.server ((depth, id) :: created) todo))) :
    Performs
      (do
        let content ← readContent (p.locate page.contentPath)
        let id ← p.session.createPage p.metadata.spaceKey page.title content
          (p.parentFor created depth)
        next id)
      w (silent (p.rehearse w.files w.server created (.page depth page :: todo))) := by
  have hread := Run.readText_performs (p.locate page.contentPath)
    (.contentUnreadable (p.locate page.contentPath)) w
  rw [← bind_assoc]
  refine item_then (.page depth page)
    (fun post => (w.server.respond .creatingPage).identified post)
    (fun id => (depth, id) :: created) ?_ (fun _ => rfl) h
  unfold prepare readContent
  dsimp only
  cases hcontent : w.files.textAt (p.locate page.contentPath)
      (.contentUnreadable (p.locate page.contentPath)) with
  | error fault =>
      rw [hcontent] at hread
      exact hread.bind_error _
  | ok content =>
      rw [hcontent] at hread
      refine hread.bind_ok fun w₁ hsent => ?_
      have hcreate := p.session.createPage_performs p.metadata.spaceKey page.title content
        (p.parentFor created depth) w₁
      rw [hsent.server] at hcreate
      exact hcreate

/-- Uploading an attachment, with everything behind it, does what rehearsing does with the attachment and
the other items. -/
theorem uploadAttachment_then {created : Created} {path : Text} {w : World} {todo : List Item}
    {next : Run Unit}
    (h : ∀ w', Performs next w' (silent (p.rehearse w'.files w'.server created todo))) :
    Performs
      (do
        p.session.uploadAttachment created.latest (p.locate path)
        next)
      w (silent (p.rehearse w.files w.server created (.attachment path :: todo))) := by
  refine item_then (.attachment path)
    (fun post => ((w.server.respond .uploadingAttachment).accepted post).map fun _ => ())
    (fun _ => created)
    (p.session.uploadAttachment_performs created.latest (p.locate path) w) (fun post => ?_)
    fun _ => h
  show ((w.server.respond .uploadingAttachment).accepted post).map _ = _
  cases (w.server.respond .uploadingAttachment).accepted post <;> rfl

/-- So do the uploads of all attachments of a page. -/
theorem uploadAll_then (created : Created) {attachments : List Text} {w : World}
    {todo : List Item} {next : Run Unit}
    (h : ∀ w', Performs next w' (silent (p.rehearse w'.files w'.server created todo))) :
    Performs
      (do
        uploadAll p.session p.contentRoot created.latest attachments
        next)
      w (silent (p.rehearse w.files w.server created (attachments.map .attachment ++ todo))) := by
  induction attachments generalizing w with
  | nil => exact h w
  | cons path rest ih =>
      rw [uploadAll, bind_assoc]
      exact uploadAttachment_then fun w' => ih

/-- Publishing a page with something behind it, one step after the other. -/
theorem publishPage_bind (session : Session) (spaceKey : Text) (root : Path) (parentId : Option Text)
    (title contentPath : Text) (attachments : List Text) (children : List Page) (next : Run Unit) :
    (do
      publishPage session spaceKey root parentId ⟨title, contentPath, attachments, children⟩
      next) =
    (do
      let content ← readContent (root.join (Path.ofText contentPath))
      let id ← session.createPage spaceKey title content parentId
      uploadAll session root id attachments
      publishPages session spaceKey root (some id) children
      next) := by
  simp only [publishPage, bind_assoc]

/-- Publishing pages is publishing the first one and then the others, whatever comes behind. -/
theorem publishPages_bind (session : Session) (spaceKey : Text) (root : Path)
    (parentId : Option Text) (page : Page) (pages : List Page) (next : Run Unit) :
    (do
      publishPages session spaceKey root parentId (page :: pages)
      next) =
    (do
      publishPage session spaceKey root parentId page
      publishPages session spaceKey root parentId pages
      next) := by
  simp only [publishPages, bind_assoc]

/-- What comes behind pages of a depth and everything below them goes on as the rehearsal goes on. -/
def Follows (p : Publisher) (depth : Int) (created : Created) (todo : List Item) (next : Run Unit) :
    Prop :=
  ∀ (new : Created) (w : World), (∀ c ∈ new, depth ≤ c.1) →
    Performs next w (silent (p.rehearse w.files w.server (new ++ created) todo))

mutual

/-- A page with everything below it and everything behind it. -/
theorem publishPage_then (depth : Int) (created : Created) (w : World) (todo : List Item)
    (next : Run Unit) (hnext : Follows p depth created todo next) : (page : Page) →
    Performs
      (do
        publishPage p.session p.metadata.spaceKey p.contentRoot (p.parentFor created depth) page
        next)
      w (silent (p.rehearse w.files w.server created (items (page.outline depth) ++ todo)))
  | ⟨title, contentPath, attachments, children⟩ => by
      rw [publishPage_bind, Page.outline, items_cons, List.cons_append, List.append_assoc]
      refine createPage_then ⟨title, contentPath, attachments, children⟩ fun id w₁ => ?_
      refine uploadAll_then ((depth, id) :: created) fun w₂ => ?_
      -- The pages below are one level deeper, where the page just created is the one above.
      rw [← p.parentFor_cons id created depth]
      refine publishPages_then (depth + 1) ((depth, id) :: created) w₂ todo next ?_ children
      intro new w₃ hnew
      have hlast := hnext (new ++ [(depth, id)]) w₃ fun c hc => by
        rcases List.mem_append.mp hc with hc | hc
        · have hdepth := hnew c hc
          omega
        · exact Int.le_of_eq (congrArg Prod.fst (List.mem_singleton.mp hc)).symm
      rwa [List.append_assoc] at hlast

/-- If what follows the pages does what the rehearsal does with the other items, then so do the pages together
with it. -/
theorem publishPages_then (depth : Int) (created : Created) (w : World) (todo : List Item)
    (next : Run Unit) (hnext : Follows p depth created todo next) : (pages : List Page) →
    Performs
      (do
        publishPages p.session p.metadata.spaceKey p.contentRoot (p.parentFor created depth) pages
        next)
      w (silent (p.rehearse w.files w.server created (items (outline depth pages) ++ todo)))
  | [] => hnext [] w (by simp)
  | page :: pages => by
      rw [publishPages_bind, outline, items_append, List.append_assoc]
      refine publishPage_then depth created w _ _ ?_ page
      intro new w₁ hnew
      -- Nothing that the first page has brought is higher than it, so its siblings have the same parent.
      rw [← p.parentFor_append hnew]
      refine publishPages_then depth (new ++ created) w₁ todo next ?_ pages
      intro more w₂ hmore
      have hlast := hnext (more ++ new) w₂ fun c hc => by
        rcases List.mem_append.mp hc with hc | hc
        · exact hmore c hc
        · exact hnew c hc
      rwa [List.append_assoc] at hlast

end

/-- Publishing a tree does what rehearsing its items does. -/
theorem publish_performs (p : Publisher) (w : World) :
    Performs p.publish w
      (silent (p.rehearse w.files w.server [] (items (outline 0 p.metadata.pages)))) := by
  have hrun := publishPages_then (p := p) 0 [] w [] (pure ()) (fun _ w' _ => .pure () w')
    p.metadata.pages
  rw [List.append_nil, bind_pure_unit] at hrun
  exact hrun

/-- The requests of a run are those of the rehearsal. -/
theorem publish_sent (p : Publisher) (w : World) :
    p.publish.sent w = (p.rehearse w.files w.server [] (items (outline 0 p.metadata.pages))).1 :=
  (p.publish_performs w).sent_eq

/-- The requests of a run of publishing that create pages, each with what comes back for it. -/
def creations (p : Publisher) (w : World) : List (Post × Response) :=
  w.server.creations (p.publish.sent w)

/-! ## What the requests are -/

/-- A request creates a page: it goes to the URL for new pages, and it says the title of the page, the space
of the tree and the text of the page's content file. -/
def Creates (p : Publisher) (files : FileSystem) (page : Page) (post : Post) : Prop :=
  ∃ headers payload bytes s,
    post = .page (p.session.apiUrl ++ text "/content") headers payload ∧
      files.read (p.locate page.contentPath) = .ok bytes ∧ Utf8.decode? bytes = some s ∧
        post.Carries p.metadata.spaceKey page.title (Text.unifyLines s)

/-- A request uploads a file to a page: it goes to the URL for attachments of the page, and it carries the
bytes of the file and the last part of its path. -/
def Uploads (p : Publisher) (files : FileSystem) (id path : Text) (post : Post) : Prop :=
  ∃ headers mediaType content,
    post = .attachment (p.session.apiUrl ++ text "/content/" ++ id ++ text "/child/attachment")
      headers (p.locate path).name mediaType content ∧ files.read (p.locate path) = .ok content

/-- A prepared page creates the page, and names the page above that the rehearsal remembers. -/
theorem creates_of_prepare {files : FileSystem} {created : Created} {depth : Int} {page : Page}
    {post : Post} (h : p.prepare files created (.page depth page) = .ok post) :
    p.Creates files page post ∧ post.ancestors? = ancestorsBelow (p.parentFor created depth) := by
  obtain ⟨content, htext, hpost⟩ := bind_eq_ok.mp h
  obtain ⟨bytes, s, hread, hdecode, rfl⟩ := FileSystem.textAt_eq_ok.mp htext
  refine ⟨?_, Session.pagePost_ancestors? hpost⟩
  have hcarries := Session.pagePost_carries hpost
  obtain ⟨-, fields, -, rfl⟩ := Session.pagePost_eq_ok.mp hpost
  exact ⟨_, _, bytes, s, rfl, hread, hdecode, hcarries⟩

/-- A prepared attachment uploads its file to the page created last. -/
theorem uploads_of_prepare {files : FileSystem} {created : Created} {path : Text} {post : Post}
    (h : p.prepare files created (.attachment path) = .ok post) :
    p.Uploads files created.latest path post := by
  obtain ⟨content, hcontent, hpost⟩ := bind_eq_ok.mp h
  obtain ⟨fields, -, rfl⟩ := Session.attachmentPost_eq_ok.mp hpost
  exact ⟨_, _, content, rfl, FileSystem.contentAt_eq_ok.mp hcontent⟩

end Publisher

/-! ## A small tree -/

/-- A reply that gives an identifier to a new page. -/
def Reply.creating (id : Text) : Reply :=
  .answer Session.accepted
    ((text "\x7b\"id\": \"" ++ id ++ text "\"\x7d").flatMap Utf8.unit)

/-- A tree of three pages: `A` with a file attached and `B` below it, and `C`. -/
def smallTree : Publisher where
  session := ⟨text "http://wiki", none, none⟩
  metadata :=
    { spaceKey := text "S"
      pages :=
        [⟨text "A", text "a", [text "f"], [⟨text "B", text "b", [], []⟩]⟩,
          ⟨text "C", text "c", [], []⟩]
      parentId := none }
  contentRoot := ⟨.slash, []⟩

/-- The files of the small tree, and a server that accepts all requests and gives the page `A` an
identifier. -/
def smallWorld (id : Text) : World :=
  World.start
    ⟨.directory
      [([97], .file [65]), ([98], .file [66]), ([99], .file [67]), ([102], .file [0, 255])], ⟨.slash, []⟩⟩
    [.creating id, .answer Session.accepted [], .creating (text "2"), .creating (text "3")]

end PageTree
