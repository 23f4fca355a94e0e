import PageTree.Proofs.Ancestors
import PageTree.Proofs.Utf8
import Mathlib.Data.List.Forall2

/-!
# What is published

If the files of a tree can be read, and the server accepts every request, then publishing comes to its end,
and the requests are those of the outline: for each page the request that creates it and then one request
for each of its attachments (`publish_trace`).

The proof goes along the outline. What has to be known on the way is that a request can be written at all:
the identifier of the page above it is one of those that came back, and only the identifiers of pages with
pages below them are ever written.
-/

set_option autoImplicit false

namespace PageTree

namespace Publisher

/-! ## Conditions -/

/-- What the requests of a complete run are for. -/
def agenda (p : Publisher) : List Activity := (items (outline 0 p.metadata.pages)).map Item.activity

/-- The content file of a page is text in UTF-8, and its attachments can be opened. -/
structure IsReadable (p : Publisher) (files : FileSystem) (page : Page) : Prop where
  content : ∃ bytes s, files.read (p.locate page.contentPath) = .ok bytes ∧ Utf8.decode? bytes = some s
  attachments : ∀ path ∈ page.attachments, ∃ content, files.read (p.locate path) = .ok content

/-- A page is readable just if the text of its file and the bytes of all its attachments can be read. -/
theorem isReadable_iff {p : Publisher} {files : FileSystem} {page : Page} :
    p.IsReadable files page ↔
      (files.textAt (p.locate page.contentPath)
        (.contentUnreadable (p.locate page.contentPath))).isOk = true ∧
      ∀ path ∈ page.attachments, (files.read (p.locate path)).isOk = true := by
  constructor
  · rintro ⟨⟨bytes, s, hread, hdecode⟩, hattachments⟩
    exact ⟨isOk_iff.mpr ⟨_, FileSystem.textAt_eq_ok.mpr ⟨bytes, s, hread, hdecode, rfl⟩⟩,
      fun path hpath => isOk_iff.mpr (hattachments path hpath)⟩
  · rintro ⟨hcontent, hattachments⟩
    obtain ⟨content, hcontent⟩ := isOk_iff.mp hcontent
    obtain ⟨bytes, s, hread, hdecode, -⟩ := FileSystem.textAt_eq_ok.mp hcontent
    exact ⟨⟨bytes, s, hread, hdecode⟩, fun path hpath => isOk_iff.mp (hattachments path hpath)⟩

instance (p : Publisher) (files : FileSystem) (page : Page) : Decidable (p.IsReadable files page) :=
  decidable_of_iff _ isReadable_iff.symm

/-- No surrogate stands in what a run writes about a tree whose pages get the given identifiers. -/
structure IsPlain (p : Publisher) (ids : List Text) : Prop where
  spaceKey : p.metadata.spaceKey.hasSurrogate = false
  titles : ∀ e ∈ outline 0 p.metadata.pages, e.2.title.hasSurrogate = false
  parentId : ∀ id, p.metadata.parentId = some id → id.hasSurrogate = false
  identifiers : ∀ x ∈ (outline 0 p.metadata.pages).zip ids, x.1.2.children ≠ [] →
    x.2.hasSurrogate = false
  credentials : ∀ user key, p.session.credentials? = some (user, key) →
    user.hasSurrogate = false ∧ key.hasSurrogate = false

/-- The requests for a page: it is created, and then each of its attachments is uploaded to it. -/
def Publishes (p : Publisher) (files : FileSystem) (page : Page) (id : Text) (group : List Post) :
    Prop :=
  ∃ post uploads, group = post :: uploads ∧ p.Creates files page post ∧
    List.Forall₂ (p.Uploads files id) page.attachments uploads

variable {p : Publisher} {files : FileSystem} {fields : Headers}

/-! ## Items -/

/-- There is a request for a page with a readable content file and plain texts. -/
theorem prepare_page_of_plain {created : Created} {depth : Int} {page : Page} {bytes : Bytes} {s : Text}
    (hfields : p.session.authorizationFields = .ok fields)
    (hread : files.read (p.locate page.contentPath) = .ok bytes) (hdecode : Utf8.decode? bytes = some s)
    (hspace : p.metadata.spaceKey.hasSurrogate = false) (htitle : page.title.hasSurrogate = false)
    (hparent : ∀ id, p.parentFor created depth = some id → id.hasSurrogate = false) :
    ∃ post, p.prepare files created (.page depth page) = .ok post := by
  have hcontent : (Text.unifyLines s).hasSurrogate = false := by
    rw [Text.hasSurrogate_unifyLines, Utf8.decode?_hasSurrogate hdecode]
  obtain ⟨payload, hpost⟩ := Session.pagePost_of_plain hfields hspace htitle hcontent hparent
  exact ⟨_, bind_eq_ok.mpr ⟨_, FileSystem.textAt_eq_ok.mpr ⟨bytes, s, hread, hdecode, rfl⟩, hpost⟩⟩

/-- The request for an attachment that can be read is made if the session can sign it. -/
theorem prepare_attachment_of_plain {path : Text} {content : Bytes}
    (hfields : p.session.authorizationFields = .ok fields)
    (hread : files.read (p.locate path) = .ok content) (created : Created) :
    ∃ post, p.prepare files created (.attachment path) = .ok post :=
  ⟨_, bind_eq_ok.mpr ⟨content, FileSystem.contentAt_eq_ok.mpr hread,
    Session.attachmentPost_eq_ok.mpr ⟨fields, hfields, rfl⟩⟩⟩

/-- The attachments of a page are uploaded one after the other to the page created last. -/
theorem rehearse_attachments (hfields : p.session.authorizationFields = .ok fields)
    {paths : List Text} {v : Server} (created : Created)
    (hread : ∀ path ∈ paths, ∃ content, files.read (p.locate path) = .ok content)
    (haccepts : v.Accepts ((paths.map Item.attachment).map Item.activity)) :
    ∃ uploads, p.rehearse files v created (paths.map .attachment) = (uploads, .ok created) ∧
      List.Forall₂ (p.Uploads files created.latest) paths uploads := by
  induction paths generalizing v with
  | nil => exact ⟨[], rfl, .nil⟩
  | cons path rest ih =>
      obtain ⟨huseful, haccepts⟩ := Server.accepts_cons.mp haccepts
      obtain ⟨⟨content, hcontent⟩, hread⟩ := List.forall_mem_cons.mp hread
      obtain ⟨post, hprepare⟩ := prepare_attachment_of_plain hfields hcontent created
      obtain ⟨uploads, hrun, huploads⟩ := ih hread haccepts
      refine ⟨post :: uploads, ?_, .cons (uploads_of_prepare hprepare) huploads⟩
      rw [List.map_cons, rehearse_cons_of_ok p hprepare (Item.conclude_attachment huseful path)]
      exact congrArg (fun r => (post :: r.1, r.2)) hrun

/-- No identifier comes from attachments. -/
theorem identifiers_attachments (v : Server) (paths : List Text) :
    v.identifiers ((paths.map Item.attachment).map Item.activity) = [] := by
  induction paths generalizing v with
  | nil => rfl
  | cons path rest ih => exact ih (v.next .uploadingAttachment)

/-- A page is created, and then each of its attachments is uploaded to it. -/
theorem rehearse_page (created : Created) {v : Server} {depth : Int} {page : Page}
    (hfields : p.session.authorizationFields = .ok fields)
    (hspace : p.metadata.spaceKey.hasSurrogate = false) (htitle : page.title.hasSurrogate = false)
    (hreadable : p.IsReadable files page)
    (hparent : ∀ id, p.parentFor created depth = some id → id.hasSurrogate = false)
    (haccepts : v.Accepts ((items [(depth, page)]).map Item.activity)) :
    ∃ id group, p.rehearse files v created (items [(depth, page)]) =
        (group, .ok ((depth, id) :: created)) ∧
      v.identifiers ((items [(depth, page)]).map Item.activity) = [id] ∧
      p.Publishes files page id group := by
  have hitems : items [(depth, page)] = .page depth page :: page.attachments.map .attachment := by
    rw [items_cons]
    exact congrArg (_ :: ·) (List.append_nil _)
  rw [hitems, List.map_cons] at haccepts
  obtain ⟨huseful, haccepts⟩ := Server.accepts_cons.mp haccepts
  obtain ⟨id, hid⟩ := Option.isSome_iff_exists.mp huseful
  obtain ⟨bytes, s, hread, hdecode⟩ := hreadable.content
  obtain ⟨post, hprepare⟩ := prepare_page_of_plain hfields hread hdecode hspace htitle hparent
  obtain ⟨uploads, hrun, huploads⟩ :=
    rehearse_attachments hfields ((depth, id) :: created) hreadable.attachments haccepts
  refine ⟨id, post :: uploads, ?_, ?_, post, uploads, rfl, (creates_of_prepare hprepare).1, huploads⟩
  · rw [hitems, rehearse_cons_of_ok p hprepare (Item.conclude_page hid depth page), hrun]
  · rw [hitems, List.map_cons]
    refine (Server.identifiers_cons_page hid _).trans ?_
    rw [identifiers_attachments]

/-- Among the requests for an outline there is one for each page that creates it. -/
theorem count_items (entries : List (Int × Page)) :
    ((items entries).map Item.activity).count .creatingPage = entries.length := by
  induction entries with
  | nil => rfl
  | cons e rest ih =>
      obtain ⟨depth, page⟩ := e
      have hnone : ((page.attachments.map Item.attachment).map Item.activity).count .creatingPage = 0 := by
        rw [List.map_map, List.count_eq_zero]
        intro hmem
        obtain ⟨path, -, hpath⟩ := List.mem_map.mp hmem
        simp [Item.activity] at hpath
      rw [items_cons, List.map_cons, List.map_append]
      refine List.count_cons_self.trans ?_
      rw [List.count_append, hnone, ih, Nat.zero_add, List.length_cons]

/-! ## The outline -/

/-- The pages of an outline are published one after the other. -/
theorem rehearse_entries {entries : List (Int × Page)} {v : Server} (created : Created)
    (hfields : p.session.authorizationFields = .ok fields)
    (hspace : p.metadata.spaceKey.hasSurrogate = false)
    (htitles : ∀ e ∈ entries, e.2.title.hasSurrogate = false)
    (hreadable : ∀ e ∈ entries, p.IsReadable files e.2)
    (hparents : ∀ before d page rest, entries = before ++ (d, page) :: rest →
      ∀ id, p.parentFor (history before ((v.identifiers ((items entries).map Item.activity)).take
        before.length) ++ created) d = some id → id.hasSurrogate = false)
    (haccepts : v.Accepts ((items entries).map Item.activity)) :
    ∃ groups final, p.rehearse files v created (items entries) = (groups.flatten, .ok final) ∧
      List.Forall₂ (fun x group => p.Publishes files x.1.2 x.2 group)
        (entries.zip (v.identifiers ((items entries).map Item.activity))) groups := by
  induction entries generalizing v created with
  | nil => exact ⟨[], created, rfl, .nil⟩
  | cons e rest ih =>
      obtain ⟨depth, page⟩ := e
      have hitems : items ((depth, page) :: rest) = items [(depth, page)] ++ items rest :=
        items_append [(depth, page)] rest
      rw [hitems, List.map_append] at haccepts hparents ⊢
      rw [Server.identifiers_append] at hparents ⊢
      obtain ⟨hpage, haccepts⟩ := Server.accepts_append.mp haccepts
      obtain ⟨id, group, hrun, hid, hgroup⟩ := rehearse_page created hfields hspace
        (htitles _ List.mem_cons_self) (hreadable _ List.mem_cons_self)
        (hparents [] depth page rest rfl) hpage
      rw [hid, List.singleton_append] at hparents ⊢
      -- The pages behind this one look up their parents in a history that this page has been added to.
      obtain ⟨groups, final, hrest, hgroups⟩ := ih ((depth, id) :: created)
        (fun e he => htitles e (List.mem_cons_of_mem _ he))
        (fun e he => hreadable e (List.mem_cons_of_mem _ he))
        (fun before d q more hentries => by
          have hparent := hparents ((depth, page) :: before) d q more (by rw [hentries]; rfl)
          rwa [List.length_cons, List.take_succ_cons, history_cons] at hparent)
        haccepts
      refine ⟨group :: groups, final, ?_, .cons hgroup hgroups⟩
      rw [rehearse_append, hrun, andThen_ok, hrest, List.flatten_cons]

/-- If the files of a tree can be read, no text to be written holds a surrogate, and the server accepts each
request, giving an identifier to each page, then publishing comes to its end. What it adds to the trace of
requests are those of the pages of the outline, one group after the other and nothing else: page `j` gets
the identifier that came back for the request which created it, and its attachments go there. -/
theorem publish_trace (p : Publisher) (w : World)
    (hreadable : ∀ e ∈ outline 0 p.metadata.pages, p.IsReadable w.files e.2)
    (hplain : p.IsPlain (w.server.identifiers p.agenda)) (haccepts : w.server.Accepts p.agenda) :
    ∃ done ids groups, p.publish w = .ok () done ∧
      posts done.trace = posts w.trace ++ groups.flatten ∧
      ids.length = (outline 0 p.metadata.pages).length ∧
      (p.creations w).map (fun x => x.2.identifier?) = ids.map some ∧
      List.Forall₂ (fun x group => p.Publishes w.files x.1.2 x.2 group)
        ((outline 0 p.metadata.pages).zip ids) groups := by
  obtain ⟨fields, hfields⟩ := Session.authorizationFields_of_plain hplain.credentials
  have hlength : (w.server.identifiers p.agenda).length = (outline 0 p.metadata.pages).length := by
    rw [Server.length_identifiers haccepts, agenda, count_items]
  have hparents : ∀ before d page rest, outline 0 p.metadata.pages = before ++ (d, page) :: rest →
      ∀ id, p.parentFor (history before ((w.server.identifiers p.agenda).take before.length) ++ []) d =
        some id → id.hasSurrogate = false := by
    intro before d page rest hentries id hid
    have hbefore : before.length = ((w.server.identifiers p.agenda).take before.length).length := by
      rw [List.length_take, hlength, hentries]
      simp
    rw [List.append_nil] at hid
    rcases parentFor_history (p := p) hentries hbefore with
      ⟨-, htop⟩ | ⟨-, i, parent, above, habove, hi, hchild, habove', hlookup⟩
    · exact hplain.parentId id (htop.symm.trans hid)
    · obtain rfl := Option.some.inj (hlookup.symm.trans hid)
      -- The page above has a page below it, so its identifier is one of those that are written.
      rw [List.getElem?_take_of_lt habove.1] at habove'
      refine hplain.identifiers ((d - 1, parent), above) ?_ (List.ne_nil_of_mem hchild)
      exact List.mem_of_getElem? (List.getElem?_zip_eq_some.mpr ⟨hi, habove'⟩)
  obtain ⟨groups, final, hrun, hgroups⟩ := rehearse_entries [] hfields hplain.spaceKey hplain.titles
    hreadable hparents haccepts
  have hperforms := p.publish_performs w
  rw [hrun] at hperforms
  obtain ⟨hsent, hdone⟩ := hperforms.last
  refine ⟨_, _, groups, hdone, hsent.posts, hlength, ?_, hgroups⟩
  have hactivities : groups.flatten.map Post.activity = p.agenda := activities_of_rehearse hrun
  have hcreations := Server.creations_identifiers groups.flatten (v := w.server)
    (hactivities ▸ haccepts)
  rw [hactivities] at hcreations
  unfold creations
  rw [hperforms.sent_eq]
  exact hcreations

/-- The small tree is published in three groups of requests. -/
theorem small_tree_trace :
    (∀ e ∈ outline 0 smallTree.metadata.pages,
      smallTree.IsReadable (smallWorld (text "1")).files e.2) ∧
    smallTree.IsPlain
      ((smallWorld (text "1")).server.identifiers smallTree.agenda) ∧
    (smallWorld (text "1")).server.Accepts smallTree.agenda ∧
    ∃ (done : World) (groups : List (List Post)), smallTree.publish (smallWorld (text "1")) = .ok () done ∧
      posts done.trace = groups.flatten ∧ groups.length = 3 := by
  have hreadable : ∀ e ∈ outline 0 smallTree.metadata.pages,
      smallTree.IsReadable (smallWorld (text "1")).files e.2 := by
    decide +kernel
  have hids : ∀ x ∈ (outline 0 smallTree.metadata.pages).zip
      ((smallWorld (text "1")).server.identifiers smallTree.agenda),
      x.2.hasSurrogate = false := by decide +kernel
  have hplain : smallTree.IsPlain
      ((smallWorld (text "1")).server.identifiers smallTree.agenda) :=
    { spaceKey := by decide
      titles := by decide +kernel
      parentId := fun id hid => nomatch hid
      identifiers := fun x hx _ => hids x hx
      credentials := fun user key h => nomatch h }
  have haccepts : (smallWorld (text "1")).server.Accepts smallTree.agenda := by
    decide +kernel
  obtain ⟨done, ids, groups, hdone, hposts, hlength, -, hgroups⟩ :=
    publish_trace smallTree _ hreadable hplain haccepts
  refine ⟨hreadable, hplain, haccepts, done, groups, hdone, hposts, ?_⟩
  rw [← hgroups.length_eq, List.length_zip, hlength]
  rfl

end Publisher

end PageTree
