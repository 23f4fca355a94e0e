import PageTree.Proofs.FailStop
import PageTree.Proofs.FileSystem.Nameable
import PageTree.Proofs.MetadataFile

/-!
# Which ends of publishing are foreseen

Publishing is meant to end with a value or with a failure that it can report. Two things it does not foresee:
a path in the tree that no file can have, and credentials that have no UTF-8 form. `publish_isForeseen_iff`
says that these are all, and when they show: just if publishing gets as far as an item with such a path, or
as far as a request that lacks nothing but its signature.
-/

set_option autoImplicit false

namespace PageTree

/-- A run ends with a value or with a failure of the expected kinds, and not with a crash. -/
def Run.IsForeseen {α : Type} (good : α → Prop) (known : Failure → Prop) (x : Run α) (w : World) :
    Prop :=
  match x w with
  | .ok a _ => good a
  | .error (.failure f) _ => known f
  | .error (.crash _) _ => False

/-- The failures to publish a tree: a file cannot be read, a request cannot be written, cannot be sent or is
refused, or an answer is of no use. -/
inductive Failure.IsOfPublishing : Failure → Prop
  | content (path : Path) (cause : Cause) : IsOfPublishing (.contentUnreadable path cause)
  | attachment (path : Path) (cause : Cause) : IsOfPublishing (.attachmentUnreadable path cause)
  | payload (kind : Text) (obstacle : Json.Obstacle) : IsOfPublishing (.payloadRefused kind obstacle)
  | notSent (url kind explanation : Text) : IsOfPublishing (.requestNotSent url kind explanation)
  | refused (activity : Activity) (status : Status) : IsOfPublishing (.requestRefused activity status)
  | malformed (status : Status) : IsOfPublishing (.answerMalformed status)
  | noIdentifier (status : Status) : IsOfPublishing (.identifierMissing status)

/-! ## Files -/

namespace FileSystem

section

variable (fs : FileSystem) (p : Path) (unreadable : Cause → Failure)

/-- Only a path that no file can have is refused as a path. -/
theorem read_eq_path_iff : (∃ fault, fs.read p = .error (.path fault)) ↔ p.isNameable = false := by
  rw [← pathBytes_eq_path_iff]
  unfold read
  cases hbytes : pathBytes p with
  | error fault => simp
  | ok names =>
      dsimp only
      constructor
      · rintro ⟨fault, hfault⟩
        cases htop : fs.top with
        | file content => simp [htop] at hfault
        | directory entries =>
            simp only [htop] at hfault
            split at hfault <;> cases hfault
      · rintro ⟨fault, hfault⟩
        cases hfault

/-- Reading the bytes of a file crashes just if its path cannot be given to the system. -/
theorem contentAt_eq_crash_iff :
    (∃ c, fs.contentAt p unreadable = .error (.crash c)) ↔ p.isNameable = false := by
  rw [← read_eq_path_iff fs p]
  unfold contentAt
  cases hread : fs.read p with
  | ok content => simp
  | error fault => cases fault <;> simp

/-- Reading the text of a file crashes just if its path cannot be given to the system. -/
theorem textAt_eq_crash_iff :
    (∃ c, fs.textAt p unreadable = .error (.crash c)) ↔ p.isNameable = false := by
  rw [← contentAt_eq_crash_iff fs p unreadable]
  unfold textAt
  cases fs.contentAt p unreadable with
  | error fault => simp
  | ok content =>
      dsimp only
      cases Utf8.decode? content <;> simp

end

variable {fs : FileSystem} {p : Path} {unreadable : Cause → Failure}

/-- A file that cannot be read makes the failure that is meant for it. -/
theorem contentAt_eq_failure {failure : Failure}
    (h : fs.contentAt p unreadable = .error (.failure failure)) :
    ∃ cause, failure = unreadable cause := by
  unfold contentAt at h
  split at h
  · cases h
  · cases h
  · next fault _ =>
      simp only [Except.error.injEq, Fault.failure.injEq] at h
      exact ⟨.file fault, h.symm⟩

/-- A file whose text cannot be read is reported in the way that was given for it. -/
theorem textAt_eq_failure {failure : Failure}
    (h : fs.textAt p unreadable = .error (.failure failure)) :
    ∃ cause, failure = unreadable cause := by
  unfold textAt at h
  split at h
  · split at h
    · cases h
    · simp only [Except.error.injEq, Fault.failure.injEq] at h
      exact ⟨.notUtf8, h.symm⟩
  · next hcontent =>
      obtain rfl := Except.error.inj h
      exact contentAt_eq_failure hcontent

end FileSystem

/-! ## Requests -/

namespace Session

variable {s : Session}

/-- Whether the credentials of a session, if it has both, have a UTF-8 form. -/
def canSign (s : Session) : Bool :=
  match s.credentials? with
  | none => true
  | some (user, key) => !Text.hasSurrogate (user ++ text ":" ++ key)

/-- A session signs its requests or crashes in the attempt. -/
theorem authorizationFields_cases (s : Session) :
    (s.canSign = true ∧ ∃ fields, s.authorizationFields = .ok fields) ∨
      (s.canSign = false ∧ s.authorizationFields = .error (.crash .credentials)) := by
  unfold canSign authorizationFields
  cases s.credentials? with
  | none => exact .inl ⟨rfl, [], rfl⟩
  | some credentials =>
      obtain ⟨user, key⟩ := credentials
      dsimp only
      unfold basicAuthorization? Utf8.encode?
      cases hsurrogate : Text.hasSurrogate (user ++ text ":" ++ key) with
      | true => exact .inr ⟨rfl, rfl⟩
      | false => exact .inl ⟨rfl, _, rfl⟩

/-- A request for a page crashes if it could be written and cannot be signed. -/
theorem pagePost_eq_crash_iff (s : Session) (spaceKey title content : Text) (parentId : Option Text) :
    (∃ c, s.pagePost spaceKey title content parentId = .error (.crash c)) ↔
      Json.obstacle? Json.maxNesting (pageRequest spaceKey title content parentId).toValue = none ∧
        s.canSign = false := by
  unfold pagePost payload Json.print
  cases Json.obstacle? Json.maxNesting (pageRequest spaceKey title content parentId).toValue with
  | some o => simp
  | none =>
      rcases s.authorizationFields_cases with ⟨hsign, fields, hfields⟩ | ⟨hsign, hfields⟩
      · simp [hfields, hsign, Except.map]
      · simp [hfields, hsign, Except.map]

/-- The request for a page fails only because it is refused by the writer. -/
theorem pagePost_eq_failure {spaceKey title content : Text} {parentId : Option Text}
    {failure : Failure} (h : s.pagePost spaceKey title content parentId = .error (.failure failure)) :
    ∃ kind obstacle, failure = .payloadRefused kind obstacle := by
  unfold pagePost payload at h
  split at h
  · next hpayload =>
      simp only [Except.error.injEq, Fault.failure.injEq] at h
      subst h
      split at hpayload
      · cases hpayload
      · obtain rfl := Except.error.inj hpayload
        exact ⟨_, _, rfl⟩
  · rcases s.authorizationFields_cases with ⟨-, fields, hfields⟩ | ⟨-, hfields⟩
    · simp [hfields, Except.map] at h
    · simp [hfields, Except.map] at h

/-- The request for an attachment is made just if the session can sign it, and crashes otherwise. -/
theorem attachmentPost_cases (s : Session) (pageId : Text) (path : Path) (content : Bytes) :
    (s.canSign = true ∧ ∃ post, s.attachmentPost pageId path content = .ok post) ∨
      (s.canSign = false ∧ s.attachmentPost pageId path content = .error (.crash .credentials)) := by
  unfold attachmentPost
  rcases s.authorizationFields_cases with ⟨hsign, fields, hfields⟩ | ⟨hsign, hfields⟩
  · exact .inl ⟨hsign, _, by rw [hfields]; rfl⟩
  · exact .inr ⟨hsign, by rw [hfields]; rfl⟩

end Session

/-! ## Items -/

/-- The failures to prepare a request that carries the file at a path: the file cannot be read, or the page
has no JSON form. -/
inductive Failure.IsOfPreparing (path : Path) : Failure → Prop
  | content (cause : Cause) : IsOfPreparing path (.contentUnreadable path cause)
  | attachment (cause : Cause) : IsOfPreparing path (.attachmentUnreadable path cause)
  | payload (kind : Text) (obstacle : Json.Obstacle) : IsOfPreparing path (.payloadRefused kind obstacle)

/-- A failure in preparing an item is one of publishing. -/
theorem Failure.IsOfPreparing.isOfPublishing {path : Path} {failure : Failure}
    (h : failure.IsOfPreparing path) : failure.IsOfPublishing := by
  cases h with
  | content cause => exact .content path cause
  | attachment cause => exact .attachment path cause
  | payload kind obstacle => exact .payload kind obstacle

/-- If such a failure names a path, it is that of the file. -/
theorem Failure.IsOfPreparing.path_eq {path other : Path} {failure : Failure}
    (h : failure.IsOfPreparing path) (hother : failure.path? = some other) : other = path := by
  cases h with
  | payload kind obstacle => cases hother
  | _ => exact (Option.some.inj hother).symm

/-- The failure that a response calls for is one of publishing. -/
theorem Failure.IsOf.isOfPublishing {post : Post} {r : Response} {failure : Failure}
    (h : failure.IsOf post r) : failure.IsOfPublishing := by
  cases r with
  | unreachable kind explanation => exact h ▸ .notSent _ _ _
  | answer status body =>
      change failure.status? = some status at h
      cases failure with
      | requestRefused activity status => exact .refused _ _
      | answerMalformed status => exact .malformed _
      | identifierMissing status => exact .noIdentifier _
      | _ => cases h

/-- It names no file. -/
theorem Failure.IsOf.path? {post : Post} {r : Response} {failure : Failure} (h : failure.IsOf post r) :
    failure.path? = none := by
  cases h.isOfPublishing with
  | content path cause | attachment path cause => cases r <;> cases h
  | _ => rfl

/-- A response of no use fails in the way that belongs to its request. -/
theorem Item.isOf_of_conclude {item : Item} {created : Created} {post : Post} {r : Response}
    {failure : Failure} (h : item.conclude created post r = .error failure) : failure.IsOf post r := by
  cases item with
  | page depth page =>
      cases hidentified : r.identified post with
      | ok id => simp [conclude, hidentified, Except.map] at h
      | error other =>
          simp only [conclude, hidentified, Except.map, Except.error.injEq] at h
          exact h ▸ Response.isOf_of_identified hidentified
  | attachment path =>
      cases haccepted : r.accepted post with
      | ok answer => simp [conclude, haccepted, Except.map] at h
      | error other =>
          simp only [conclude, haccepted, Except.map, Except.error.injEq] at h
          exact h ▸ Response.isOf_of_accepted haccepted

namespace Publisher

variable {p : Publisher} {files : FileSystem} {created : Created} {item : Item}

/-- The request for an item lacks nothing but its signature: its file can be read, and for a page, the page
has a JSON form. -/
def IsReady (p : Publisher) (files : FileSystem) (created : Created) : Item → Prop
  | .page depth page =>
    ∃ content, files.textAt (p.locate page.contentPath)
        (.contentUnreadable (p.locate page.contentPath)) = .ok content ∧
      Json.obstacle? Json.maxNesting (pageRequest p.metadata.spaceKey page.title content
        (p.parentFor created depth)).toValue = none
  | .attachment path => ∃ content, files.read (p.locate path) = .ok content

/-- There are two reasons why a request cannot be prepared and nothing can be reported. -/
theorem prepare_eq_crash_iff (p : Publisher) (files : FileSystem) (created : Created) (item : Item) :
    (∃ c, p.prepare files created item = .error (.crash c)) ↔
      (p.locate item.path).isNameable = false ∨
        (p.IsReady files created item ∧ p.session.canSign = false) := by
  cases item with
  | page depth page =>
      have hname := FileSystem.textAt_eq_crash_iff files (p.locate page.contentPath)
        (.contentUnreadable (p.locate page.contentPath))
      simp only [Item.path, IsReady, ← hname, prepare]
      cases files.textAt (p.locate page.contentPath)
          (.contentUnreadable (p.locate page.contentPath)) with
      | error fault => cases fault <;> simp [Except.bind]
      | ok content =>
          have hpost := p.session.pagePost_eq_crash_iff p.metadata.spaceKey page.title content
            (p.parentFor created depth)
          simp only [Except.bind, reduceCtorEq, exists_false, false_or, Except.ok.injEq,
            exists_eq_left']
          exact hpost
  | attachment path =>
      have hname := FileSystem.contentAt_eq_crash_iff files (p.locate path)
        (.attachmentUnreadable (p.locate path))
      have hread (content : Bytes) : files.read (p.locate path) = .ok content ↔
          files.contentAt (p.locate path) (.attachmentUnreadable (p.locate path)) = .ok content :=
        FileSystem.contentAt_eq_ok.symm
      simp only [Item.path, IsReady, ← hname, prepare, hread]
      cases files.contentAt (p.locate path) (.attachmentUnreadable (p.locate path)) with
      | error fault => cases fault <;> simp [Except.bind]
      | ok content =>
          rcases p.session.attachmentPost_cases created.latest (p.locate path) content with
            ⟨hsign, post, hpost⟩ | ⟨hsign, hpost⟩
          · simp [Except.bind, hpost, hsign]
          · simp [Except.bind, hpost, hsign]

/-- What is reported of an item that cannot be prepared is a failure of preparing it. -/
theorem isOfPreparing_of_prepare {failure : Failure}
    (h : p.prepare files created item = .error (.failure failure)) :
    failure.IsOfPreparing (p.locate item.path) := by
  cases item with
  | page depth page =>
      unfold prepare at h
      dsimp only at h
      cases htext : files.textAt (p.locate page.contentPath)
          (.contentUnreadable (p.locate page.contentPath)) with
      | ok content =>
          rw [htext] at h
          obtain ⟨kind, obstacle, rfl⟩ := Session.pagePost_eq_failure h
          exact .payload kind obstacle
      | error fault =>
          rw [htext] at h
          obtain rfl := Except.error.inj h
          obtain ⟨cause, rfl⟩ := FileSystem.textAt_eq_failure htext
          exact .content cause
  | attachment path =>
      unfold prepare at h
      dsimp only at h
      cases hcontent : files.contentAt (p.locate path) (.attachmentUnreadable (p.locate path)) with
      | ok content =>
          rw [hcontent] at h
          rcases p.session.attachmentPost_cases created.latest (p.locate path) content with
            ⟨-, post, hpost⟩ | ⟨-, hpost⟩
          · cases hpost.symm.trans h
          · cases hpost.symm.trans h
      | error fault =>
          rw [hcontent] at h
          obtain rfl := Except.error.inj h
          obtain ⟨cause, rfl⟩ := FileSystem.contentAt_eq_failure hcontent
          exact .attachment cause

/-! ## Runs -/

/-- Where a rehearsal stops: at an item for which there is no request, or whose request fails. All items
before it have gone well. -/
theorem stop_of_rehearse {todo : List Item} {v : Server} {created : Created} {ps : List Post}
    {fault : Fault} (h : p.rehearse files v created todo = (ps, .error fault)) :
    ∃ before item after qs middle, todo = before ++ item :: after ∧
      p.rehearse files v created before = (qs, .ok middle) ∧
      (p.prepare files middle item = .error fault ∨
        ∃ post r failure, failure.IsOf post r ∧ fault = .failure failure) := by
  -- On the items to come, for every state of the server: it moves on with each request.
  induction todo generalizing v created ps with
  | nil => cases (Prod.mk.inj h).2
  | cons item rest ih =>
      rcases p.rehearse_cases files v created item with
        ⟨other, hprepare⟩ | ⟨post, failure, hprepare, hconclude⟩ | ⟨post, next, hprepare, hconclude⟩
      · rw [rehearse_cons_of_fault p hprepare] at h
        obtain rfl := Except.error.inj (Prod.mk.inj h).2
        exact ⟨[], item, rest, [], created, rfl, rfl, .inl hprepare⟩
      · rw [rehearse_cons_of_failure p hprepare hconclude] at h
        obtain rfl := Except.error.inj (Prod.mk.inj h).2
        exact ⟨[], item, rest, [], created, rfl, rfl,
          .inr ⟨post, _, failure, Item.isOf_of_conclude hconclude, rfl⟩⟩
      · rw [rehearse_cons_of_ok p hprepare hconclude] at h
        obtain ⟨before, stop, after, qs, middle, rfl, hbefore, hstop⟩ :=
          ih (Prod.ext rfl (Prod.mk.inj h).2)
        refine ⟨item :: before, stop, after, post :: qs, middle, rfl, ?_, hstop⟩
        rw [rehearse_cons_of_ok p hprepare hconclude, hbefore]

/-- Publishing gets as far as an item: all items before it go well, and then it is the item's turn. -/
def Reaches (p : Publisher) (w : World) (item : Item) (created : Created) : Prop :=
  ∃ before after ps, items (outline 0 p.metadata.pages) = before ++ item :: after ∧
    p.rehearse w.files w.server [] before = (ps, .ok created)

/-- Publishing ends at an item that it gets as far as and for which there is no request. -/
theorem publish_of_prepare {w : World} {fault : Fault} (hreach : p.Reaches w item created)
    (hprepare : p.prepare w.files created item = .error fault) :
    ∃ aborted, p.publish w = .error fault aborted := by
  obtain ⟨before, after, ps, hitems, hbefore⟩ := hreach
  have hstop : p.rehearse w.files w.server [] (items (outline 0 p.metadata.pages)) =
      (ps ++ [], .error fault) := by
    rw [hitems, rehearse_append, hbefore, andThen_ok, rehearse_cons_of_fault p hprepare]
  obtain ⟨aborted, haborted, -, -⟩ := publish_of_rehearse hstop
  exact ⟨aborted, haborted⟩

/-- Publishing crashes just if it gets as far as an item for which preparing the request crashes. -/
theorem publish_isForeseen_iff_prepare (p : Publisher) (w : World) :
    p.publish.IsForeseen (fun _ => True) Failure.IsOfPublishing w ↔
      ∀ item created, p.Reaches w item created →
        ¬ ∃ c, p.prepare w.files created item = .error (.crash c) := by
  constructor
  · rintro hforeseen item created hreach ⟨c, hprepare⟩
    obtain ⟨aborted, haborted⟩ := publish_of_prepare hreach hprepare
    unfold Run.IsForeseen at hforeseen
    rw [haborted] at hforeseen
    exact hforeseen
  · intro hitems
    obtain ⟨-, hrun⟩ := (p.publish_performs w).last
    unfold Run.IsForeseen
    rw [hrun]
    cases hrehearsal : p.rehearse w.files w.server [] (items (outline 0 p.metadata.pages)) with
    | mk ps ending =>
        cases ending with
        | ok final => exact trivial
        | error fault =>
            obtain ⟨before, item, after, qs, created, hsplit, hbefore, hstop⟩ :=
              stop_of_rehearse hrehearsal
            -- A failure is one of publishing wherever it comes from; a crash comes from preparing alone.
            cases fault with
            | failure failure =>
                show failure.IsOfPublishing
                rcases hstop with hprepare | ⟨post, r, other, hother, heq⟩
                · exact (isOfPreparing_of_prepare hprepare).isOfPublishing
                · exact Fault.failure.inj heq ▸ hother.isOfPublishing
            | crash c =>
                rcases hstop with hprepare | ⟨-, -, other, -, heq⟩
                · exact (hitems item created ⟨before, after, qs, hsplit, hbefore⟩ ⟨c, hprepare⟩).elim
                · cases heq

/-- In every run, publishing returns or fails with one of the failures that are meant for it, just if each
item that it gets as far as has a path that a file can have, and the session can sign each request that
lacks nothing else. And a file that it gets as far as and that cannot be read makes a failure that names the
path of the file, just if a file can have that path. -/
theorem publish_isForeseen_iff (p : Publisher) (w : World) :
    (p.publish.IsForeseen (fun _ => True) Failure.IsOfPublishing w ↔
      ∀ item created, p.Reaches w item created → (p.locate item.path).isNameable = true ∧
        (p.IsReady w.files created item → p.session.canSign = true)) ∧
    ∀ item created fault, p.Reaches w item created →
      w.files.read (p.locate item.path) = .error fault →
      ((∃ failure aborted, p.publish w = .error (.failure failure) aborted ∧
          failure.path? = some (p.locate item.path)) ↔
        (p.locate item.path).isNameable = true) := by
  constructor
  · rw [publish_isForeseen_iff_prepare]
    refine forall_congr' fun item => forall_congr' fun created => imp_congr_right fun _ => ?_
    rw [prepare_eq_crash_iff, not_or, not_and, Bool.not_eq_false]
    simp only [Bool.not_eq_false]
  · intro item created fault hreach hread
    constructor
    · rintro ⟨failure, aborted, haborted, -⟩
      by_contra hname
      obtain ⟨c, hprepare⟩ := (prepare_eq_crash_iff p w.files created item).mpr
        (.inl (Bool.not_eq_true _ ▸ hname))
      obtain ⟨crashed, hcrashed⟩ := publish_of_prepare hreach hprepare
      rw [hcrashed] at haborted
      cases haborted
    · intro hname
      cases fault with
      | path fault =>
          have hnone := (FileSystem.read_eq_path_iff w.files _).mp ⟨fault, hread⟩
          exact absurd (hname.symm.trans hnone) (by decide)
      | file fault =>
          obtain ⟨failure, hprepare, hpath⟩ := prepare_of_unreadable hread created
          obtain ⟨aborted, haborted⟩ := publish_of_prepare hreach hprepare
          exact ⟨failure, aborted, haborted, hpath⟩

/-- A world in which the small tree lacks its attachment. -/
def worldWithoutAttachment : World :=
  { smallWorld (text "1") with
    files := (smallWorld (text "1")).files.remove (smallTree.locate (text "f")) }

/-- Publishing the small tree without its attachment gets as far as that, and the failure names its path. -/
theorem small_tree_without_attachment :
    smallTree.Reaches worldWithoutAttachment (.attachment (text "f")) [(0, text "1")] ∧
      worldWithoutAttachment.files.read (smallTree.locate (text "f")) = .error (.file .missing) ∧
      ∃ failure aborted, smallTree.publish worldWithoutAttachment = .error (.failure failure) aborted ∧
        failure.path? = some (smallTree.locate (text "f")) := by
  have hcreated : (smallTree.rehearse worldWithoutAttachment.files worldWithoutAttachment.server []
      ((items (outline 0 smallTree.metadata.pages)).take 1)).2.toOption = some [(0, text "1")] := by
    decide +kernel
  have hreach : smallTree.Reaches worldWithoutAttachment (.attachment (text "f")) [(0, text "1")] := by
    refine ⟨(items (outline 0 smallTree.metadata.pages)).take 1,
      (items (outline 0 smallTree.metadata.pages)).drop 2, ?_⟩
    generalize smallTree.rehearse _ _ _ _ = rehearsal at hcreated ⊢
    obtain ⟨ps, ending⟩ := rehearsal
    cases ending with
    | error fault => cases hcreated
    | ok created => exact ⟨ps, rfl, by rw [Option.some.inj hcreated]⟩
  have hread : worldWithoutAttachment.files.read (smallTree.locate (text "f")) =
      .error (.file .missing) := by
    decide +kernel
  obtain ⟨-, hpath⟩ := publish_isForeseen_iff smallTree worldWithoutAttachment
  exact ⟨hreach, hread, (hpath _ _ _ hreach hread).mpr (by decide +kernel)⟩

/-- A tree with one page. The path of its content holds the code U+0000, which JSON can write. -/
def nullPathFile : Bytes :=
  (text ("\x7b\"spaceKey\":\"S\",\"pages\":[\x7b\"title\":\"A\"," ++
    "\"contentFilePath\":\"a\\u0000\"\x7d]\x7d")).flatMap Utf8.unit

/-- Such a tree can be loaded, and then it cannot be published. -/
theorem loaded_tree_may_crash :
    ∃ p w, load ⟨text "http://wiki", none, none⟩ (.ofText (text "m.json"))
        (Metadata.worldWith (.ofText (text "m.json")) nullPathFile) = .ok p w ∧
      (∃ w', p.publish w = .error (.crash (.path .nullCode)) w') ∧
      ¬ p.publish.IsForeseen (fun _ => True) Failure.IsOfPublishing w := by
  have hcompletes : (load ⟨text "http://wiki", none, none⟩ (.ofText (text "m.json"))).completes
      (Metadata.worldWith (.ofText (text "m.json")) nullPathFile) = true := by
    decide +kernel
  have hfault : Run.fault? (load ⟨text "http://wiki", none, none⟩ (.ofText (text "m.json")) >>= publish)
      (Metadata.worldWith (.ofText (text "m.json")) nullPathFile) =
        some (.crash (.path .nullCode)) := by
    decide +kernel
  obtain ⟨p, w, hload⟩ := Run.completes_iff.mp hcompletes
  obtain ⟨w', hpublish⟩ := Run.fault?_eq_some.mp hfault
  rw [Run.bind_apply, hload] at hpublish
  change p.publish w = _ at hpublish
  refine ⟨p, w, hload, ⟨w', hpublish⟩, ?_⟩
  unfold Run.IsForeseen
  rw [hpublish]
  exact id

end Publisher

end PageTree
