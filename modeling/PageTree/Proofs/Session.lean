import PageTree.Publisher
import PageTree.Proofs.Run
import PageTree.Proofs.Basic

/-!
# What creating a page and uploading a file come to

Each operation of a session prepares one request, sends it and concludes from what comes back. The request
depends on the files and on the arguments alone (`pagePost`, `attachmentPost`); the conclusion depends on
the response alone (`Response.accepted`, `Response.identified`). The theorems about `createPage` and
`uploadAttachment` put the parts together: with no request there is a fault and nothing was sent, and with
one it was sent once and the response decides.
-/

set_option autoImplicit false

namespace PageTree

/-! ## Before a request -/

namespace FileSystem

/-- What is in a file, or the fault of a run that asks for it. -/
def contentAt (fs : FileSystem) (p : Path) (unreadable : Cause → Failure) : Except Fault Bytes :=
  match fs.read p with
  | .ok content => .ok content
  | .error (.path fault) => .error (.crash (.path fault))
  | .error (.file fault) => .error (.failure (unreadable (.file fault)))

/-- The text in a file, or the fault of a run that asks for it. -/
def textAt (fs : FileSystem) (p : Path) (unreadable : Cause → Failure) : Except Fault Text :=
  match fs.contentAt p unreadable with
  | .ok content =>
    match Utf8.decode? content with
    | some s => .ok (Text.unifyLines s)
    | none => .error (.failure (unreadable .notUtf8))
  | .error fault => .error fault

variable {fs : FileSystem} {p : Path} {unreadable : Cause → Failure}

/-- The bytes of a file are what is read from it. -/
theorem contentAt_eq_ok {content : Bytes} :
    fs.contentAt p unreadable = .ok content ↔ fs.read p = .ok content := by
  unfold contentAt
  split <;> simp_all

/-- The text of a file is what its bytes are in UTF-8, with all line ends written as line feeds. -/
theorem textAt_eq_ok {content : Text} :
    fs.textAt p unreadable = .ok content ↔
      ∃ bytes s, fs.read p = .ok bytes ∧ Utf8.decode? bytes = some s ∧ Text.unifyLines s = content := by
  constructor
  · intro h
    unfold textAt at h
    cases hcontent : fs.contentAt p unreadable with
    | error fault => simp [hcontent] at h
    | ok bytes =>
        cases hs : Utf8.decode? bytes with
        | none => simp [hcontent, hs] at h
        | some s =>
            simp only [hcontent, hs, Except.ok.injEq] at h
            exact ⟨bytes, s, contentAt_eq_ok.mp hcontent, hs, h⟩
  · rintro ⟨bytes, s, hread, hs, rfl⟩
    unfold textAt
    simp only [contentAt_eq_ok.mpr hread, hs]

end FileSystem

namespace Run

variable (p : Path) (unreadable : Cause → Failure) (w : World)

/-- Asking for a file changes nothing. -/
theorem readFile_apply : readFile p unreadable w = ending (w.files.contentAt p unreadable) w := by
  show (match w.files.read p with
    | .ok content => Pure.pure content
    | .error (.path fault) => crash (.path fault)
    | .error (.file fault) => fail (unreadable (.file fault)) : Run Bytes) w = _
  unfold FileSystem.contentAt
  cases w.files.read p with
  | ok content => rfl
  | error fault => cases fault <;> rfl

/-- Reading the text of a file comes to what the files determine, and changes nothing. -/
theorem readText_apply : readText p unreadable w = ending (w.files.textAt p unreadable) w := by
  unfold readText FileSystem.textAt
  rw [bind_apply, readFile_apply]
  cases w.files.contentAt p unreadable with
  | error fault => rfl
  | ok content =>
      dsimp only [ending]
      cases Utf8.decode? content <;> rfl

/-- Reading the bytes of a file sends nothing and comes to what the files determine. -/
theorem readFile_performs :
    Performs (readFile p unreadable) w ([], w.files.contentAt p unreadable) :=
  ⟨w, .refl w, readFile_apply p unreadable w⟩

/-- Reading the text of a file sends nothing and comes to what the files determine. -/
theorem readText_performs :
    Performs (readText p unreadable) w ([], w.files.textAt p unreadable) :=
  ⟨w, .refl w, readText_apply p unreadable w⟩

end Run

namespace Session

variable (s : Session)

/-- The header fields that say who asks, or the fault of a run that needs them. -/
def authorizationFields : Except Fault Headers :=
  match s.credentials? with
  | none => .ok []
  | some (user, key) =>
    match basicAuthorization? user key with
    | some value => .ok [(text "Authorization", value)]
    | none => .error (.crash .credentials)

/-- The request that creates a page, or the fault of a run that needs it. -/
def pagePost (spaceKey title content : Text) (parentId : Option Text) : Except Fault Post :=
  match payload pageRequestKind (pageRequest spaceKey title content parentId).toValue with
  | .error failure => .error (.failure failure)
  | .ok body => s.authorizationFields.map fun fields => .page s.pagesUrl (pageHeaders ++ fields) body

/-- The request that uploads a file, or the fault of a run that needs it. -/
def attachmentPost (pageId : Text) (path : Path) (content : Bytes) : Except Fault Post :=
  s.authorizationFields.map fun fields =>
    .attachment (s.attachmentsUrl pageId) (attachmentHeaders ++ fields) path.name
      (MediaType.ofName path.name) content

variable {s} in
/-- A request for a page carries the JSON form of the page, and the header fields that say who asks. -/
theorem pagePost_eq_ok {spaceKey title content : Text} {parentId : Option Text} {post : Post} :
    s.pagePost spaceKey title content parentId = .ok post ↔
      Json.obstacle? Json.maxNesting (pageRequest spaceKey title content parentId).toValue = none ∧
        ∃ fields, s.authorizationFields = .ok fields ∧
          Post.page s.pagesUrl (pageHeaders ++ fields)
            (Json.write (pageRequest spaceKey title content parentId).toValue) = post := by
  unfold pagePost payload Json.print
  cases Json.obstacle? Json.maxNesting (pageRequest spaceKey title content parentId).toValue with
  | some o => simp
  | none => simp [map_eq_ok]

variable {s} in
/-- A request for an attachment carries the bytes of the file and the name of the file. -/
theorem attachmentPost_eq_ok {pageId : Text} {path : Path} {content : Bytes} {post : Post} :
    s.attachmentPost pageId path content = .ok post ↔
      ∃ fields, s.authorizationFields = .ok fields ∧
        Post.attachment (s.attachmentsUrl pageId) (attachmentHeaders ++ fields) path.name
          (MediaType.ofName path.name) content = post := by
  simp [attachmentPost, map_eq_ok]

/-- Asking for them changes nothing. -/
theorem authorization_apply (w : World) :
    s.authorization w = Run.ending s.authorizationFields w := by
  unfold authorization authorizationFields
  cases s.credentials? with
  | none => rfl
  | some credentials =>
      obtain ⟨user, key⟩ := credentials
      dsimp only
      cases basicAuthorization? user key <;> rfl

/-- Signing sends nothing and comes to what the session determines. -/
theorem authorization_performs (w : World) :
    Performs s.authorization w ([], s.authorizationFields) :=
  ⟨w, .refl w, s.authorization_apply w⟩

end Session

/-! ## After a request -/

namespace Response

/-- The answer of a server that has accepted a request, or the failure of the request. -/
def accepted (p : Post) : Response → Except Failure (Status × Bytes)
  | .answer status body =>
    if status.code ≠ 200 then .error (.requestRefused p.activity status) else .ok (status, body)
  | .unreachable kind explanation => .error (.requestNotSent p.url kind explanation)

/-- The identifier of a new page, or the failure to create it. -/
def identified (p : Post) (r : Response) : Except Failure Text :=
  match r.accepted p with
  | .ok (status, body) => Session.identifier status body
  | .error failure => .error failure

/-- An answer yields an identifier just if it gives one to the new page. -/
theorem identified_eq_ok {p : Post} {r : Response} {id : Text} :
    r.identified p = .ok id ↔ r.identifier? = some id := by
  cases r with
  | unreachable kind explanation => simp [identified, accepted, identifier?]
  | answer status body =>
      by_cases hcode : status.code = 200
      · simp only [identified, accepted, identifier?, hcode, ne_eq, not_true_eq_false, if_false,
          if_true, Session.identifier]
        cases Json.read? Json.lenient (Utf8.decodeLossy body) with
        | none => simp
        | some v =>
            cases v with
            | object members =>
                dsimp only
                split <;> simp_all
            | _ => simp
      · simp [identified, accepted, identifier?, hcode]

/-- A response lets a run go on just if it is accepted. -/
theorem accepted_isOk (p : Post) (r : Response) : (r.accepted p).isOk = r.isAccepted := by
  cases r with
  | unreachable kind explanation => rfl
  | answer status body =>
      by_cases hcode : status.code = 200 <;>
        simp [accepted, isAccepted, hcode, Except.isOk, Except.toBool]

end Response

namespace Session

/-- An answer, held open, or the failure of a request. -/
def held (p : Post) (r : Response) (resource : Resource) : Except Fault Answer :=
  match r.accepted p with
  | .ok (status, body) => .ok ⟨status, body, resource⟩
  | .error failure => .error (.failure failure)

/-- Sending a request holds an answer open only if the server has accepted the request. -/
theorem send_performs (p : Post) (w : World) :
    ∃ resource, Performs (send p) w ([p], held p (w.server.respond p.activity) resource) := by
  refine ⟨.response w.openedCount, ?_⟩
  have hsend := send_apply p w
  have hsent := Sent.send w p
  unfold held
  cases hresponse : w.server.respond p.activity with
  | unreachable kind explanation =>
      rw [hresponse] at hsend
      exact ⟨w.send p, hsent, hsend⟩
  | answer status body =>
      rw [hresponse] at hsend
      have hreceived := hsent.trans (Sent.receive (w.send p) body)
      by_cases hcode : status.code ≠ 200
      · simp only [Response.accepted, hcode, ne_eq, not_false_eq_true, ↓reduceIte] at hsend ⊢
        have hreleased := hreceived.trans
          (Sent.note ((w.send p).receive body) (e := .released (.response w.openedCount)) rfl)
        exact ⟨_, hreleased, hsend⟩
      · simp only [Response.accepted, hcode, ↓reduceIte] at hsend ⊢
        exact ⟨_, hreceived, hsend⟩

variable {s : Session}

/-- Taking a value or failing sends nothing. -/
theorem orFail_performs {α : Type} (e : Except Failure α) (w : World) :
    Performs (orFail e) w ([], e.mapError .failure) := by
  cases e with
  | error failure => exact .fault _ w
  | ok a => exact .pure a w

/-- What creating a page does once its request is ready. -/
theorem sendPage_performs (p : Post) (w : World) :
    Performs
      (do
        let answer ← send p
        let id ← Run.ensuring (orFail (identifier answer.status answer.body))
          (Run.release answer.resource)
        Run.log .debug (text "Created page with ID: " ++ id)
        return id)
      w ([p], ((w.server.respond p.activity).identified p).mapError .failure) := by
  obtain ⟨resource, hsend⟩ := send_performs p w
  unfold held at hsend
  unfold Response.identified
  cases haccepted : (w.server.respond p.activity).accepted p with
  | error failure =>
      rw [haccepted] at hsend
      exact hsend.bind_error _
  | ok answer =>
      obtain ⟨status, body⟩ := answer
      rw [haccepted] at hsend
      -- The request is behind us: what is left reads the answer and sends nothing.
      refine hsend.bind_quiet fun w₁ => ?_
      have hid := (orFail_performs (identifier status body) w₁).ensuring resource
      dsimp only
      cases hidentifier : identifier status body with
      | error failure =>
          rw [hidentifier] at hid
          exact hid.bind_error _
      | ok id =>
          rw [hidentifier] at hid
          refine hid.bind_ok fun w₂ _ => ?_
          exact (Performs.note w₂ rfl).bind_ok fun w₃ _ => .pure id w₃

/-- Creating a page takes one request, unless there is a fault before it. -/
theorem createPage_performs (spaceKey title content : Text) (parentId : Option Text) (w : World) :
    Performs (s.createPage spaceKey title content parentId) w
      (match s.pagePost spaceKey title content parentId with
        | .ok p => ([p], ((w.server.respond .creatingPage).identified p).mapError .failure)
        | .error fault => ([], .error fault)) := by
  unfold createPage pagePost
  refine (Performs.note w rfl).bind_ok fun w₁ hsent₁ => ?_
  have hbody := orFail_performs
    (payload pageRequestKind (pageRequest spaceKey title content parentId).toValue) w₁
  cases hpayload : payload pageRequestKind (pageRequest spaceKey title content parentId).toValue with
  | error failure =>
      rw [hpayload] at hbody
      exact hbody.bind_error _
  | ok body =>
      rw [hpayload] at hbody
      refine hbody.bind_ok fun w₂ hsent₂ => ?_
      have hfields := s.authorization_performs w₂
      cases hauthorization : s.authorizationFields with
      | error fault =>
          rw [hauthorization] at hfields
          exact hfields.bind_error _
      | ok fields =>
          rw [hauthorization] at hfields
          refine hfields.bind_ok fun w₃ hsent₃ => ?_
          have hserver : w₃.server = w.server := by
            rw [hsent₃.server, hsent₂.server, hsent₁.server]
            rfl
          have hsend := sendPage_performs (.page s.pagesUrl (pageHeaders ++ fields) body) w₃
          rw [hserver] at hsend
          exact hsend

/-- What uploading a file does while the file is open. -/
theorem sendAttachment_performs (pageId : Text) (path : Path) (content : Bytes) (w : World) :
    ∃ resource, Performs
      (do
        Run.log .info (text "Uploading attachment: " ++ path.name)
        let authorization ← s.authorization
        send (.attachment (s.attachmentsUrl pageId) (attachmentHeaders ++ authorization) path.name
          (MediaType.ofName path.name) content))
      w
      (match s.attachmentPost pageId path content with
        | .ok p => ([p], held p (w.server.respond .uploadingAttachment) resource)
        | .error fault => ([], .error fault)) := by
  obtain ⟨w₁, hsent₁, hlog⟩ : Performs
      (Run.log .info (text "Uploading attachment: " ++ path.name)) w ([], .ok ()) := .note w rfl
  obtain ⟨w₂, hsent₂, hfields⟩ := s.authorization_performs w₁
  have hserver : w₂.server = w.server := by
    rw [hsent₂.server, hsent₁.server]
    rfl
  unfold attachmentPost
  cases hauthorization : s.authorizationFields with
  | error fault =>
      rw [hauthorization] at hfields
      exact ⟨.response 0, .of_ok hlog hsent₁
        (Performs.bind_error ⟨w₂, hsent₂, hfields⟩ _)⟩
  | ok fields =>
      rw [hauthorization] at hfields
      obtain ⟨resource, hsend⟩ := send_performs
        (.attachment (s.attachmentsUrl pageId) (attachmentHeaders ++ fields) path.name
          (MediaType.ofName path.name) content) w₂
      rw [hserver] at hsend
      exact ⟨resource, .of_ok hlog hsent₁ (.of_ok hfields hsent₂ hsend)⟩

/-- Uploading a file takes one request, unless there is a fault before it. -/
theorem uploadAttachment_performs (pageId : Text) (path : Path) (w : World) :
    Performs (s.uploadAttachment pageId path) w
      (match (w.files.contentAt path (.attachmentUnreadable path)).bind
          (s.attachmentPost pageId path) with
        | .ok p =>
          ([p], (((w.server.respond .uploadingAttachment).accepted p).map fun _ => ()).mapError
            .failure)
        | .error fault => ([], .error fault)) := by
  have hfile := Run.readFile_performs path (.attachmentUnreadable path) w
  unfold uploadAttachment
  cases hcontent : w.files.contentAt path (.attachmentUnreadable path) with
  | error fault =>
      rw [hcontent] at hfile
      exact hfile.bind_error _
  | ok content =>
      rw [hcontent] at hfile
      refine hfile.bind_ok fun w₁ hsent₁ => ?_
      refine (Performs.acquire .file w₁).bind_ok fun w₂ hsent₂ => ?_
      have hserver : w₂.server = w.server := by
        rw [hsent₂.server, hsent₁.server]
        rfl
      obtain ⟨resource, hsend⟩ := sendAttachment_performs (s := s) pageId path content w₂
      have hclosed := hsend.ensuring (.file w₁.openedCount)
      rw [hserver] at hclosed
      show Performs _ w₂ (match s.attachmentPost pageId path content with
        | .ok p => _
        | .error fault => _)
      cases hpost : s.attachmentPost pageId path content with
      | error fault =>
          rw [hpost] at hclosed
          exact hclosed.bind_error _
      | ok p =>
          rw [hpost] at hclosed
          unfold held at hclosed
          dsimp only at hclosed ⊢
          cases haccepted : (w.server.respond .uploadingAttachment).accepted p with
          | error failure =>
              rw [haccepted] at hclosed
              exact hclosed.bind_error _
          | ok answer =>
              rw [haccepted] at hclosed
              exact hclosed.bind_quiet fun w₃ => .note w₃ rfl

end Session

end PageTree
