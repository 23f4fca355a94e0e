import PageTree.Proofs.Signature
import PageTree.Proofs.Steps

/-!
# What credentials can change

The user name and the key of a session go into one header field of its requests and nowhere else. To say so,
requests, events and worlds are looked at without that field (`unsigned`), and a run with credentials is
compared with the same run of a session that has none. The second run is a shadow of the first one: in the
world without signatures it does what the first one does, seen without signatures (`Shadows`). Runs one after
the other have their shadows one after the other (`Shadows.bind`), and so publishing has one
(`Publisher.publish_shadows`).

Two runs with different credentials have the same shadow, which is why nothing but that field can tell them
apart (`Publisher.publish_hides_credentials`).
-/

set_option autoImplicit false

namespace PageTree

/-! ## Without signatures -/

/-- Header fields, apart from the one that says who asks. -/
def Headers.unsigned (headers : Headers) : Headers := headers.filter fun h => h.1 ≠ text "Authorization"

/-- A request, apart from the header field that says who asks. -/
def Post.unsigned : Post → Post
  | .page url headers payload => .page url headers.unsigned payload
  | .attachment url headers name mediaType content =>
    .attachment url headers.unsigned name mediaType content

/-- An event, apart from the header field that says who asks. -/
def Event.unsigned : Event → Event
  | .posted p => .posted p.unsigned
  | e => e

/-- Without signatures, two lists of header fields are still one behind the other. -/
theorem Headers.unsigned_append (a b : Headers) : unsigned (a ++ b) = unsigned a ++ unsigned b :=
  List.filter_append a b

/-- The signature has no part in the URL of a request. -/
@[simp] theorem Post.url_unsigned (p : Post) : p.unsigned.url = p.url := by
  cases p <;> rfl

/-- The signature has no part in what a request is sent for. -/
@[simp] theorem Post.activity_unsigned (p : Post) : p.unsigned.activity = p.activity := by
  cases p <;> rfl

/-- The requests among events without signatures are the requests without signatures. -/
theorem posts_map_unsigned (trace : List Event) :
    posts (trace.map Event.unsigned) = (posts trace).map Post.unsigned := by
  induction trace with
  | nil => rfl
  | cons e rest ih =>
      cases e with
      | posted p => exact congrArg (p.unsigned :: ·) ih
      | _ => exact ih

/-- The signature has no part in the log. -/
theorem records_map_unsigned (trace : List Event) :
    records (trace.map Event.unsigned) = records trace := by
  induction trace with
  | nil => rfl
  | cons e rest ih =>
      cases e with
      | logged level message => exact congrArg ((level, message) :: ·) ih
      | _ => exact ih

namespace World

/-- A world as it looks if the header fields that say who asks are left out. -/
def unsigned (w : World) : World := { w with trace := w.trace.map Event.unsigned }

variable (w : World)

/-- The signature has no part in what the server will say. -/
@[simp] theorem server_unsigned : w.unsigned.server = w.server := rfl

/-- An event is noted without its signature in a world without signatures. -/
theorem unsigned_note (e : Event) : (w.note e).unsigned = w.unsigned.note e.unsigned := by
  simp [unsigned, note]

/-- A resource is opened alike in a world without signatures. -/
theorem unsigned_acquire (r : Resource) : (w.acquire r).unsigned = w.unsigned.acquire r := by
  simp [unsigned, acquire, Event.unsigned]

/-- A request is sent without its signature in a world without signatures. -/
theorem unsigned_send (p : Post) : (w.send p).unsigned = w.unsigned.send p.unsigned := by
  simp only [unsigned, send, List.map_append, List.map_singleton, Post.activity_unsigned]
  rfl

/-- An answer is taken in alike in a world without signatures. -/
theorem unsigned_receive (body : Bytes) : (w.receive body).unsigned = w.unsigned.receive body := by
  unfold receive
  split
  · rw [unsigned_note, unsigned_acquire]
    rfl
  · exact w.unsigned_acquire _

end World

/-! ## Shadows -/

section

variable {α β γ δ : Type}

/-- The end of a run as it looks without signatures. -/
def Run.unsignedEnd (view : α → β) : EStateM.Result Fault World α → EStateM.Result Fault World β
  | .ok a w => .ok (view a) w.unsigned
  | .error fault w => .error fault w.unsigned

/-- In a world without signatures the second run does what the first one does, seen without signatures. It
yields what a view makes of what the first one yields. -/
def Shadows (view : α → β) (x : Run α) (y : Run β) : Prop :=
  ∀ w : World, y w.unsigned = Run.unsignedEnd view (x w)

namespace Shadows

/-- A run that does nothing shadows itself, as far as the view of its value goes. -/
theorem pure (view : α → β) (a : α) : Shadows view (Pure.pure a) (Pure.pure (view a)) := fun _ => rfl

/-- A run that only ends with a fault shadows itself. -/
theorem fault (view : α → β) (f : Fault) : Shadows view (throw f) (throw f) := fun _ => rfl

/-- Noting an event that carries no signature shadows itself. -/
theorem note {e : Event} (he : e.unsigned = e) : Shadows id (Run.note e) (Run.note e) := by
  intro w
  show EStateM.Result.ok () (w.unsigned.note e) = .ok () (w.note e).unsigned
  rw [World.unsigned_note, he]

/-- Opening a resource shadows itself. -/
theorem acquire (make : Nat → Resource) : Shadows id (Run.acquire make) (Run.acquire make) := by
  intro w
  rw [Run.acquire_apply, Run.acquire_apply, Run.unsignedEnd, World.unsigned_acquire]
  rfl

/-- A run that only looks at the files shadows itself. -/
theorem of_ending {x : Run α} (ending : FileSystem → Except Fault α)
    (hx : ∀ w, x w = Run.ending (ending w.files) w) : Shadows id x x := by
  intro w
  rw [hx, hx]
  show Run.ending (ending w.files) w.unsigned = _
  cases ending w.files <;> rfl

/-- Two runs one after the other are shadowed step by step. -/
theorem bind {view : α → β} {view' : γ → δ} {x : Run α} {y : Run β} {f : α → Run γ} {g : β → Run δ}
    (hx : Shadows view x y) (hf : ∀ a, Shadows view' (f a) (g (view a))) :
    Shadows view' (x >>= f) (y >>= g) := by
  intro w
  rw [Run.bind_apply, Run.bind_apply, hx w]
  cases x w with
  | ok a w' => exact hf a w'
  | error fault w' => rfl

/-- A run that releases a resource at its end is shadowed by one that does the same. -/
theorem ensuring {view : α → β} {x : Run α} {y : Run β} (hx : Shadows view x y) (r : Resource) :
    Shadows view (Run.ensuring x (Run.release r)) (Run.ensuring y (Run.release r)) := by
  intro w
  have hreleased (w : World) : w.unsigned.note (.released r) = (w.note (.released r)).unsigned :=
    (w.unsigned_note (.released r)).symm
  unfold Run.ensuring
  rw [hx w]
  cases x w with
  | ok a w' => exact congrArg (EStateM.Result.ok (view a)) (hreleased w')
  | error fault w' => exact congrArg (EStateM.Result.error fault) (hreleased w')

end Shadows

end

/-! ## The operations of a session -/

/-- Reading the bytes of a file shadows itself. -/
theorem Run.readFile_shadows (p : Path) (unreadable : Cause → Failure) :
    Shadows id (readFile p unreadable) (readFile p unreadable) :=
  .of_ending (fun files => files.contentAt p unreadable) (readFile_apply p unreadable)

/-- Reading the text of a file shadows itself. -/
theorem Run.readText_shadows (p : Path) (unreadable : Cause → Failure) :
    Shadows id (readText p unreadable) (readText p unreadable) :=
  .of_ending (fun files => files.textAt p unreadable) (readText_apply p unreadable)

namespace Session

variable (s : Session)

/-- The session without its credentials. -/
def anonymous : Session := { s with userName := none, apiKey := none }

/-- Taking a value or failing shadows itself. -/
theorem orFail_shadows {α : Type} (e : Except Failure α) : Shadows id (orFail e) (orFail e) := by
  cases e with
  | ok a => exact .pure id a
  | error failure => exact .fault id _

variable {s} in
/-- Signing is shadowed by not signing, if the session can sign. -/
theorem authorization_shadows {fields : Headers} (hfields : s.authorizationFields = .ok fields) :
    Shadows Headers.unsigned s.authorization s.anonymous.authorization := by
  intro w
  rw [authorization_apply, authorization_apply, hfields]
  cases isSignature_iff.mpr hfields with
  | basic huser hkey hwords hvalue => rfl
  | unsigned hnone => rfl

/-- Sending a request is shadowed by sending it without its signature. -/
theorem send_shadows (p : Post) : Shadows id (send p) (send p.unsigned) := by
  intro w
  -- What comes back depends on what the request is for, and the signature says nothing about that.
  have hsent := w.unsigned_send p
  rw [send_apply, send_apply, Post.activity_unsigned, Post.url_unsigned, World.server_unsigned, ← hsent]
  cases w.server.respond p.activity with
  | unreachable kind explanation => rfl
  | answer status body =>
      have hreceived := (w.send p).unsigned_receive body
      have hreleased := ((w.send p).receive body).unsigned_note (.released (.response w.openedCount))
      dsimp only
      rw [← hreceived]
      split_ifs
      · exact congrArg _ hreleased.symm
      · rfl

variable {s} {fields : Headers}

/-- Creating a page is shadowed by creating it without credentials. -/
theorem createPage_shadows (hfields : s.authorizationFields = .ok fields)
    (spaceKey title content : Text) (parentId : Option Text) :
    Shadows id (s.createPage spaceKey title content parentId)
      (s.anonymous.createPage spaceKey title content parentId) := by
  unfold createPage
  refine (Shadows.note rfl).bind fun _ => (orFail_shadows _).bind fun body => ?_
  refine (authorization_shadows hfields).bind fun authorization => ?_
  have hsend := send_shadows (.page s.pagesUrl (pageHeaders ++ authorization) body)
  rw [Post.unsigned, Headers.unsigned_append] at hsend
  refine hsend.bind fun answer => ?_
  refine ((orFail_shadows _).ensuring answer.resource).bind fun id => ?_
  exact (Shadows.note rfl).bind fun _ => .pure _ id

/-- Uploading an attachment is shadowed by uploading it without credentials. -/
theorem uploadAttachment_shadows (hfields : s.authorizationFields = .ok fields) (pageId : Text)
    (path : Path) :
    Shadows id (s.uploadAttachment pageId path) (s.anonymous.uploadAttachment pageId path) := by
  unfold uploadAttachment
  refine (Run.readFile_shadows path _).bind fun content => ?_
  refine (Shadows.acquire .file).bind fun file => ?_
  refine Shadows.bind (Shadows.ensuring (?_ : Shadows id _ _) file) fun answer => .note rfl
  refine (Shadows.note rfl).bind fun _ => (authorization_shadows hfields).bind fun authorization => ?_
  have hsend := send_shadows (.attachment (s.attachmentsUrl pageId) (attachmentHeaders ++ authorization)
    path.name (MediaType.ofName path.name) content)
  rw [Post.unsigned, Headers.unsigned_append] at hsend
  exact hsend

end Session

/-! ## Publishing -/

namespace Publisher

variable {s : Session} {fields : Headers}

/-- Every step of publishing is shadowed by the same step without credentials. -/
theorem steps_shadow (hfields : s.authorizationFields = .ok fields) :
    StepsRelated (Shadows id) s s.anonymous where
  pure := Shadows.pure id
  bind := Shadows.bind
  readText := Run.readText_shadows
  createPage := Session.createPage_shadows hfields
  uploadAttachment := Session.uploadAttachment_shadows hfields

/-- The publisher, without the credentials of its session. -/
def anonymous (p : Publisher) : Publisher := { p with session := p.session.anonymous }

/-- Publishing is shadowed by publishing without credentials. -/
theorem publish_shadows {p : Publisher} (hfields : p.session.authorizationFields = .ok fields) :
    Shadows id p.publish p.anonymous.publish :=
  publish_related (steps_shadow hfields) p.metadata p.contentRoot

end Publisher

/-! ## Any two runs -/

namespace Shadows

variable {α β : Type} {view : α → β} {x : Run α} {y : Run β}

/-- A shadow ends with the fault of the run, or with none if the run does. -/
theorem fault?_eq (h : Shadows view x y) (w : World) : y.fault? w.unsigned = x.fault? w := by
  unfold Run.fault?
  rw [h w]
  cases x w <;> rfl

/-- A shadow leaves the world of the run, without signatures. -/
theorem last_eq (h : Shadows view x y) (w : World) : y.last w.unsigned = (x.last w).unsigned := by
  unfold Run.last
  rw [h w]
  cases x w <;> rfl

end Shadows

/-- A user name and a key, either of which may be missing. No surrogate stands in them. -/
structure Credentials where
  userName : Option Text
  apiKey : Option Text
  plain : ∀ t ∈ userName.toList ++ apiKey.toList, Text.hasSurrogate t = false

namespace Publisher

/-- The publisher, with other credentials. -/
def asking (p : Publisher) (c : Credentials) : Publisher :=
  { p with session := { p.session with userName := c.userName, apiKey := c.apiKey } }

/-- With and without credentials, publishing does the same but for signatures. -/
theorem asking_shadows (p : Publisher) (c : Credentials) :
    Shadows id (p.asking c).publish p.anonymous.publish := by
  have hplain (user key : Text) (h : (p.asking c).session.credentials? = some (user, key)) :
      user.hasSurrogate = false ∧ key.hasSurrogate = false := by
    obtain ⟨huser, hkey, -⟩ := Session.credentials?_eq_some_iff.mp h
    exact ⟨c.plain user (List.mem_append_left _ (Option.mem_toList.mpr huser)),
      c.plain key (List.mem_append_right _ (Option.mem_toList.mpr hkey))⟩
  obtain ⟨fields, hfields⟩ := Session.authorizationFields_of_plain hplain
  exact publish_shadows hfields

/-- Whatever is published, whatever the files hold and whatever the server replies: two runs that differ in
their credentials end in the same way, leave the same log and send the same requests, apart from the header
field that says who asks. -/
theorem publish_hides_credentials (p : Publisher) (c c' : Credentials) (w : World) :
    (p.asking c).publish.fault? w = (p.asking c').publish.fault? w ∧
    records ((p.asking c).publish.last w).trace = records ((p.asking c').publish.last w).trace ∧
    ((p.asking c).publish.sent w).map Post.unsigned = ((p.asking c').publish.sent w).map Post.unsigned ∧
    ((p.asking c).publish.last w).unsigned = ((p.asking c').publish.last w).unsigned := by
  have hshadow := p.asking_shadows c
  have hshadow' := p.asking_shadows c'
  have hlast := (hshadow.last_eq w).symm.trans (hshadow'.last_eq w)
  have htrace := congrArg World.trace hlast
  refine ⟨(hshadow.fault?_eq w).symm.trans (hshadow'.fault?_eq w), ?_, ?_, hlast⟩
  · have hrecords := congrArg records htrace
    rwa [World.unsigned, World.unsigned, records_map_unsigned, records_map_unsigned] at hrecords
  · have hposts := congrArg posts htrace
    rw [World.unsigned, World.unsigned, posts_map_unsigned, posts_map_unsigned] at hposts
    unfold Run.sent
    rw [List.map_drop, List.map_drop, hposts]

/-- The field that says who asks is there in one run and not in the other. -/
example :
    let c : Credentials := ⟨some (text "ada"), some (text "key"), by decide⟩
    let c' : Credentials := ⟨some (text "ada"), none, by decide⟩
    ((smallTree.asking c).publish.sent (smallWorld (text "1"))).map (·.headers.map (·.1)) ≠
      ((smallTree.asking c').publish.sent (smallWorld (text "1"))).map (·.headers.map (·.1)) := by
  decide +kernel

end Publisher

end PageTree
