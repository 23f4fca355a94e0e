import PageTree.Proofs.Session
import PageTree.Proofs.Steps
import PageTree.Proofs.MetadataFile

/-!
# What loading and publishing add to the trace

The trace grows, and nothing is ever taken from it. `Event.IsOwn` lists what loading and publishing add to it:
requests, what is opened and released, and records of certain kinds. `Extends w w'` says that nothing else was
added between two worlds, and `AddsOwn x` that a run adds nothing else, however it ends. What is not on that
list, such as the start or the end of a session, is left to the program around them.
-/

set_option autoImplicit false

namespace PageTree

/-- The events of loading and publishing. -/
inductive Event.IsOwn : Event → Prop
  | reading (path : Path) : IsOwn (.logged .info (.words (text "Reading metadata: " ++ path.toText)))
  | creating (title : Text) : IsOwn (.logged .info (.words (text "Creating page: " ++ title)))
  | uploading (name : Text) : IsOwn (.logged .info (.words (text "Uploading attachment: " ++ name)))
  | detail (s : Text) : IsOwn (.logged .debug (.words s))
  | posted (p : Post) : IsOwn (.posted p)
  | opened (r : Resource) : IsOwn (.opened r)
  | released (r : Resource) : IsOwn (.released r)

/-- The trace of the second world is that of the first one and more events of loading and publishing. -/
def Extends (w w' : World) : Prop :=
  ∃ events, w'.trace = w.trace ++ events ∧ ∀ e ∈ events, e.IsOwn

namespace Extends

variable {w w₁ w₂ : World}

/-- Between a world and itself nothing is added. -/
theorem refl (w : World) : Extends w w := ⟨[], (List.append_nil _).symm, by simp⟩

/-- What is added between three worlds is added up to the second and then from there. -/
theorem trans (h₁ : Extends w w₁) (h₂ : Extends w₁ w₂) : Extends w w₂ := by
  obtain ⟨first, htrace₁, hfirst⟩ := h₁
  obtain ⟨second, htrace₂, hsecond⟩ := h₂
  refine ⟨first ++ second, by rw [htrace₂, htrace₁, List.append_assoc], ?_⟩
  intro e he
  rcases List.mem_append.mp he with he | he
  · exact hfirst e he
  · exact hsecond e he

/-- One event of loading and publishing may be added. -/
theorem snoc {e : Event} (htrace : w₁.trace = w.trace ++ [e]) (he : e.IsOwn) : Extends w w₁ := by
  refine ⟨[e], htrace, ?_⟩
  intro f hf
  rwa [List.mem_singleton.mp hf]

/-- Taking in an answer adds that it was opened, and shows it unless it is empty. -/
theorem receive (w : World) (body : Bytes) : Extends w (w.receive body) := by
  have hopened : Extends w (w.acquire (.response w.openedCount)) := snoc rfl (.opened _)
  unfold World.receive
  split
  · exact hopened.trans (snoc rfl (.detail _))
  · exact hopened

end Extends

/-- A run adds only events of loading and publishing, however it ends. -/
def AddsOwn {α : Type} (x : Run α) : Prop := ∀ w, Extends w (x.last w)

namespace AddsOwn

variable {α β : Type}

/-- A run that does nothing adds nothing. -/
theorem pure (a : α) : AddsOwn (Pure.pure a : Run α) := .refl

/-- A run that only ends with a fault adds nothing. -/
theorem fault (f : Fault) : AddsOwn (throw f : Run α) := .refl

/-- Noting an event of loading and publishing adds only this event. -/
theorem note {e : Event} (he : e.IsOwn) : AddsOwn (Run.note e) := fun _ => .snoc rfl he

/-- Opening a resource adds only that it was opened. -/
theorem acquire (make : Nat → Resource) : AddsOwn (Run.acquire make) :=
  fun _ => .snoc rfl (.opened _)

/-- A run whose end is known in every world. -/
theorem of_ending {x : Run α} {ending : World → Except Fault α}
    (hx : ∀ w, x w = Run.ending (ending w) w) : AddsOwn x := by
  intro w
  have hlast : x.last w = w := by
    unfold Run.last
    rw [hx]
    cases ending w <;> rfl
  rw [hlast]
  exact .refl w

/-- Two runs add only their own events if each of them does. -/
theorem bind {x : Run α} {f : α → Run β} (hx : AddsOwn x) (hf : ∀ a, AddsOwn (f a)) :
    AddsOwn (x >>= f) := by
  intro w
  have hfirst := hx w
  unfold Run.last at hfirst ⊢
  rw [Run.bind_apply]
  cases hresult : x w with
  | ok a w' =>
      rw [hresult] at hfirst
      exact hfirst.trans (hf a w')
  | error f w' =>
      rw [hresult] at hfirst
      exact hfirst

/-- Releasing a resource at the end of a run adds only that it was released. -/
theorem ensuring {x : Run α} (hx : AddsOwn x) (r : Resource) :
    AddsOwn (Run.ensuring x (Run.release r)) := by
  intro w
  have hbody := hx w
  unfold Run.last at hbody ⊢
  unfold Run.ensuring
  cases hresult : x w with
  | ok a w' =>
      rw [hresult] at hbody
      exact hbody.trans (.snoc rfl (.released r))
  | error f w' =>
      rw [hresult] at hbody
      exact hbody.trans (.snoc rfl (.released r))

end AddsOwn

namespace Session

variable (s : Session)

/-- Taking a value or failing adds nothing. -/
theorem orFail_addsOwn {α : Type} (e : Except Failure α) : AddsOwn (orFail e) := by
  cases e with
  | ok a => exact .pure a
  | error f => exact .fault _

/-- Signing adds nothing. -/
theorem authorization_addsOwn : AddsOwn s.authorization := by
  unfold authorization
  split
  · exact .pure _
  · split
    · exact .pure _
    · exact .fault _

/-- Sending a request adds the request and what becomes of the answer to it. -/
theorem send_addsOwn (p : Post) : AddsOwn (send p) := by
  intro w
  have hsent : Extends w (w.send p) := .snoc rfl (.posted p)
  unfold Run.last
  rw [send_apply]
  cases w.server.respond p.activity with
  | unreachable kind explanation => exact hsent
  | answer status body =>
      have hreceived := hsent.trans (.receive _ body)
      dsimp only
      split_ifs
      · exact hreceived.trans (.snoc rfl (.released _))
      · exact hreceived

/-- Creating a page adds only events of loading and publishing. -/
theorem createPage_addsOwn (spaceKey title content : Text) (parentId : Option Text) :
    AddsOwn (s.createPage spaceKey title content parentId) := by
  unfold createPage
  refine (AddsOwn.note (.creating title)).bind fun _ => ?_
  refine (orFail_addsOwn _).bind fun body => ?_
  refine s.authorization_addsOwn.bind fun authorization => ?_
  refine (send_addsOwn _).bind fun answer => ?_
  refine ((orFail_addsOwn _).ensuring answer.resource).bind fun id => ?_
  exact (AddsOwn.note (.detail _)).bind fun _ => .pure id

/-- Uploading an attachment adds only events of loading and publishing. -/
theorem uploadAttachment_addsOwn (pageId : Text) (path : Path) :
    AddsOwn (s.uploadAttachment pageId path) := by
  unfold uploadAttachment
  refine (AddsOwn.of_ending (Run.readFile_apply path _)).bind fun content => ?_
  refine (AddsOwn.acquire .file).bind fun file => ?_
  have hsend : AddsOwn (do
      Run.log .info (text "Uploading attachment: " ++ path.name)
      let authorization ← s.authorization
      send (.attachment (s.attachmentsUrl pageId) (attachmentHeaders ++ authorization) path.name
        (MediaType.ofName path.name) content)) :=
    (AddsOwn.note (.uploading path.name)).bind fun _ =>
      s.authorization_addsOwn.bind fun _ => send_addsOwn _
  exact (hsend.ensuring file).bind fun answer => .note (.released _)

end Session

/-- Reading the text of a file adds nothing. -/
theorem Run.readText_addsOwn (path : Path) (unreadable : Cause → Failure) :
    AddsOwn (Run.readText path unreadable) :=
  .of_ending (Run.readText_apply path unreadable)

namespace Publisher

/-- Every step of publishing adds only events of loading and publishing. -/
theorem steps_addOwn (s : Session) : StepsRelated (fun x _ => AddsOwn x) s s where
  pure := AddsOwn.pure
  bind := AddsOwn.bind
  readText := Run.readText_addsOwn
  createPage := s.createPage_addsOwn
  uploadAttachment := s.uploadAttachment_addsOwn

/-- Publishing adds only events of loading and publishing. -/
theorem publish_addsOwn (p : Publisher) : AddsOwn p.publish :=
  publish_related (steps_addOwn p.session) p.metadata p.contentRoot

end Publisher

/-! ## Loading -/

namespace Publisher

variable (session : Session) (path : Path)

/-- Loading adds only events of loading and publishing. -/
theorem load_addsOwn : AddsOwn (load session path) := by
  -- All that loading leaves in the trace is the record that announces it.
  have hload : AddsOwn (Metadata.load path) := by
    intro w
    unfold Run.last
    rw [Metadata.load_eq]
    cases Metadata.loaded path w.files <;> exact .snoc rfl (.reading path)
  exact hload.bind fun m w => .refl w

/-- What loading a publisher comes to, in some files. -/
def loaded (files : FileSystem) : Except Fault Publisher :=
  (Metadata.loaded path files).map fun m =>
    ⟨session, m, (path.absolute files.workingDirectory).parent⟩

/-- Loading a publisher sends nothing, and what comes of it depends on the files alone. -/
theorem load_performs (w : World) : Performs (load session path) w ([], loaded session path w.files) := by
  refine ⟨Metadata.announced path w, .note w rfl, ?_⟩
  unfold load loaded
  rw [Run.bind_apply, Metadata.load_eq]
  cases Metadata.loaded path w.files <;> rfl

/-- A publisher that has been loaded is the one that the files determine. -/
theorem loaded_of_load {p : Publisher} {w w' : World} (h : load session path w = .ok p w') :
    loaded session path w.files = .ok p :=
  (load_performs session path w).outcome_eq.symm.trans (Run.outcome_eq_ok.mpr ⟨w', h⟩)

end Publisher

end PageTree
