import PageTree.Proofs.Server

/-!
# What runs do

A run is followed step by step: `bind_apply` and the lemmas behind it say what each step does to a world.

Two relations carry the proofs about longer runs. `Sent ps w w'` says that the requests `ps` lie between two
worlds and nothing else that a server or the files could tell; the log and the account of opened resources
may have grown. `Performs x w r` says that a run sends the requests of `r` and ends as `r` ends. What is
performed one after the other adds up (`Performs.bind`).
-/

set_option autoImplicit false

namespace PageTree

/-! ## Changes of a world -/

namespace World

/-- The world with one more event. -/
def note (w : World) (e : Event) : World := { w with trace := w.trace ++ [e] }

/-- The world with one more resource. -/
def acquire (w : World) (r : Resource) : World :=
  { w with openedCount := w.openedCount + 1, trace := w.trace ++ [.opened r] }

/-- The world after a request that the server has replied to. -/
def send (w : World) (p : Post) : World where
  files := w.files
  replies := (w.server.next p.activity).replies
  postCount := (w.server.next p.activity).postCount
  usualPages := (w.server.next p.activity).usualPages
  openedCount := w.openedCount
  trace := w.trace ++ [.posted p]

/-- The world after an answer has come in: it is opened, and shown unless it is empty. -/
def receive (w : World) (body : Bytes) : World :=
  if Utf8.decodeLossy body ≠ [] then
    (w.acquire (.response w.openedCount)).note
      (.logged .debug (.words (text "Received HTTP payload:\n" ++ Utf8.decodeLossy body)))
  else w.acquire (.response w.openedCount)

end World

namespace Run

variable {α β : Type}

/-- A second run begins in the world in which the first has ended, unless a fault has ended both. -/
theorem bind_apply (x : Run α) (f : α → Run β) (w : World) :
    (x >>= f) w =
      match x w with
      | .ok a w' => f a w'
      | .error fault w' => .error fault w' := by
  show EStateM.bind x f w = _
  unfold EStateM.bind
  cases x w <;> rfl

/-- A resource is opened under the number of those that were opened before it. -/
theorem acquire_apply (make : Nat → Resource) (w : World) :
    acquire make w = .ok (make w.openedCount) (w.acquire (make w.openedCount)) := rfl

end Run

namespace Session

/-- A request is noted, and what comes back for it is what the server has to say. -/
theorem exchange_apply (p : Post) (w : World) :
    exchange p w =
      match w.server.respond p.activity with
      | .answer status body => .ok (status, body) (w.send p)
      | .unreachable kind explanation =>
        .error (.failure (.requestNotSent p.url kind explanation)) (w.send p) := by
  obtain ⟨files, replies, postCount, usualPages, openedCount, trace⟩ := w
  cases replies with
  | nil => cases p <;> rfl
  | cons reply rest => cases reply <;> cases p <;> rfl

/-- An answer counts if its status is 200. Any other one is released at once. -/
theorem send_apply (p : Post) (w : World) :
    send p w =
      match w.server.respond p.activity with
      | .answer status body =>
        if status.code ≠ 200 then
          .error (.failure (.requestRefused p.activity status))
            (((w.send p).receive body).note (.released (.response w.openedCount)))
        else .ok ⟨status, body, .response w.openedCount⟩ ((w.send p).receive body)
      | .unreachable kind explanation =>
        .error (.failure (.requestNotSent p.url kind explanation)) (w.send p) := by
  unfold send
  rw [Run.bind_apply, exchange_apply]
  cases w.server.respond p.activity with
  | unreachable kind explanation => rfl
  | answer status body =>
      dsimp only
      rw [Run.bind_apply, Run.acquire_apply]
      unfold World.receive
      by_cases hshown : Utf8.decodeLossy body ≠ [] <;> by_cases hcode : status.code ≠ 200 <;>
        simp only [hshown, hcode, ↓reduceIte, not_false_eq_true, ne_eq] <;> rfl

end Session

/-! ## Requests between two worlds -/

/-- Between two worlds the requests `ps` were sent, and the server replied to them. The files are the same,
and no other request was sent. -/
structure Sent (ps : List Post) (w w' : World) : Prop where
  files : w'.files = w.files
  server : w'.server = w.server.after (ps.map Post.activity)
  posts : posts w'.trace = posts w.trace ++ ps

/-- The requests among two lists of events are those of the first and then those of the second. -/
theorem posts_append (a b : List Event) : posts (a ++ b) = posts a ++ posts b :=
  List.filterMap_append

namespace Sent

variable {w w₁ w₂ : World} {ps qs : List Post}

/-- Between a world and itself nothing was sent. -/
theorem refl (w : World) : Sent [] w w := ⟨rfl, rfl, (List.append_nil _).symm⟩

/-- What was sent between three worlds was sent up to the second and then from there. -/
theorem trans (h₁ : Sent ps w w₁) (h₂ : Sent qs w₁ w₂) : Sent (ps ++ qs) w w₂ where
  files := h₂.files.trans h₁.files
  server := by rw [h₂.server, h₁.server, List.map_append, Server.after_append]
  posts := by rw [h₂.posts, h₁.posts, List.append_assoc]

/-- An event that is no request sends nothing. -/
theorem note (w : World) {e : Event} (h : PageTree.posts [e] = []) : Sent [] w (w.note e) :=
  ⟨rfl, rfl, by rw [World.note, posts_append, h]⟩

/-- Opening a resource sends nothing. -/
theorem acquire (w : World) (r : Resource) : Sent [] w (w.acquire r) :=
  ⟨rfl, rfl, by rw [World.acquire, posts_append]; rfl⟩

/-- Sending a request sends this request. -/
theorem send (w : World) (p : Post) : Sent [p] w (w.send p) :=
  ⟨rfl, rfl, posts_append _ _⟩

/-- Taking in an answer sends nothing. -/
theorem receive (w : World) (body : Bytes) : Sent [] w (w.receive body) := by
  unfold World.receive
  split
  · exact (acquire w _).trans (note _ rfl)
  · exact acquire w _

end Sent

/-! ## How runs end -/

/-- The end of a run in a world. -/
def Run.ending {α : Type} : Except Fault α → World → EStateM.Result Fault World α
  | .ok a, w => .ok a w
  | .error fault, w => .error fault w

/-- What two runs one after the other come to. A fault in the first ends both. -/
def andThen {α β : Type} (r : List Post × Except Fault α) (f : α → List Post × Except Fault β) :
    List Post × Except Fault β :=
  match r with
  | (ps, .ok a) => (ps ++ (f a).1, (f a).2)
  | (ps, .error fault) => (ps, .error fault)

/-- If the first run goes well, what the second one sends comes behind what the first has sent. -/
@[simp] theorem andThen_ok {α β : Type} (ps : List Post) (a : α)
    (f : α → List Post × Except Fault β) : andThen (ps, .ok a) f = (ps ++ (f a).1, (f a).2) := rfl

/-- A fault of the first run is the end of both. -/
@[simp] theorem andThen_error {α β : Type} (ps : List Post) (fault : Fault)
    (f : α → List Post × Except Fault β) : andThen (ps, .error fault) f = (ps, .error fault) := rfl

/-- A run sends requests and ends in a certain way. -/
def Performs {α : Type} (x : Run α) (w : World) (r : List Post × Except Fault α) : Prop :=
  ∃ w', Sent r.1 w w' ∧ x w = Run.ending r.2 w'

namespace Performs

variable {α β : Type} {w : World}

/-- A run that does nothing sends nothing and yields its value. -/
theorem pure (a : α) (w : World) : Performs (Pure.pure a : Run α) w ([], .ok a) :=
  ⟨w, .refl w, rfl⟩

/-- A run that only ends with a fault sends nothing. -/
theorem fault (f : Fault) (w : World) : Performs (throw f : Run α) w ([], .error f) :=
  ⟨w, .refl w, rfl⟩

/-- Noting an event that is no request sends nothing. -/
theorem note (w : World) {e : Event} (h : posts [e] = []) : Performs (Run.note e) w ([], .ok ()) :=
  ⟨w.note e, .note w h, rfl⟩

/-- Opening a resource sends nothing and yields the resource. -/
theorem acquire (make : Nat → Resource) (w : World) :
    Performs (Run.acquire make) w ([], .ok (make w.openedCount)) :=
  ⟨w.acquire (make w.openedCount), .acquire w _, rfl⟩

/-- Two runs perform one after the other what each of them performs. -/
theorem bind {x : Run α} {f : α → Run β} {r : List Post × Except Fault α}
    {g : α → List Post × Except Fault β} (hx : Performs x w r)
    (hf : ∀ a w', Sent r.1 w w' → Performs (f a) w' (g a)) : Performs (x >>= f) w (andThen r g) := by
  obtain ⟨w₁, hsent₁, hx⟩ := hx
  obtain ⟨ps, ending⟩ := r
  cases ending with
  | error fault =>
      refine ⟨w₁, hsent₁, ?_⟩
      rw [Run.bind_apply, hx]
      rfl
  | ok a =>
      obtain ⟨w₂, hsent₂, hf⟩ := hf a w₁ hsent₁
      refine ⟨w₂, hsent₁.trans hsent₂, ?_⟩
      rw [Run.bind_apply, hx]
      exact hf

/-- A run that has sent nothing and gone well leaves everything to the next one. -/
theorem of_ok {x : Run α} {f : α → Run β} {a : α} {w' : World} {r : List Post × Except Fault β}
    (hx : x w = .ok a w') (hsent : Sent [] w w') (hf : Performs (f a) w' r) :
    Performs (x >>= f) w r := by
  obtain ⟨w₂, hsent₂, hf⟩ := hf
  refine ⟨w₂, hsent.trans hsent₂, ?_⟩
  rw [Run.bind_apply, hx]
  exact hf

/-- So does a run that sends nothing and goes well, whatever world it ends in. -/
theorem bind_ok {x : Run α} {f : α → Run β} {a : α} {r : List Post × Except Fault β}
    (hx : Performs x w ([], .ok a)) (hf : ∀ w', Sent [] w w' → Performs (f a) w' r) :
    Performs (x >>= f) w r := by
  obtain ⟨w₁, hsent, hx⟩ := hx
  exact of_ok hx hsent (hf w₁ hsent)

/-- A run that sends nothing leaves the requests as they are, and may end the run before it. -/
theorem bind_quiet {x : Run α} {f : α → Run β} {ps : List Post} {a : α} {ending : Except Fault β}
    (hx : Performs x w (ps, .ok a)) (hf : ∀ w', Performs (f a) w' ([], ending)) :
    Performs (x >>= f) w (ps, ending) := by
  obtain ⟨w₁, hsent₁, hx⟩ := hx
  obtain ⟨w₂, hsent₂, hf⟩ := hf w₁
  have hsent := hsent₁.trans hsent₂
  rw [List.append_nil] at hsent
  refine ⟨w₂, hsent, ?_⟩
  rw [Run.bind_apply, hx]
  exact hf

/-- A run that ends with a fault performs the same with another one behind it. -/
theorem bind_error {x : Run α} {ps : List Post} {fault : Fault} (hx : Performs x w (ps, .error fault))
    (f : α → Run β) : Performs (x >>= f) w (ps, .error fault) := by
  obtain ⟨w₁, hsent, hx⟩ := hx
  refine ⟨w₁, hsent, ?_⟩
  rw [Run.bind_apply, hx]
  rfl

/-- What is done at the end of a run, however it ends, sends nothing. -/
theorem ensuring {x : Run α} {result : List Post × Except Fault α} (hx : Performs x w result)
    (r : Resource) : Performs (Run.ensuring x (Run.release r)) w result := by
  obtain ⟨w', hsent, hx⟩ := hx
  obtain ⟨ps, ending⟩ := result
  -- The resource is released in either way the run can end, and that is an event without a request.
  have hreleased := hsent.trans (Sent.note w' (e := .released r) rfl)
  rw [List.append_nil] at hreleased
  refine ⟨w'.note (.released r), hreleased, ?_⟩
  unfold Run.ensuring
  rw [hx]
  cases ending <;> rfl

end Performs

/-! ## What an observer sees -/

namespace Run

variable {α : Type}

/-- The world that a run ends in, however it ends. -/
def last (x : Run α) (w : World) : World :=
  match x w with
  | .ok _ w' => w'
  | .error _ w' => w'

/-- Whether a run comes to its end. -/
def completes (x : Run α) (w : World) : Bool :=
  match x w with
  | .ok _ _ => true
  | .error _ _ => false

/-- A run comes to its end just if it yields a value. -/
theorem completes_iff {x : Run α} {w : World} :
    x.completes w = true ↔ ∃ a w', x w = .ok a w' := by
  unfold completes
  cases x w <;> simp

/-- The value of a run that comes to its end. -/
def value? (x : Run α) (w : World) : Option α :=
  match x w with
  | .ok a _ => some a
  | .error _ _ => none

/-- The fault of a run that does not. -/
def fault? (x : Run α) (w : World) : Option Fault :=
  match x w with
  | .ok _ _ => none
  | .error fault _ => some fault

/-- The value of a run is the one that it yields. -/
theorem value?_eq_some {x : Run α} {w : World} {a : α} :
    x.value? w = some a ↔ ∃ w', x w = .ok a w' := by
  unfold value?
  cases x w <;> simp

/-- The fault of a run is the one that it ends with. -/
theorem fault?_eq_some {x : Run α} {w : World} {fault : Fault} :
    x.fault? w = some fault ↔ ∃ w', x w = .error fault w' := by
  unfold fault?
  cases x w <;> simp

/-- What a run comes to: its value, or the fault that ends it. -/
def outcome (x : Run α) (w : World) : Except Fault α :=
  match x w with
  | .ok a _ => .ok a
  | .error fault _ => .error fault

/-- A run comes to a value just if it yields the value. -/
theorem outcome_eq_ok {x : Run α} {w : World} {a : α} : x.outcome w = .ok a ↔ ∃ w', x w = .ok a w' := by
  unfold outcome
  cases x w <;> simp

/-- A run comes to a fault just if it ends with the fault. -/
theorem outcome_eq_error {x : Run α} {w : World} {fault : Fault} :
    x.outcome w = .error fault ↔ x.fault? w = some fault := by
  unfold outcome fault?
  cases x w <;> simp

/-- The requests that a run adds to the trace. -/
def sent (x : Run α) (w : World) : List Post :=
  (posts (x.last w).trace).drop (posts w.trace).length

end Run

namespace Performs

variable {α : Type} {x : Run α} {w : World} {r : List Post × Except Fault α}

/-- A run ends in a world that its requests lead to. -/
theorem last (h : Performs x w r) : Sent r.1 w (x.last w) ∧ x w = Run.ending r.2 (x.last w) := by
  obtain ⟨w', hsent, hx⟩ := h
  have hlast : x.last w = w' := by
    unfold Run.last
    rw [hx]
    cases r.2 <;> rfl
  rw [hlast]
  exact ⟨hsent, hx⟩

/-- A run performs one thing only. -/
theorem unique (h : Performs x w r) {r' : List Post × Except Fault α} (h' : Performs x w r') : r = r' := by
  have hposts := List.append_cancel_left (h.last.1.posts.symm.trans h'.last.1.posts)
  have hending := h.last.2.symm.trans h'.last.2
  obtain ⟨ps, ending⟩ := r
  obtain ⟨ps', ending'⟩ := r'
  cases ending <;> cases ending' <;> simp_all [Run.ending]

/-- The requests that a run adds to the trace are those that it performs. -/
theorem sent_eq (h : Performs x w r) : x.sent w = r.1 := by
  unfold Run.sent
  rw [h.last.1.posts, List.drop_left]

/-- It ends as it is said to end. -/
theorem outcome_eq (h : Performs x w r) : x.outcome w = r.2 := by
  rw [Run.outcome, h.last.2]
  cases r.2 <;> rfl

/-- The value of a run is that of what it performs. -/
theorem value?_eq_some (h : Performs x w r) {a : α} : x.value? w = some a ↔ r.2 = .ok a := by
  rw [Run.value?, h.last.2]
  cases r.2 <;> simp [Run.ending]

/-- The fault of a run is that of what it performs. -/
theorem fault?_eq_some (h : Performs x w r) {fault : Fault} :
    x.fault? w = some fault ↔ r.2 = .error fault := by
  rw [Run.fault?, h.last.2]
  cases r.2 <;> simp [Run.ending]

end Performs

end PageTree
