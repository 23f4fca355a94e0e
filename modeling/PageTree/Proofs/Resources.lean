import PageTree.Proofs.Session
import PageTree.Proofs.Steps
import Mathlib.Data.List.Nodup

/-!
# Nothing stays open

Answers and attachment files are opened and have to be released. `Ledger` keeps the books of a list of
events: which resources were opened, and which of them are still held. `Holds x before after onFault` says
what a run does to the books: it starts with `before` held and ends with `after` held, or with `onFault` if
it ends with a fault. Each operation of a session has one statement of this kind, and runs one after the
other are put together by `Holds.bind`.

`calls_balanced` draws up the account of any number of calls: each of them, however it ends, has released
every answer that came in and every file that it opened, and has not closed the session.
-/

set_option autoImplicit false

namespace PageTree

/-! ## The books -/

namespace Resource

/-- The number under which a resource was opened. -/
def number : Resource → Nat
  | .response n => n
  | .file n => n

/-- Whether a resource is an answer of the server. -/
def isResponse : Resource → Bool
  | .response _ => true
  | .file _ => false

end Resource

/-- Whether the server has answered a request, with whatever status. -/
def Response.isAnswer : Response → Bool
  | .answer .. => true
  | .unreachable .. => false

/-- The resources that are opened. -/
def openings (events : List Event) : List Resource :=
  events.filterMap fun
    | .opened r => some r
    | _ => none

/-- The resources that are released. -/
def releases (events : List Event) : List Resource :=
  events.filterMap fun
    | .released r => some r
    | _ => none

/-- Whether an event is neither an opening nor a release. -/
def Event.isNeutral (e : Event) : Bool := !e.isOpening && !e.isRelease

/-- What may happen after earlier events: only what was opened is released, an attachment is sent while a
file is open, and the session is not closed. -/
def Event.Allowed (earlier : List Event) : Event → Prop
  | .released r => .opened r ∈ earlier
  | .posted p => p.activity = .uploadingAttachment →
    ∃ n, .opened (.file n) ∈ earlier ∧ .released (.file n) ∉ earlier
  | .sessionClosed => False
  | _ => True

/-- The books of a list of events: the resources that were opened have numbers from `first` on, one after
the other, and are either held or released. -/
structure Ledger (first : Nat) (events : List Event) (held : List Resource) : Prop where
  numbers : (openings events).map Resource.number = List.range' first (openings events).length
  balance : (held ++ releases events).Perm (openings events)
  allowed : ∀ earlier e later, events = earlier ++ e :: later → e.Allowed earlier

/-- A resource is among the openings just if some event opens it. -/
theorem mem_openings {events : List Event} {r : Resource} :
    r ∈ openings events ↔ .opened r ∈ events := by
  unfold openings
  rw [List.mem_filterMap]
  constructor
  · rintro ⟨e, he, hr⟩
    cases e <;> simp_all
  · intro h
    exact ⟨_, h, rfl⟩

/-- A resource is among the releases just if some event releases it. -/
theorem mem_releases {events : List Event} {r : Resource} :
    r ∈ releases events ↔ .released r ∈ events := by
  unfold releases
  rw [List.mem_filterMap]
  constructor
  · rintro ⟨e, he, hr⟩
    cases e <;> simp_all
  · intro h
    exact ⟨_, h, rfl⟩

/-- The openings of two lists of events are those of the first and then those of the second. -/
theorem openings_append (a b : List Event) : openings (a ++ b) = openings a ++ openings b :=
  List.filterMap_append

/-- The releases of two lists of events are those of the first and then those of the second. -/
theorem releases_append (a b : List Event) : releases (a ++ b) = releases a ++ releases b :=
  List.filterMap_append

/-- A neutral event opens nothing. -/
theorem openings_snoc_of_isNeutral (events : List Event) {e : Event} (he : e.isNeutral = true) :
    openings (events ++ [e]) = openings events := by
  rw [openings_append]
  cases e with
  | opened r => exact absurd he (by simp [Event.isNeutral, Event.isOpening])
  | _ => exact List.append_nil _

/-- A neutral event releases nothing. -/
theorem releases_snoc_of_isNeutral (events : List Event) {e : Event} (he : e.isNeutral = true) :
    releases (events ++ [e]) = releases events := by
  rw [releases_append]
  cases e with
  | released r => exact absurd he (by simp [Event.isNeutral, Event.isRelease])
  | _ => exact List.append_nil _

/-- A resource is opened as often as it is among the openings. -/
theorem count_opened (events : List Event) (r : Resource) :
    events.count (.opened r) = (openings events).count r := by
  induction events with
  | nil => rfl
  | cons e rest ih =>
      cases e <;> simp [openings, List.count_cons] at ih ⊢ <;> exact ih

/-- A resource is released as often as it is among the releases. -/
theorem count_released (events : List Event) (r : Resource) :
    events.count (.released r) = (releases events).count r := by
  induction events with
  | nil => rfl
  | cons e rest ih =>
      cases e <;> simp [releases, List.count_cons] at ih ⊢ <;> exact ih

/-- There are as many events that open something as there are openings. -/
theorem countP_isOpening (events : List Event) :
    events.countP Event.isOpening = (openings events).length := by
  induction events with
  | nil => rfl
  | cons e rest ih =>
      cases e <;> simp [openings, Event.isOpening, List.countP_cons] at ih ⊢ <;> exact ih

/-- There are as many events that release something as there are releases. -/
theorem countP_isRelease (events : List Event) :
    events.countP Event.isRelease = (releases events).length := by
  induction events with
  | nil => rfl
  | cons e rest ih =>
      cases e <;> simp [releases, Event.isRelease, List.countP_cons] at ih ⊢ <;> exact ih

namespace Ledger

variable {first : Nat} {events : List Event} {held : List Resource}

/-- Without events, the books are empty. -/
theorem nil (first : Nat) : Ledger first [] [] where
  numbers := rfl
  balance := .nil
  allowed earlier e later h := by simp at h

/-- The order of what is held does not matter to the books. -/
theorem perm {others : List Resource} (h : Ledger first events held) (hperm : held.Perm others) :
    Ledger first events others :=
  { h with balance := (hperm.symm.append_right _).trans h.balance }

/-- No resource is opened twice. -/
theorem nodup (h : Ledger first events held) : (openings events).Nodup := by
  apply List.Nodup.of_map Resource.number
  rw [h.numbers]
  exact List.nodup_range'

/-- What is held was opened and has not been released. -/
theorem of_mem_held {r : Resource} (h : Ledger first events held) (hr : r ∈ held) :
    .opened r ∈ events ∧ .released r ∉ events := by
  refine ⟨mem_openings.mp (h.balance.subset (List.mem_append_left _ hr)), ?_⟩
  intro hreleased
  have hnodup := h.balance.nodup_iff.mpr h.nodup
  exact (List.nodup_append.mp hnodup).2.2 r hr r (mem_releases.mpr hreleased) rfl

/-- One more event, which may happen after those before it, changes nothing about those. -/
theorem allowed_snoc {e : Event} (h : Ledger first events held) (he : e.Allowed events)
    (earlier : List Event) (f : Event) (later : List Event)
    (hsplit : events ++ [e] = earlier ++ f :: later) : f.Allowed earlier := by
  rcases List.eq_nil_or_concat later with rfl | ⟨before, last, rfl⟩
  · obtain ⟨rfl, hlast⟩ := List.append_inj' hsplit rfl
    exact List.singleton_inj.mp hlast ▸ he
  · rw [List.concat_eq_append, ← List.cons_append, ← List.append_assoc] at hsplit
    obtain ⟨hevents, -⟩ := List.append_inj' hsplit rfl
    exact h.allowed earlier f before hevents

/-- A neutral event that may happen leaves the books as they are. -/
theorem neutral {e : Event} (h : Ledger first events held) (hneutral : e.isNeutral = true)
    (he : e.Allowed events) : Ledger first (events ++ [e]) held := by
  have hopenings := openings_snoc_of_isNeutral events hneutral
  have hreleases := releases_snoc_of_isNeutral events hneutral
  constructor
  · rw [hopenings]
    exact h.numbers
  · rw [hopenings, hreleases]
    exact h.balance
  · exact h.allowed_snoc he

/-- A resource that is opened gets the next number, and is held from now on. -/
theorem opened {r : Resource} (h : Ledger first events held)
    (hr : r.number = first + (openings events).length) :
    Ledger first (events ++ [.opened r]) (r :: held) := by
  have hopenings : openings (events ++ [.opened r]) = openings events ++ [r] := openings_append _ _
  have hreleases : releases (events ++ [.opened r]) = releases events := by
    rw [releases_append]
    exact List.append_nil _
  constructor
  · rw [hopenings, List.map_append, h.numbers, List.length_append, List.length_singleton,
      List.range'_concat, Nat.one_mul, ← hr]
    rfl
  · rw [hopenings, hreleases, List.cons_append]
    exact (h.balance.cons r).trans (List.perm_append_singleton r _).symm
  · exact h.allowed_snoc trivial

/-- A resource that is held can be released, and is held no more. -/
theorem released {r : Resource} (h : Ledger first events (r :: held)) :
    Ledger first (events ++ [.released r]) held := by
  have hopenings : openings (events ++ [.released r]) = openings events := by
    rw [openings_append]
    exact List.append_nil _
  have hreleases : releases (events ++ [.released r]) = releases events ++ [r] :=
    releases_append _ _
  constructor
  · rw [hopenings]
    exact h.numbers
  · rw [hopenings, hreleases, ← List.append_assoc]
    exact (List.perm_append_singleton r _).trans h.balance
  · exact h.allowed_snoc (h.of_mem_held List.mem_cons_self).1

end Ledger

/-! ## What a run owes -/

/-- What the requests among events were sent for. -/
def activities (events : List Event) : List Activity := (posts events).map Post.activity

/-- The activities of two lists of events are those of the first and then those of the second. -/
theorem activities_append (a b : List Event) : activities (a ++ b) = activities a ++ activities b := by
  rw [activities, posts_append, List.map_append]
  rfl

/-- How many answers were opened. -/
def answersOpened (events : List Event) : Nat := (openings events).countP Resource.isResponse

/-- How many of the requests among events a server answers. -/
def answersGiven (v : Server) (events : List Event) : Nat :=
  (v.responses (activities events)).countP Response.isAnswer

/-- The answers opened by two lists of events are counted one list after the other. -/
theorem answersOpened_append (a b : List Event) :
    answersOpened (a ++ b) = answersOpened a + answersOpened b := by
  rw [answersOpened, openings_append, List.countP_append]
  rfl

/-- The answers given to two lists of events are counted one list after the other, the second by the server as
the first has left it. -/
theorem answersGiven_append (v : Server) (a b : List Event) :
    answersGiven v (a ++ b) = answersGiven v a + answersGiven (v.after (activities a)) b := by
  rw [answersGiven, activities_append, Server.responses_append, List.countP_append]
  rfl

/-- One request is given one answer or none. -/
theorem answersGiven_posted (v : Server) (p : Post) :
    answersGiven v [.posted p] = if (v.respond p.activity).isAnswer then 1 else 0 :=
  List.countP_singleton

/-- The events between two worlds, with the resources that their books hold. -/
structure Account (held : List Resource) (start w : World) (events : List Event) : Prop where
  trace : w.trace = start.trace ++ events
  openedCount : w.openedCount = start.openedCount + (openings events).length
  server : w.server = start.server.after (activities events)
  ledger : Ledger start.openedCount events held

namespace Account

variable {held others : List Resource} {start w w' : World} {events : List Event}

/-- One more event does to a world what it does to the account. -/
theorem snoc {e : Event} (h : Account held start w events) (htrace : w'.trace = w.trace ++ [e])
    (hcount : w'.openedCount = w.openedCount + (openings [e]).length)
    (hserver : w'.server = w.server.after (activities [e]))
    (hledger : Ledger start.openedCount (events ++ [e]) others) :
    Account others start w' (events ++ [e]) where
  trace := by rw [htrace, h.trace, List.append_assoc]
  openedCount := by rw [hcount, h.openedCount, openings_append, List.length_append, Nat.add_assoc]
  server := by rw [hserver, h.server, activities_append, Server.after_append]
  ledger := hledger

/-- A request may be sent if a file is open or none is needed. -/
theorem posted {p : Post} (h : Account held start w events)
    (hfile : p.activity = .uploadingAttachment → ∃ n, .file n ∈ held) :
    Account held start (w.send p) (events ++ [.posted p]) := by
  refine h.snoc rfl rfl rfl (h.ledger.neutral rfl ?_)
  intro hactivity
  obtain ⟨n, hn⟩ := hfile hactivity
  exact ⟨n, h.ledger.of_mem_held hn⟩

end Account

/-- Since a world, every answer that was given was opened, and some resources are still held. -/
def Owes (held : List Resource) (start w : World) : Prop :=
  ∃ events, Account held start w events ∧ answersOpened events = answersGiven start.server events

namespace Owes

variable {held : List Resource} {start w : World}

/-- Since itself, a world owes nothing. -/
theorem refl (w : World) : Owes [] w w := ⟨[], ⟨by simp, rfl, rfl, .nil _⟩, rfl⟩

/-- The order of what is held does not matter to what is owed. -/
theorem perm {others : List Resource} (h : Owes held start w) (hperm : held.Perm others) :
    Owes others start w := by
  obtain ⟨events, haccount, hanswers⟩ := h
  exact ⟨events, { haccount with ledger := haccount.ledger.perm hperm }, hanswers⟩

/-- A record in the log changes nothing about what is owed. -/
theorem logged (h : Owes held start w) (level : Level) (message : Message) :
    Owes held start (w.note (.logged level message)) := by
  obtain ⟨events, haccount, hanswers⟩ := h
  have hledger := haccount.ledger.neutral (e := .logged level message) rfl trivial
  refine ⟨events ++ [.logged level message], haccount.snoc rfl rfl rfl hledger, ?_⟩
  rw [answersOpened_append, answersGiven_append, hanswers]
  rfl

/-- A file that is opened is held until it is released. -/
theorem opened (h : Owes held start w) :
    Owes (.file w.openedCount :: held) start (w.acquire (.file w.openedCount)) := by
  obtain ⟨events, haccount, hanswers⟩ := h
  have hledger := haccount.ledger.opened (r := .file w.openedCount) haccount.openedCount
  refine ⟨events ++ [.opened (.file w.openedCount)], haccount.snoc rfl rfl rfl hledger, ?_⟩
  rw [answersOpened_append, answersGiven_append, hanswers]
  rfl

/-- A resource that is released is held no more. -/
theorem released {r : Resource} (h : Owes (r :: held) start w) :
    Owes held start (w.note (.released r)) := by
  obtain ⟨events, haccount, hanswers⟩ := h
  refine ⟨events ++ [.released r], haccount.snoc rfl rfl rfl haccount.ledger.released, ?_⟩
  rw [answersOpened_append, answersGiven_append, hanswers]
  rfl

/-- A request without an answer leaves nothing to release. -/
theorem unanswered {p : Post} (h : Owes held start w)
    (hfile : p.activity = .uploadingAttachment → ∃ n, .file n ∈ held)
    (hresponse : (w.server.respond p.activity).isAnswer = false) :
    Owes held start (w.send p) := by
  obtain ⟨events, haccount, hanswers⟩ := h
  refine ⟨events ++ [.posted p], haccount.posted hfile, ?_⟩
  rw [answersOpened_append, answersGiven_append, hanswers, ← haccount.server, answersGiven_posted,
    hresponse]
  rfl

/-- A request with an answer leaves the answer to release. -/
theorem received {p : Post} (h : Owes held start w)
    (hfile : p.activity = .uploadingAttachment → ∃ n, .file n ∈ held)
    (hresponse : (w.server.respond p.activity).isAnswer = true) (body : Bytes) :
    Owes (.response w.openedCount :: held) start ((w.send p).receive body) := by
  obtain ⟨events, haccount, hanswers⟩ := h
  have hposted := haccount.posted hfile
  have hopened : Owes (.response w.openedCount :: held) start
      ((w.send p).acquire (.response w.openedCount)) := by
    have hledger := hposted.ledger.opened (r := .response w.openedCount) hposted.openedCount
    refine ⟨events ++ [.posted p] ++ [.opened (.response w.openedCount)], ?_, ?_⟩
    · apply hposted.snoc _ _ _ hledger <;> rfl
    · have hgiven := answersGiven_posted w.server p
      rw [hresponse] at hgiven
      rw [List.append_assoc, answersOpened_append, answersGiven_append, hanswers, ← haccount.server]
      exact congrArg _ hgiven.symm
  unfold World.receive
  split
  · exact hopened.logged _ _
  · exact hopened

end Owes

/-- A run that starts with `before` held ends with `after` held, and with `onFault` if it ends with a
fault. -/
def Holds {α : Type} (x : Run α) (before : List Resource) (after : α → List Resource)
    (onFault : List Resource) : Prop :=
  ∀ start w, Owes before start w →
    match x w with
    | .ok a w' => Owes (after a) start w'
    | .error _ w' => Owes onFault start w'

namespace Holds

variable {α β : Type} {x : Run α} {before onFault : List Resource} {after : α → List Resource}

/-- A run that does nothing holds what it held. -/
theorem pure (a : α) (after : α → List Resource) (onFault : List Resource) :
    Holds (Pure.pure a) (after a) after onFault :=
  fun _ _ h => h

/-- A run that only ends with a fault holds what it held. -/
theorem fault (f : Fault) (before : List Resource) (after : α → List Resource) :
    Holds (throw f) before after before :=
  fun _ _ h => h

/-- Releasing a resource leaves the others held. -/
theorem release (r : Resource) (held onFault : List Resource) :
    Holds (Run.release r) (r :: held) (fun _ => held) onFault :=
  fun _ _ h => h.released

/-- A file that is opened is held by what follows. -/
theorem bind_file {f : Resource → Run β} {held : List Resource} {last : β → List Resource}
    (hf : ∀ n, Holds (f (.file n)) (.file n :: held) last onFault) :
    Holds (Run.acquire .file >>= f) held last onFault :=
  fun start w h => hf w.openedCount start (w.acquire (.file w.openedCount)) h.opened

/-- What is held after a first run is held before the second, and a fault in either leaves the same behind. -/
theorem bind {f : α → Run β} {last : β → List Resource} (hx : Holds x before after onFault)
    (hf : ∀ a, Holds (f a) (after a) last onFault) : Holds (x >>= f) before last onFault := by
  intro start w h
  have hfirst := hx start w h
  rw [Run.bind_apply]
  cases hresult : x w with
  | ok a w' =>
      rw [hresult] at hfirst
      exact hf a start w' hfirst
  | error f w' =>
      rw [hresult] at hfirst
      exact hfirst

/-- The order of what is held after a run does not matter. -/
theorem perm {others : α → List Resource} (hx : Holds x before after onFault)
    (hperm : ∀ a, (after a).Perm (others a)) : Holds x before others onFault := by
  intro start w h
  have hlast := hx start w h
  cases hresult : x w with
  | ok a w' =>
      rw [hresult] at hlast
      exact hlast.perm (hperm a)
  | error f w' =>
      rw [hresult] at hlast
      exact hlast

/-- What is released at the end of a run is not held after it, however it ends. -/
theorem ensuring {r : Resource} (hx : Holds x before (fun a => r :: after a) (r :: onFault)) :
    Holds (Run.ensuring x (Run.release r)) before after onFault := by
  intro start w h
  have hbody := hx start w h
  unfold Run.ensuring
  cases hresult : x w with
  | ok a w' =>
      rw [hresult] at hbody
      exact hbody.released
  | error f w' =>
      rw [hresult] at hbody
      exact hbody.released

end Holds

/-- A run holds in the end what it held at its start, however it ends. -/
def Settles {α : Type} (x : Run α) : Prop := ∀ held, Holds x held (fun _ => held) held

namespace Settles

variable {α β : Type}

/-- A run that does nothing settles. -/
theorem pure (a : α) : Settles (Pure.pure a : Run α) := fun held => .pure a (fun _ => held) held

/-- A run that only ends with a fault settles. -/
theorem fault (f : Fault) : Settles (throw f : Run α) := fun held => .fault f held _

/-- A record in the log settles. -/
theorem log (level : Level) (s : Text) : Settles (Run.log level s) := fun _ _ _ h =>
  h.logged level (.words s)

/-- Two runs settle if each of them does. -/
theorem bind {x : Run α} {f : α → Run β} (hx : Settles x) (hf : ∀ a, Settles (f a)) :
    Settles (x >>= f) := fun held => (hx held).bind fun a => hf a held

/-- What is done with a resource that is released at the end leaves nothing else behind. -/
theorem ensuring {x : Run α} (hx : Settles x) (r : Resource) (held : List Resource) :
    Holds (Run.ensuring x (Run.release r)) (r :: held) (fun _ => held) held :=
  Holds.ensuring (hx (r :: held))

end Settles

/-! ## The operations of a session -/

/-- Reading the bytes of a file settles. -/
theorem Run.readFile_settles (p : Path) (unreadable : Cause → Failure) :
    Settles (readFile p unreadable) := by
  intro held start w h
  rw [readFile_apply]
  cases w.files.contentAt p unreadable <;> exact h

/-- Reading the text of a file settles. -/
theorem Run.readText_settles (p : Path) (unreadable : Cause → Failure) :
    Settles (readText p unreadable) := by
  intro held start w h
  rw [readText_apply]
  cases w.files.textAt p unreadable <;> exact h

namespace Session

variable (s : Session)

/-- Taking a value or failing settles. -/
theorem orFail_settles {α : Type} (e : Except Failure α) : Settles (orFail e) := by
  cases e with
  | ok a => exact .pure a
  | error f => exact .fault _

/-- Signing a request settles. -/
theorem authorization_settles : Settles s.authorization := by
  unfold authorization
  cases s.credentials? with
  | none => exact .pure _
  | some credentials =>
      obtain ⟨user, key⟩ := credentials
      dsimp only
      cases basicAuthorization? user key with
      | none => exact .fault _
      | some value => exact .pure _

/-- Sending a request holds the answer if the request is accepted, and nothing if it is not. -/
theorem send_holds {p : Post} {held : List Resource}
    (hfile : p.activity = .uploadingAttachment → ∃ n, .file n ∈ held) :
    Holds (send p) held (fun answer => answer.resource :: held) held := by
  intro start w h
  rw [send_apply]
  cases hresponse : w.server.respond p.activity with
  | unreachable kind explanation => exact h.unanswered hfile (by rw [hresponse]; rfl)
  | answer status body =>
      have hreceived := h.received hfile (by rw [hresponse]; rfl) body
      by_cases hcode : status.code ≠ 200
      · simp only [hcode, ne_eq, not_false_eq_true, ↓reduceIte]
        exact hreceived.released
      · simp only [hcode, ↓reduceIte]
        exact hreceived

/-- Creating a page settles. -/
theorem createPage_settles (spaceKey title content : Text) (parentId : Option Text) :
    Settles (s.createPage spaceKey title content parentId) := by
  unfold createPage
  refine (Settles.log _ _).bind fun _ => (orFail_settles _).bind fun body =>
    s.authorization_settles.bind fun authorization => ?_
  intro held
  refine (send_holds (by rintro ⟨⟩)).bind fun answer => ?_
  refine ((orFail_settles _).ensuring answer.resource held).bind fun id => ?_
  exact (Settles.log _ _).bind (fun _ => .pure id) held

/-- Uploading an attachment settles. -/
theorem uploadAttachment_settles (pageId : Text) (path : Path) :
    Settles (s.uploadAttachment pageId path) := by
  unfold uploadAttachment
  refine (Run.readFile_settles _ _).bind fun content => ?_
  intro held
  refine Holds.bind_file fun n => ?_
  have hsend : Holds (do
      Run.log .info (text "Uploading attachment: " ++ path.name)
      let authorization ← s.authorization
      send (.attachment (s.attachmentsUrl pageId) (attachmentHeaders ++ authorization) path.name
        (MediaType.ofName path.name) content))
      (.file n :: held) (fun answer => answer.resource :: .file n :: held) (.file n :: held) :=
    (Settles.log _ _ _).bind fun _ =>
      (s.authorization_settles _).bind fun _ => send_holds fun _ => ⟨n, List.mem_cons_self⟩
  -- The answer comes in while the file is open. The file is released first, and then the answer.
  have hswapped := hsend.perm fun answer => .swap (.file n) answer.resource held
  exact hswapped.ensuring.bind fun answer => .release answer.resource held held

end Session

/-! ## Publishing -/

namespace Publisher

/-- Every step of publishing settles. -/
theorem steps_settle (s : Session) : StepsRelated (fun x _ => Settles x) s s where
  pure := Settles.pure
  bind := Settles.bind
  readText := Run.readText_settles
  createPage := s.createPage_settles
  uploadAttachment := s.uploadAttachment_settles

/-- Publishing settles. -/
theorem publish_settles (p : Publisher) : Settles p.publish :=
  publish_related (steps_settle p.session) p.metadata p.contentRoot

end Publisher

/-! ## Any number of calls -/

/-- Something that a program asks of an open session. -/
inductive Call
  | createPage (spaceKey title content : Text) (parentId : Option Text)
  | uploadAttachment (pageId : Text) (path : Path)
  | publish (metadata : Metadata) (contentRoot : Path)

namespace Call

/-- A call. What it yields does not matter here. -/
def run (s : Session) : Call → Run Unit
  | .createPage spaceKey title content parentId => do
    let _ ← s.createPage spaceKey title content parentId
  | .uploadAttachment pageId path => s.uploadAttachment pageId path
  | .publish metadata contentRoot => Publisher.publish ⟨s, metadata, contentRoot⟩

/-- The world after calls, one after the other. The program goes on when a call ends with a fault. -/
def worldAfter (s : Session) (calls : List Call) (w : World) : World :=
  calls.foldl (fun w call => (call.run s).last w) w

/-- Every call settles. -/
theorem run_settles (s : Session) (call : Call) : Settles (call.run s) := by
  cases call with
  | createPage spaceKey title content parentId =>
      exact (s.createPage_settles spaceKey title content parentId).bind fun _ => .pure ()
  | uploadAttachment pageId path => exact s.uploadAttachment_settles pageId path
  | publish metadata contentRoot => exact Publisher.publish_settles ⟨s, metadata, contentRoot⟩

end Call

/-- A run that settles leaves what is owed as it was, however it ends. -/
theorem Settles.last {α : Type} {x : Run α} (h : Settles x) {held : List Resource} {start w : World}
    (howes : Owes held start w) : Owes held start (x.last w) := by
  have hlast := h held start w howes
  unfold Run.last
  cases hresult : x w with
  | ok a w' =>
      rw [hresult] at hlast
      exact hlast
  | error f w' =>
      rw [hresult] at hlast
      exact hlast

/-- Calls leave what is owed as it was, however each of them ends. -/
theorem Call.worldAfter_owes (s : Session) (calls : List Call) {held : List Resource}
    {start w : World} (h : Owes held start w) : Owes held start (worldAfter s calls w) := by
  induction calls generalizing w with
  | nil => exact h
  | cons call rest ih => exact ih ((call.run_settles s).last h)

/-- The events between two worlds leave nothing open. Each resource that was opened, under a number that was
not in use before, was released exactly once; nothing happened that is not allowed; every answer that the
server gave was opened. So there are as many open resources as before, and the session is open if it was. -/
structure Balanced (before after : World) (events : List Event) : Prop where
  trace : after.trace = before.trace ++ events
  fresh : ∀ r, .opened r ∈ events → before.openedCount ≤ r.number ∧ r.number < after.openedCount
  once : ∀ r, .opened r ∈ events →
    events.count (.opened r) = 1 ∧ events.count (.released r) = 1
  allowed : ∀ earlier e later, events = earlier ++ e :: later → e.Allowed earlier
  answers : answersOpened events = answersGiven before.server events
  openCount : openCount after.trace = openCount before.trace
  closeCount : closeCount after.trace = closeCount before.trace

/-- Where nothing is owed, the events since then are balanced. -/
theorem Owes.balanced {before after : World} (h : Owes [] before after) :
    ∃ events, Balanced before after events := by
  obtain ⟨events, ⟨htrace, hcount, -, hledger⟩, hanswers⟩ := h
  refine ⟨events, htrace, ?_, ?_, hledger.allowed, hanswers, ?_, ?_⟩
  · intro r hr
    have hnumber := List.mem_map_of_mem (f := Resource.number) (mem_openings.mpr hr)
    rw [hledger.numbers, List.mem_range'_1] at hnumber
    omega
  · intro r hr
    have hopened := List.count_eq_one_of_mem hledger.nodup (mem_openings.mpr hr)
    rw [count_opened, count_released]
    exact ⟨hopened, (hledger.balance.count_eq r).trans hopened⟩
  · have hlength := hledger.balance.length_eq
    rw [List.nil_append] at hlength
    unfold PageTree.openCount
    rw [htrace, List.countP_append, List.countP_append, countP_isOpening events,
      countP_isRelease events, hlength]
    omega
  · have hnone : PageTree.closeCount events = 0 := by
      rw [PageTree.closeCount, List.countP_eq_zero]
      intro e he hclosed
      obtain rfl := of_decide_eq_true hclosed
      obtain ⟨earlier, later, hsplit⟩ := List.append_of_mem he
      exact hledger.allowed earlier _ later hsplit
    rw [htrace, PageTree.closeCount, List.countP_append]
    exact congrArg _ hnone

/-- Whatever is asked of a session, in any order and however each call ends: all the calls together leave
nothing open, and neither does one more call after them. -/
theorem calls_balanced (s : Session) (calls : List Call) (w : World) :
    (∃ events, Balanced w (Call.worldAfter s calls w) events) ∧
    ∀ call : Call, ∃ events,
      Balanced (Call.worldAfter s calls w) ((call.run s).last (Call.worldAfter s calls w)) events :=
  ⟨(Call.worldAfter_owes s calls (.refl w)).balanced,
    fun call => ((call.run_settles s).last (.refl _)).balanced⟩

/-- An answer that refuses a page is released as well. -/
example :
    (((Call.createPage (text "S") (text "A") [] none).run ⟨text "http://wiki", none, none⟩).last
      (.start (.empty (.ofText (text "/w"))) [.answer ⟨500, none⟩ []])).trace.filter
        (fun e => !e.isNeutral) = [.opened (.response 0), .released (.response 0)] := by
  decide +kernel

end PageTree
