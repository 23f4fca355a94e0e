import PageTree.Fault
import PageTree.Settings

/-!
# The world

The program reads files and talks to a server. A `World` holds what it can find there, the files and the
replies that the server is going to give, and the trace of what it has done: what it logged and posted, and
what it opened and released. Everything that an observer can tell about a run is a view of the trace.

A `Run` is a step of the program: it changes the world and ends with a value or with a fault. What has
been done stays done when a run ends with a fault.
-/

set_option autoImplicit false

namespace PageTree

/-- The weight of a record in the log. -/
inductive Level
  | debug
  | info
  | warning
  | error
  | critical
deriving DecidableEq

/-- The rank of a level. -/
def Level.rank : Level → Nat
  | .debug => 10
  | .info => 20
  | .warning => 30
  | .error => 40
  | .critical => 50

/-- A record in the log: words, or the cause of a failure. -/
inductive Message
  | words (s : Text)
  | cause (c : Cause)
deriving DecidableEq

/-- A request sent to the server. -/
inductive Post
  | page (url : Text) (headers : Headers) (payload : Text)
  | attachment (url : Text) (headers : Headers) (name mediaType : Text) (content : Bytes)
deriving DecidableEq

/-- The URL of a request. -/
def Post.url : Post → Text
  | .page url _ _ => url
  | .attachment url _ _ _ _ => url

/-- The header fields of a request. -/
def Post.headers : Post → Headers
  | .page _ headers _ => headers
  | .attachment _ headers _ _ _ => headers

/-- What a request is sent for. -/
def Post.activity : Post → Activity
  | .page .. => .creatingPage
  | .attachment .. => .uploadingAttachment

/-- What the server does with a request. -/
inductive Reply
  | usual
  | answer (status : Status) (body : Bytes)
  | unreachable (kind explanation : Text)
deriving DecidableEq

/-- Something that is opened and has to be released. -/
inductive Resource
  | response (number : Nat)
  | file (number : Nat)
deriving DecidableEq

/-- Something that the program has done. -/
inductive Event
  | logged (level : Level) (message : Message)
  | posted (p : Post)
  | opened (r : Resource)
  | released (r : Resource)
  | sessionOpened (headers : Headers)
  | sessionClosed
deriving DecidableEq

/-- What the program finds, and the trace of what it has done. -/
structure World where
  files : FileSystem
  /-- The replies to come. When there are none left, the server gives its usual one. -/
  replies : List Reply
  /-- How many requests have been sent. -/
  postCount : Nat
  /-- How many pages have been created by a usual reply. -/
  usualPages : Nat
  /-- How many resources have been opened. -/
  openedCount : Nat
  trace : List Event

/-- A world in which nothing has been done yet. -/
def World.start (files : FileSystem) (replies : List Reply) : World := ⟨files, replies, 0, 0, 0, []⟩

/-- The requests in a trace. -/
def posts (trace : List Event) : List Post :=
  trace.filterMap fun
    | .posted p => some p
    | _ => none

/-- The records in a trace. -/
def records (trace : List Event) : List (Level × Message) :=
  trace.filterMap fun
    | .logged level message => some (level, message)
    | _ => none

/-- Whether something is opened. -/
def Event.isOpening : Event → Bool
  | .opened _ => true
  | _ => false

/-- Whether something is released. -/
def Event.isRelease : Event → Bool
  | .released _ => true
  | _ => false

/-- How many resources are open at the end of a trace. -/
def openCount (trace : List Event) : Int :=
  (trace.countP Event.isOpening : Int) - trace.countP Event.isRelease

/-- How often sessions have been closed. -/
def closeCount (trace : List Event) : Nat := trace.countP fun e => e = .sessionClosed

/-- Header fields with those of another list set. -/
def Headers.update (headers new : Headers) : Headers :=
  new.foldl (fun hs h =>
    if hs.any (·.1 == h.1) then hs.map fun old => if old.1 = h.1 then h else old else hs ++ [h]) headers

/-- The header fields that the sessions of a trace send with every request. -/
def sessionHeaders (trace : List Event) : Headers :=
  trace.foldl (fun hs e =>
    match e with
    | .sessionOpened headers => Headers.update hs headers
    | _ => hs) []

/-! ## Runs -/

/-- A step of the program. -/
abbrev Run (α : Type) := EStateM Fault World α

namespace Run

/-- Adds to the trace. -/
def note (e : Event) : Run Unit := modify fun w => { w with trace := w.trace ++ [e] }

/-- Adds words to the log. -/
def log (level : Level) (s : Text) : Run Unit := note (.logged level (.words s))

/-- Ends with a failure. -/
def fail {α : Type} (f : Failure) : Run α := throw (.failure f)

/-- Ends with a crash. -/
def crash {α : Type} (c : Crash) : Run α := throw (.crash c)

/-- A run with something that is done at its end, however it ends. -/
def ensuring {α : Type} (body : Run α) (last : Run Unit) : Run α := fun w =>
  match body w with
  | .ok a w =>
    match last w with
    | .ok _ w => .ok a w
    | .error fault w => .error fault w
  | .error fault w =>
    match last w with
    | .ok _ w => .error fault w
    | .error fault w => .error fault w

/-- Opens a resource. -/
def acquire (make : Nat → Resource) : Run Resource := do
  let w ← get
  let r := make w.openedCount
  set { w with openedCount := w.openedCount + 1, trace := w.trace ++ [Event.opened r] }
  return r

/-- Releases a resource. -/
def release (r : Resource) : Run Unit := note (.released r)

/-- What is in a file. A path that is none is a crash. -/
def readFile (p : Path) (unreadable : Cause → Failure) : Run Bytes := do
  match (← get).files.read p with
  | .ok content => return content
  | .error (.path fault) => crash (.path fault)
  | .error (.file fault) => fail (unreadable (.file fault))

/-- The text in a file, each line end written as a line feed. -/
def readText (p : Path) (unreadable : Cause → Failure) : Run Text := do
  let content ← readFile p unreadable
  match Utf8.decode? content with
  | some s => return Text.unifyLines s
  | none => fail (unreadable .notUtf8)

end Run

end PageTree
