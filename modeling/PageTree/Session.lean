import PageTree.World
import PageTree.Base64
import PageTree.MediaType
import PageTree.PageRequest

/-!
# Sessions

A session knows where the server is and who asks. It creates a page and uploads an attachment, each with
one request, and checks that the server has accepted it: the status is 200, and the answer to a new page
names the identifier of the page.

Every answer is released before the operation ends, however it ends, and so is the file of an attachment.
-/

set_option autoImplicit false

namespace PageTree

/-- An open session. -/
structure Session where
  apiUrl : Text
  userName : Option Text
  apiKey : Option Text
deriving DecidableEq

/-- An answer of the server. -/
structure Answer where
  status : Status
  body : Bytes
  resource : Resource
deriving DecidableEq

/-- The header value that names a user and a password, if they can be encoded. -/
def basicAuthorization? (userName password : Text) : Option Text :=
  (Utf8.encode? (userName ++ text ":" ++ password)).map fun b => text "Basic " ++ Base64.encode b

/-- The JSON form of a value of a kind, or the failure to write it. -/
def payload (kind : Text) (v : Value) : Except Failure Text :=
  match Json.print v with
  | .ok s => .ok s
  | .error o => .error (.payloadRefused kind o)

namespace Session

/-- A session with a server. Slashes at the end of the URL are dropped. -/
def start (apiUrl : Text) (userName apiKey : Option Text) : Session :=
  ⟨Text.dropTrailing '/' apiUrl, userName, apiKey⟩

/-- The URL for new pages. -/
def pagesUrl (s : Session) : Text := s.apiUrl ++ text "/content"

/-- The URL for new attachments of a page. -/
def attachmentsUrl (s : Session) (pageId : Text) : Text :=
  s.apiUrl ++ text "/content/" ++ pageId ++ text "/child/attachment"

/-- Both credentials, if neither is missing or blank. -/
def credentials? (s : Session) : Option (Text × Text) :=
  match s.userName, s.apiKey with
  | some user, some key => if Text.isBlank user || Text.isBlank key then none else some (user, key)
  | _, _ => none

/-- The header fields that say who asks. -/
def authorization (s : Session) : Run Headers :=
  match s.credentials? with
  | none => return []
  | some (user, key) =>
    match basicAuthorization? user key with
    | some value => return [(text "Authorization", value)]
    | none => Run.crash .credentials

/-- The header fields of a request for a page. -/
def pageHeaders : Headers :=
  [(text "Content-Type", text "application/json"), (text "Accept", text "application/json")]

/-- The header fields of a request for an attachment. -/
def attachmentHeaders : Headers :=
  [(text "X-Atlassian-Token", text "no-check"), (text "Accept", text "application/json")]

/-- The body of the usual reply to a request, by how many pages were created so before and how many
requests have been sent. -/
def usualBody (usualPages postCount : Nat) : Activity → Text
  | .creatingPage =>
    text "\x7b\"id\": \"" ++ Text.ofNat (1001 + usualPages) ++ text "\", \"type\": \"page\"\x7d"
  | .uploadingAttachment =>
    text "\x7b\"results\": [\x7b\"id\": \"att" ++ Text.ofNat postCount ++ text "\"\x7d]\x7d"

/-- The world after the usual reply to a request. -/
def afterUsual (w : World) : Post → World
  | .page .. => { w with usualPages := w.usualPages + 1 }
  | .attachment .. => w

/-- The status of an accepted request. -/
def accepted : Status := ⟨200, some (text "OK")⟩

/-- Sends a request and takes what the server replies. -/
def exchange (p : Post) : Run (Status × Bytes) := do
  Run.note (.posted p)
  modify fun w => { w with postCount := w.postCount + 1 }
  let w ← get
  let reply := w.replies.headD .usual
  set { w with replies := w.replies.tail }
  match reply with
  | .usual =>
    let w ← get
    set (afterUsual w p)
    return (accepted, (usualBody w.usualPages w.postCount p.activity).flatMap Utf8.unit)
  | .answer status body => return (status, body)
  | .unreachable kind explanation => Run.fail (.requestNotSent p.url kind explanation)

/-- Sends a request and checks that the server has accepted it. -/
def send (p : Post) : Run Answer := do
  let (status, body) ← exchange p
  let resource ← Run.acquire .response
  let shown := Utf8.decodeLossy body
  if shown ≠ [] then
    Run.log .debug (text "Received HTTP payload:\n" ++ shown)
  if status.code ≠ 200 then
    Run.release resource
    Run.fail (.requestRefused p.activity status)
  return ⟨status, body, resource⟩

/-- The identifier that the body of an answer gives to a new page. -/
def identifier (status : Status) (body : Bytes) : Except Failure Text :=
  match Json.read? Json.lenient (Utf8.decodeLossy body) with
  | none => .error (.answerMalformed status)
  | some (.object members) =>
    match Members.find? (text "id") members with
    | some (.str (c :: s)) => .ok (c :: s)
    | _ => .error (.identifierMissing status)
  | some _ => .error (.identifierMissing status)

/-- The name of a request's kind in a message. -/
def pageRequestKind : Text := text "ConfluenceCreatePageRequest"

/-- What a check yields, or the failure it ends with. -/
def orFail {α : Type} : Except Failure α → Run α
  | .ok a => return a
  | .error f => Run.fail f

/-- Creates a page and yields its identifier. -/
def createPage (s : Session) (spaceKey title content : Text) (parentId : Option Text) : Run Text := do
  Run.log .info (text "Creating page: " ++ title)
  let body ← orFail (payload pageRequestKind (pageRequest spaceKey title content parentId).toValue)
  let authorization ← s.authorization
  let answer ← send (.page s.pagesUrl (pageHeaders ++ authorization) body)
  let id ← Run.ensuring (orFail (identifier answer.status answer.body)) (Run.release answer.resource)
  Run.log .debug (text "Created page with ID: " ++ id)
  return id

/-- Attaches a file to a page. -/
def uploadAttachment (s : Session) (pageId : Text) (path : Path) : Run Unit := do
  let content ← Run.readFile path (.attachmentUnreadable path)
  let file ← Run.acquire .file
  let answer ← Run.ensuring
    (do
      Run.log .info (text "Uploading attachment: " ++ path.name)
      let authorization ← s.authorization
      send (.attachment (s.attachmentsUrl pageId) (attachmentHeaders ++ authorization) path.name
        (MediaType.ofName path.name) content))
    (Run.release file)
  Run.release answer.resource

/-- Opens a session with settings. Their header fields go with every request. -/
def enter (settings : Settings) : Run Session := do
  Run.note (.sessionOpened (settings.headers.getD []))
  return start settings.apiUrl settings.userName settings.apiKey

/-- Closes a session. -/
def close : Run Unit := Run.note .sessionClosed

end Session

/-- A server with the session that is open with it. -/
structure Connection where
  settings : Settings
  session : Option Session
deriving DecidableEq

namespace Connection

/-- Opens a session. -/
def enter (c : Connection) : Run (Connection × Session) := do
  let session ← Session.enter c.settings
  return ({ c with session := some session }, session)

/-- Closes the session, if one is open. -/
def leave (c : Connection) : Run Connection := do
  if c.session.isSome then
    Session.close
  return { c with session := none }

end Connection

end PageTree
