import PageTree.CommandLine.Program
import PageTree.Json.Printer
import PageTree.Json.Reader

/-!
# The transcript

What passes between the program and the machine that runs it, line by line. A request goes out as a line
of JSON, and the reply to it comes in as a line of JSON; a record of the log goes out as a line of text.

A reply is an object: `status`, `reason` and `body`, or `body_b64` for a body in base 64, or else
`unreachable` and `explanation` if there was no answer. The line `null` and the end of the input stand for
the usual reply.
-/

set_option autoImplicit false

namespace PageTree.CommandLine

/-! ## Requests -/

/-- The object of fields with plain names. -/
def fieldsValue (fields : List (String × Value)) : Value :=
  .object (fields.map fun f => (text f.1, f.2))

/-- Header fields as an object. -/
def headersValue (headers : Headers) : Value := .object (headers.map fun h => (h.1, .str h.2))

/-- The fields that describe what a request carries. -/
def carried : Post → List (String × Value)
  | .page _ _ payload => [("payload", .str payload)]
  | .attachment _ _ name mediaType content =>
    [("name", .str name), ("type", .str mediaType), ("content", .str (Base64.encode content))]

/-- The line of a request. The header fields of the session go with it, unless it sets them itself. -/
def requestLine (session : Headers) (p : Post) : Text :=
  Json.write (fieldsValue
    (("url", .str p.url) :: ("headers", headersValue (session.update p.headers)) :: carried p))

/-! ## Replies -/

/-- The text of a member, and nothing if there is no such text. -/
def textMember? (name : String) (members : Members) : Option Text :=
  (Members.find? (text name) members).bind Value.asText?

/-- The reply that members describe. -/
def replyOf (members : Members) : Reply :=
  match textMember? "unreachable" members with
  | some kind => .unreachable kind ((textMember? "explanation" members).getD [])
  | none =>
    let code := match Members.find? (text "status") members with
      | some (.int n) => n
      | _ => 200
    let body := match (textMember? "body_b64" members).bind Base64.decode? with
      | some b => b
      | none => ((textMember? "body" members).getD []).flatMap Utf8.unit
    .answer ⟨code, textMember? "reason" members⟩ body

/-- The reply of a line, if it is one. -/
def reply? (line : Text) : Option Reply :=
  if Text.isBlank line then some .usual
  else
    match Json.read? Json.lenient line with
    | some .null => some .usual
    | some (.object members) => some (replyOf members)
    | _ => none

/-! ## Records -/

/-- The name of a level in a line of the log. -/
def levelLabel : Level → Text
  | .debug => text "DEBUG"
  | .info => text "INFO"
  | .warning => text "WARNING"
  | .error => text "ERROR"
  | .critical => text "CRITICAL"

/-- What is wrong at the end of a path of field names. -/
def leafSummary (leaf : Leaf) : Text :=
  Text.join (text ".") leaf.path ++ text ": " ++ leaf.misfit.detail?.getD (text "not readable")

/-- What is wrong with a document. -/
def yamlSummary : YamlFault → Text
  | .malformed => text "malformed document"
  | .unknownWord word => text "no truth value: " ++ word
  | .badNumber => text "malformed number or date"
  | .noDigits => text "number without digits"
  | .badTimestamp => text "malformed date"
  | .timestampNotScalar => text "date in a collection"
  | .numberTooLarge => text "number too large"

/-- What lies behind a failure, in a line of the log. -/
def causeSummary : Cause → Text
  | .file .missing => text "no such file or directory"
  | .file .isDirectory => text "is a directory"
  | .file .notDirectory => text "not a directory"
  | .file .nameTooLong => text "file name too long"
  | .notUtf8 => text "not encoded in UTF-8"
  | .json => text "malformed JSON"
  | .yaml fault => yamlSummary fault
  | .mismatch m => Text.join (text "; ") (m.leaves.map leafSummary)
  | .obstacle o => o.message
  | .transport kind => kind

/-- The line of a record. -/
def recordLine (level : Level) (message : Message) : Text :=
  levelLabel level ++ text ": " ++
    match message with
    | .words s => s
    | .cause c => causeSummary c

/-! ## Reruns -/

/-- The part of a trace up to its request of a number, counted from 1, and all of it if there are fewer.
One more reply cannot change this part: it is used only after that request. -/
def throughPost : Nat → List Event → List Event
  | _, [] => []
  | 0, _ => []
  | n + 1, .posted p :: rest => .posted p :: throughPost n rest
  | n + 1, e :: rest => e :: throughPost (n + 1) rest

/-- A run of the program in a world in which nothing has been done yet. -/
def attempt (line : List Text) (env : Environment) (files : FileSystem) (replies : List Reply) :
    Report × World :=
  match run line env (World.start files replies) with
  | .ok report w => (report, w)
  | .error _ w => (⟨.exit 1, none, [], []⟩, w)

end PageTree.CommandLine
