import PageTree.FileSystem
import PageTree.Shape
import PageTree.Json.Printer

/-!
# Faults

Publishing a tree is aborted by a `Failure`: each says what could not be done, in one message, and most
know a `Cause` behind them. A `Crash` is what the program does not foresee and so does not report in words
of its own.
-/

set_option autoImplicit false

namespace PageTree

/-- What is wrong with a YAML document. Only `malformed` is found by the grammar; the others are found when
a text is turned into the value that its tag asks for. -/
inductive YamlFault
  | malformed
  | unknownWord (word : Text)
  | badNumber
  | noDigits
  | badTimestamp
  | timestampNotScalar
  | numberTooLarge
deriving DecidableEq

/-- What lies behind a failure. -/
inductive Cause
  | file (fault : FileFault)
  | notUtf8
  | json
  | yaml (fault : YamlFault)
  | mismatch (m : Mismatch)
  | obstacle (o : Json.Obstacle)
  | transport (kind : Text)
deriving DecidableEq

/-- What a request is sent for. -/
inductive Activity
  | creatingPage
  | uploadingAttachment
deriving DecidableEq

/-- An activity in a message. -/
def Activity.toText : Activity → Text
  | .creatingPage => text "creating page"
  | .uploadingAttachment => text "uploading attachment"

/-- The status of an answer: its number and the phrase that explains it. -/
structure Status where
  code : Int
  reason : Option Text
deriving DecidableEq

/-- A status in a message. -/
def Status.toText (s : Status) : Text :=
  Text.ofInt s.code ++ text " " ++ s.reason.getD (text "None")

/-- What aborts publishing. -/
inductive Failure
  | metadataUnreadable (path : Path) (cause : Cause)
  | metadataMalformed (path : Path) (cause : Cause)
  | spaceKeyMissing (path : Path)
  | contentUnreadable (path : Path) (cause : Cause)
  | attachmentUnreadable (path : Path) (cause : Cause)
  | requestNotSent (url : Text) (kind : Text) (explanation : Text)
  | requestRefused (activity : Activity) (status : Status)
  | answerMalformed (status : Status)
  | identifierMissing (status : Status)
  | payloadRefused (kind : Text) (obstacle : Json.Obstacle)
deriving DecidableEq

namespace Failure

/-- The message of a failure. -/
def message : Failure → Text
  | .metadataUnreadable path _ => text "could not read metadata file: " ++ path.toText
  | .metadataMalformed path _ => text "could not parse metadata file: " ++ path.toText
  | .spaceKeyMissing path => text "space key not specified in metadata file: " ++ path.toText
  | .contentUnreadable path _ => text "could not read page content file: " ++ path.toText
  | .attachmentUnreadable path _ => text "could not read attachment file: " ++ path.toText
  | .requestNotSent url _ explanation =>
    text "request could not be sent to " ++ url ++ text ": " ++ explanation
  | .requestRefused activity status =>
    text "error while " ++ activity.toText ++ text ": " ++ status.toText
  | .answerMalformed status =>
    text "could not read JSON response for new page: " ++ status.toText
  | .identifierMissing status => text "no content ID in response for new page: " ++ status.toText
  | .payloadRefused kind obstacle =>
    text "unable to convert " ++ kind ++ text " to JSON: " ++ obstacle.message

/-- What lies behind a failure. -/
def cause? : Failure → Option Cause
  | .metadataUnreadable _ cause => some cause
  | .metadataMalformed _ cause => some cause
  | .spaceKeyMissing _ => none
  | .contentUnreadable _ cause => some cause
  | .attachmentUnreadable _ cause => some cause
  | .requestNotSent _ kind _ => some (.transport kind)
  | .requestRefused _ _ => none
  | .answerMalformed _ => some .json
  | .identifierMissing _ => none
  | .payloadRefused _ obstacle => some (.obstacle obstacle)

/-- The path of a content file or an attachment that cannot be read. -/
def path? : Failure → Option Path
  | .contentUnreadable path _ => some path
  | .attachmentUnreadable path _ => some path
  | _ => none

/-- The status of an answer that was no use. -/
def status? : Failure → Option Status
  | .requestRefused _ status => some status
  | .answerMalformed status => some status
  | .identifierMissing status => some status
  | _ => none

end Failure

/-- What the program does not foresee. -/
inductive Crash
  | path (fault : PathFault)
  | yaml (fault : YamlFault)
  | credentials
  | host
  | logLevel
deriving DecidableEq

/-- What ends a run early. -/
inductive Fault
  | failure (f : Failure)
  | crash (c : Crash)
deriving DecidableEq

end PageTree
