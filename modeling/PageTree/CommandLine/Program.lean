import PageTree.CommandLine.Arguments
import PageTree.CommandLine.Help
import PageTree.Publisher

/-!
# The program

The program reads its arguments, finds its settings, and publishes the page tree of a metadata file in a
session that it opens and closes. It ends with status 0 when all pages are published, with status 1 and a
report in the log when that fails, and with status 2 and a complaint when arguments or settings make no
sense, in which case no session is opened.
-/

set_option autoImplicit false

namespace PageTree.CommandLine

/-- How the program ends. -/
inductive Ending
  | exit (status : Nat)
  | crash (c : Crash)
deriving DecidableEq

/-- What the program leaves besides the trace: how it ended, the log level it chose, and what it printed. -/
structure Report where
  ending : Ending
  level : Option Level
  output : Text
  complaints : Text

/-- What the program leaves when it ends before it has chosen a log level. -/
def Stop.report : Stop → Report
  | .help => ⟨.exit 0, none, helpText, []⟩
  | .version => ⟨.exit 0, none, versionText, []⟩
  | .complaint s => ⟨.exit 2, none, [], complaintLine s⟩

/-- The settings that arguments give. -/
def Arguments.settings (a : Arguments) : GivenSettings :=
  { apiUrl := a.apiUrl.toOption
    domain := a.domain.toOption
    basePath := a.path.toOption
    userName := a.userName.toOption
    apiKey := a.apiKey.toOption
    headers := a.headers }

/-- The log level that arguments give, and nothing if it has no value. -/
def Arguments.level? (a : Arguments) : Option Level :=
  a.logLevel.toOption.bind fun s => (levels.find? (·.1 == s)).map (·.2)

/-- The announcement of what is going to be published. -/
def announcement (m : Metadata) : Text :=
  let entries := outline 0 m.pages
  text "Publishing " ++ Text.ofNat entries.length ++ text " page(s) with " ++
    Text.ofNat (attachmentCount entries) ++ text " attachment(s) to space " ++ m.spaceKey

/-- Publishes the page tree of a metadata file in a session of its own. -/
def publishFile (settings : Settings) (path : Path) : Run Unit := do
  let (connection, session) ← Connection.enter ⟨settings, none⟩
  Run.ensuring
    (do
      let publisher ← Publisher.load session path
      Run.log .info (announcement publisher.metadata)
      publisher.publish)
    (discard connection.leave)

/-- The report of a failure in the log: its message, and its cause if it has one. -/
def reportFailure (f : Failure) : Run Unit := do
  Run.log .error f.message
  match f.cause? with
  | some cause => Run.note (.logged .error (.cause cause))
  | none => return ()

/-- Publishes the page tree of a metadata file and reports how that ends. -/
def publishAndReport (settings : Settings) (path : Path) : Run Ending := fun w =>
  match publishFile settings path w with
  | .ok _ w => .ok (.exit 0) w
  | .error (.crash c) w => .ok (.crash c) w
  | .error (.failure f) w =>
    match reportFailure f w with
    | .ok _ w => .ok (.exit 1) w
    | .error fault w => .error fault w

/-- The program after its arguments have been read. -/
def runWith (env : Environment) (a : Arguments) : Run Report := do
  match a.level? with
  | none => return ⟨.crash .logLevel, none, [], []⟩
  | some level =>
    match Settings.resolve env a.settings with
    | .error .hostMalformed => return ⟨.crash .host, some level, [], []⟩
    | .error (.refused fault) => return ⟨.exit 2, some level, [], complaintLine fault.message⟩
    | .ok settings =>
      let ending ← publishAndReport settings (Path.ofText a.metadata)
      return ⟨ending, some level, [], []⟩

/-- The program. -/
def run (line : List Text) (env : Environment) : Run Report := do
  match Arguments.parse line with
  | .error stop => return stop.report
  | .ok a => runWith env a

/-- The records of a log that a level lets through. -/
def visible (level : Level) (log : List (Level × Message)) : List (Level × Message) :=
  log.filter fun r => level.rank ≤ r.1.rank

end PageTree.CommandLine
