import PageTree.CommandLine.Transcript

/-!
# The program on a machine

`main` looks up what the program may ask for, the environment and the files, and runs it. Requests are
written to the standard output and replies are read from the standard input, so that what sends them can
stand beside the program; the log goes to the standard error output.

A run takes all replies at once. So the program is run again with each reply that comes in, and what is new
in the trace is shown; what has been shown stays the same (`CommandLine.throughPost`).
-/

set_option autoImplicit false

namespace PageTree.CommandLine

/-- The variables that hold settings. -/
def variableNames : List String :=
  ["CONFLUENCE_API_URL", "CONFLUENCE_DOMAIN", "CONFLUENCE_PATH", "CONFLUENCE_USER_NAME",
    "CONFLUENCE_API_KEY"]

/-- The environment of the process. -/
def environment : IO Environment :=
  variableNames.filterMapM fun name => do
    return (← IO.getEnv name).map fun value => (text name, text value)

/-- What stands on the disk at a path, if that can be told. -/
def entryAt? (p : Path) : IO (Option Entry) := do
  try
    let content ← IO.FS.readBinFile (Text.toString p.toText)
    return some (.file content.toList)
  catch e =>
    match e with
    | .inappropriateType .. => return some (.directory [])
    | _ => return none

/-- The files with what stands on the disk at a path. -/
def lookAt (files : FileSystem) (p : Path) : IO FileSystem := do
  match ← entryAt? p with
  | some e => return files.writeWithin p e
  | none => return files

/-- The files that the program can ask for: the metadata file and the files that its tree refers to. -/
def filesFor (line : List Text) : IO FileSystem := do
  let here := Path.ofText (text (← IO.currentDir).toString)
  let bare := FileSystem.empty here
  match Arguments.parse line with
  | .error _ => return bare
  | .ok a =>
    let path := Path.ofText a.metadata
    let files ← lookAt bare path
    match Metadata.load path (World.start files []) with
    | .error _ _ => return files
    | .ok m _ => (m.filePaths (path.absolute here).parent).foldlM lookAt files

/-- Shows what the program has done. -/
def showEvent (level : Option Level) (session : Headers) : Event → IO Unit
  | .logged l message => do
    if level.any fun least => least.rank ≤ l.rank then
      IO.eprintln (Text.toString (recordLine l message))
  | .posted p => do
    let out ← IO.getStdout
    out.putStrLn (Text.toString (requestLine session p))
    out.flush
  | _ => return ()

/-- The next reply from the input. -/
def nextReply : IO Reply := do
  let line ← (← IO.getStdin).getLine
  return (reply? (text line)).getD (.unreachable (text "reply") (text "reply not understood"))

/-- Runs the program with one more reply for each of its requests. -/
partial def converse (attempt : List Reply → Report × World) (replies : List Reply) (shown : Nat) :
    IO Report := do
  let (report, w) := attempt replies
  let known := throughPost (replies.length + 1) w.trace
  for e in known.drop shown do
    showEvent report.level (sessionHeaders w.trace) e
  if replies.length < w.postCount then
    let reply ← nextReply
    converse attempt (replies ++ [reply]) known.length
  else
    return report

/-- The exit status of an ending. -/
def Ending.status : Ending → UInt32
  | .exit status => status.toUInt32
  | .crash _ => 1

/-- The program with the words of its command line. -/
def execute (args : List String) : IO UInt32 := do
  let line := args.map text
  let env ← environment
  let files ← filesFor line
  let report ← converse (attempt line env files) [] 0
  IO.print (Text.toString report.output)
  IO.eprint (Text.toString report.complaints)
  if let .crash _ := report.ending then
    IO.eprintln "the program ended unexpectedly"
  return report.ending.status

end PageTree.CommandLine

/-- The command line of the program. -/
def main (args : List String) : IO UInt32 := PageTree.CommandLine.execute args
