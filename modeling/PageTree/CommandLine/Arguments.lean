import PageTree.CommandLine.Word
import PageTree.Text.Quoted
import PageTree.World

/-!
# Arguments

The words of the command line are gone through from left to right. An option that takes a value is waiting
for the next plain word; the option for header fields takes all the plain words that follow. Of the other
plain words the first is the path of the metadata file and the rest are too many.

A request for help or for the version ends the walk at once. So does the first complaint.
-/

set_option autoImplicit false

namespace PageTree.CommandLine

/-- The value of an option. An option whose value is the word `--`, attached to it, is given and yet has no
value. -/
inductive Setting
  | absent
  | void
  | given (s : Text)
deriving DecidableEq

/-- The text of a setting, if it has one. -/
def Setting.toOption : Setting → Option Text
  | .given s => some s
  | _ => none

/-- What the command line asks for. -/
structure Arguments where
  metadata : Text
  apiUrl : Setting
  domain : Setting
  path : Setting
  userName : Setting
  apiKey : Setting
  headers : Option Headers
  logLevel : Setting
deriving DecidableEq

/-- Why the walk ends before there are arguments. -/
inductive Stop
  | help
  | version
  | complaint (s : Text)
deriving DecidableEq

/-- The names of the log levels. -/
def levels : List (Text × Level) :=
  [(text "debug", .debug), (text "info", .info), (text "warning", .warning), (text "error", .error),
    (text "critical", .critical)]

/-- The arguments before the first word, apart from the path. -/
def unset : Arguments :=
  ⟨[], .absent, .absent, .absent, .absent, .absent, none, .given (text "info")⟩

/-- A complaint about an option. -/
def complain {α : Type} (flag : Flag) (s : Text) : Except Stop α :=
  .error (.complaint (text "argument " ++ flag.label ++ text ": " ++ s))

/-- What an option waits for: nothing, a value, or header fields. When help was asked for in the same word,
the value is only waited for. -/
inductive Waiting
  | nothing
  | value (flag : Flag) (thenHelp : Bool)
  | pairs (words : List Text)
deriving DecidableEq

/-- How far the walk has come. -/
structure Walk where
  /-- The path of the metadata file. -/
  metadata : Option Text
  /-- Whether the last word was the path of the metadata file. -/
  afterMetadata : Bool
  arguments : Arguments
  extras : List Text
  waiting : Waiting

/-- The start of the walk. -/
def Walk.start : Walk := ⟨none, false, unset, [], .nothing⟩

/-- A header field: a name, an equals sign and a value. -/
def pair? (s : Text) : Option (Text × Text) :=
  match Text.cut '=' s with
  | (name, some value) => some (name, value)
  | (_, none) => none

/-- The arguments with the header fields that words spell. They replace those of an earlier option. -/
def setHeaders (words : List Text) (a : Arguments) : Except Stop Arguments :=
  match words.mapM pair? with
  | some pairs => .ok { a with headers := some (Headers.update [] pairs) }
  | none =>
    complain .headers
      (text "Could not parse argument \"" ++ Text.quotedList words ++
        text "\". It should follow the format: k1=v1 k2=v2 ...")

/-- The names of the log levels in quotation marks. -/
def quotedLevels : Text := Text.join (text ", ") (levels.map fun l => Text.quoted l.1)

/-- The complaint about a log level that is none. -/
def invalidLevel (s : Text) : Text :=
  text "invalid choice: " ++ Text.quoted s ++ text " (choose from " ++ quotedLevels ++ text ")"

/-- The arguments with a value for an option. -/
def setValue (flag : Flag) (v : Setting) (a : Arguments) : Except Stop Arguments :=
  match flag with
  | .apiUrl => .ok { a with apiUrl := v }
  | .domain => .ok { a with domain := v }
  | .path => .ok { a with path := v }
  | .userName => .ok { a with userName := v }
  | .apiKey => .ok { a with apiKey := v }
  | .logLevel =>
    match v with
    | .given s =>
      if levels.any (·.1 == s) then .ok { a with logLevel := v }
      else complain .logLevel (invalidLevel s)
    | _ => .ok { a with logLevel := v }
  | _ => .ok a

/-- The arguments with what is attached to an option. -/
def setAttached (flag : Flag) (s : Text) (a : Arguments) : Except Stop Arguments :=
  let isVoid := s = text "--"
  match flag with
  | .headers => setHeaders (if isVoid then [] else [s]) a
  | flag => setValue flag (if isVoid then .void else .given s) a

/-- Ends the waiting of an option when no plain word follows. -/
def Walk.settle (w : Walk) : Except Stop Walk :=
  match w.waiting with
  | .nothing => .ok w
  | .value flag _ => complain flag (text "expected one argument")
  | .pairs [] => complain .headers (text "expected at least one argument")
  | .pairs words => (setHeaders words w.arguments).map fun a => { w with arguments := a, waiting := .nothing }

/-- What follows `-h` in one word: more options of one letter. -/
def afterHelp : Text → Except Stop Waiting
  | [] => .error .help
  | c :: rest =>
    match Flag.ofSpelling? (text "-" ++ [c]) with
    | none => complain .help (text "ignored explicit argument " ++ Text.quoted (c :: rest))
    | some flag =>
      if flag.takesNothing then
        if rest = [] then .error .help else afterHelp rest
      else if rest = [] then .ok (.value flag true)
      else .error .help

/-- The end of the walk that an option asks for which takes nothing. -/
def stopOf : Flag → Stop
  | .version => .version
  | _ => .help

/-- An option. -/
def Walk.option (w : Walk) (flag : Flag) (short : Bool) (attached : Option Text) : Except Stop Walk :=
  match attached with
  | none =>
    if flag.takesNothing then .error (stopOf flag)
    else if flag = .headers then .ok { w with waiting := .pairs [] }
    else .ok { w with waiting := .value flag false }
  | some s =>
    if flag.takesNothing then
      if short && s ≠ [] then (afterHelp s).map fun waiting => { w with waiting }
      else complain flag (text "ignored explicit argument " ++ Text.quoted s)
    else (setAttached flag s w.arguments).map fun a => { w with arguments := a }

/-- A plain word. -/
def Walk.plain (w : Walk) (s : Text) : Except Stop Walk :=
  match w.waiting with
  | .value flag thenHelp =>
    if thenHelp then .error .help
    else
      (setValue flag (.given s) w.arguments).map fun a => { w with arguments := a, waiting := .nothing }
  | .pairs words => .ok { w with waiting := .pairs (words ++ [s]) }
  | .nothing =>
    match w.metadata with
    | none => .ok { w with metadata := some s, afterMetadata := true }
    | some _ => .ok { w with extras := w.extras ++ [s], afterMetadata := false }

/-- The word that ends the options. It is one too many unless the path of the metadata file is next to
it. -/
def Walk.endOptions (w : Walk) : Walk :=
  if w.metadata = none || w.afterMetadata then { w with afterMetadata := false }
  else { w with extras := w.extras ++ [text "--"] }

/-- One word of the walk. -/
def Walk.step (w : Walk) : Word → Except Stop Walk
  | .plain s => w.plain s
  | .option flag short attached => do
    let settled ← w.settle
    Walk.option { settled with afterMetadata := false } flag short attached
  | .unknown s => do
    let settled ← w.settle
    return { settled with extras := settled.extras ++ [s], afterMetadata := false }
  | .endOfOptions => do
    let settled ← w.settle
    return settled.endOptions

/-- The walk through words. -/
def Walk.run (w : Walk) : List Word → Except Stop Walk
  | [] => w.settle
  | word :: rest =>
    match w.step word with
    | .error stop => .error stop
    | .ok next => next.run rest

/-- The arguments at the end of the walk. -/
def Walk.finish (w : Walk) : Except Stop Arguments :=
  match w.metadata with
  | none => .error (.complaint (text "the following arguments are required: metadata"))
  | some s =>
    if w.extras = [] then .ok { w.arguments with metadata := s }
    else .error (.complaint (text "unrecognized arguments: " ++ Text.join (text " ") w.extras))

/-- The arguments that a command line gives. -/
def Arguments.parse (line : List Text) : Except Stop Arguments :=
  match Word.sort line with
  | .error s => .error (.complaint s)
  | .ok words =>
    match Walk.start.run words with
    | .error stop => .error stop
    | .ok last => last.finish

/-- The complaint about a command line, as it is printed. -/
def complaintLine (s : Text) : Text := text "tree2conf: error: " ++ s ++ text "\n"

end PageTree.CommandLine
