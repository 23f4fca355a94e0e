import PageTree.Text.DecimalDigit
import PageTree.Text

/-!
# Words of the command line

Before anything is done the words of the command line are sorted into plain words and options. An option
is spelled out, or cut short if no other begins alike; a value may follow it in the same word, after an
equals sign or, for an option of one letter, at once. Words after the word `--` are plain.

A word that looks like a negative number or holds a space is plain although it begins with a hyphen, unless
it can be read as an option.
-/

set_option autoImplicit false

namespace PageTree.CommandLine

/-- The options. -/
inductive Flag
  | help
  | version
  | apiUrl
  | domain
  | path
  | userName
  | apiKey
  | headers
  | logLevel
deriving DecidableEq

namespace Flag

/-- The name of an option in a message: all its spellings. -/
def label : Flag → Text
  | .help => text "-h/--help"
  | .version => text "--version"
  | .apiUrl => text "--api-url"
  | .domain => text "-d/--domain"
  | .path => text "-p/--path"
  | .userName => text "-u/--username"
  | .apiKey => text "-a/--api-key"
  | .headers => text "--headers"
  | .logLevel => text "-l/--loglevel"

/-- The spellings of the options, in the order in which they are listed. -/
def spellings : List (Text × Flag) :=
  [(text "-h", .help), (text "--help", .help), (text "--version", .version),
    (text "--api-url", .apiUrl), (text "-d", .domain), (text "--domain", .domain),
    (text "-p", .path), (text "--path", .path), (text "-u", .userName),
    (text "--username", .userName), (text "-a", .apiKey), (text "--api-key", .apiKey),
    (text "--headers", .headers), (text "-l", .logLevel), (text "--loglevel", .logLevel)]

/-- The option of a spelling. -/
def ofSpelling? (s : Text) : Option Flag := (spellings.find? (·.1 == s)).map (·.2)

/-- Whether an option is complete without a value. -/
def takesNothing : Flag → Bool
  | .help => true
  | .version => true
  | _ => false

end Flag

/-- A word of the command line. -/
inductive Word
  | plain (s : Text)
  | option (flag : Flag) (short : Bool) (attached : Option Text)
  | unknown (s : Text)
  | endOfOptions
deriving DecidableEq

namespace Word

/-- Whether a word begins with two hyphens. -/
def isLong (s : Text) : Bool := (text "--").isPrefixOf s

/-- What an option stands for, with its value if one is attached. -/
def ofFlag (spelled : Text) (flag : Flag) (attached : Option Text) : Word :=
  .option flag (!isLong spelled) attached

/-- The readings of a word as an option that is cut short, or that a value follows at once. -/
def readings (s : Text) : List (Text × Flag × Option Text) :=
  if isLong s then
    let (front, attached) := Text.cut '=' s
    (Flag.spellings.filter fun o => front.isPrefixOf o.1).map fun o => (o.1, o.2, attached)
  else
    (Flag.spellings.filter fun o => o.1 == s.take 2).map fun o => (o.1, o.2, some (s.drop 2))

/-- Digits and then nothing, or one line end. -/
def endsInDigits (s : Text) : Bool :=
  let digits := if s.getLast? = some (CodePoint.ofChar '\n') then s.dropLast else s
  digits ≠ [] && digits.all CodePoint.isDecimal

/-- Whether a word that begins with a hyphen looks like a negative number. -/
def isNegativeNumber : Text → Bool
  | [] => false
  | _ :: s =>
    endsInDigits s ||
      match Text.cut '.' s with
      | (whole, some fraction) => whole.all CodePoint.isDecimal && endsInDigits fraction
      | (_, none) => false

/-- The complaint about a word that several options begin like. -/
def ambiguity (s : Text) (matching : List Text) : Text :=
  text "ambiguous option: " ++ s ++ text " could match " ++ Text.join (text ", ") matching

/-- The option of a word whose value follows an equals sign, if the option is spelled out. -/
def withEquals? (s : Text) : Option Word :=
  match Text.cut '=' s with
  | (front, some value) => (Flag.ofSpelling? front).map fun flag => ofFlag front flag (some value)
  | (_, none) => none

/-- A word that is spelled out as no option. -/
def ofReadings (s : Text) : Except Text Word :=
  match readings s with
  | [] =>
    if isNegativeNumber s || s.contains (CodePoint.ofChar ' ') then .ok (.plain s)
    else .ok (.unknown s)
  | [(spelled, flag, attached)] => .ok (ofFlag spelled flag attached)
  | several => .error (ambiguity s (several.map (·.1)))

/-- What a word is, or the complaint about it. -/
def ofText (s : Text) : Except Text Word :=
  if s.head? ≠ some (CodePoint.ofChar '-') ∨ s.length = 1 then .ok (.plain s)
  else
    match Flag.ofSpelling? s with
    | some flag => .ok (ofFlag s flag none)
    | none =>
      match withEquals? s with
      | some word => .ok word
      | none => ofReadings s

/-- What the words of a command line are, or the complaint about the first that is no word. -/
def sort : List Text → Except Text (List Word)
  | [] => .ok []
  | s :: rest =>
    if s = text "--" then .ok (.endOfOptions :: rest.map .plain)
    else
      match ofText s with
      | .error complaint => .error complaint
      | .ok word =>
        match sort rest with
        | .error complaint => .error complaint
        | .ok words => .ok (word :: words)

end Word

end PageTree.CommandLine
