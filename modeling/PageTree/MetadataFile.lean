import PageTree.World
import PageTree.Page
import PageTree.Yaml.Reader

/-!
# Metadata files

A page tree is described by a file in JSON or in YAML; the suffix of the file's path tells which. A tree
without a space key cannot be published, so a blank key is refused here.
-/

set_option autoImplicit false

namespace PageTree

/-- The suffixes of YAML files, whatever the case of their letters. -/
def yamlSuffixes : List Text := [text ".yaml", text ".yml"]

/-- Whether a path is that of a YAML file. -/
def isYamlPath (path : Path) : Bool := yamlSuffixes.contains (Text.lower path.suffix)

/-- A value, as a tree. -/
def Metadata.ofValue (v : Value) : Except Cause Metadata := (Metadata.shape v).mapError .mismatch

/-- The tree that a JSON text describes. -/
def Metadata.ofJson (s : Text) : Except Cause Metadata :=
  match Json.read? Json.strict s with
  | some v => Metadata.ofValue v
  | none => .error .json

/-- The tree that a YAML text describes. -/
def Metadata.ofYaml (s : Text) : Except Cause Metadata :=
  match Yaml.read s with
  | .ok v => Metadata.ofValue v
  | .error fault => .error (.yaml fault)

/-- The faults of a YAML text that a report is made of. The others are not foreseen. -/
def YamlFault.isForeseen : YamlFault → Bool
  | .malformed => true
  | .unknownWord _ => true
  | .badNumber => true
  | .noDigits => false
  | .badTimestamp => false
  | .timestampNotScalar => true
  | .numberTooLarge => false

/-- How reading a tree ends when something is wrong with it. -/
def Run.reject {α : Type} (path : Path) : Cause → Run α
  | .yaml fault =>
    if fault.isForeseen then Run.fail (.metadataMalformed path (.yaml fault))
    else Run.crash (.yaml fault)
  | cause => Run.fail (.metadataMalformed path cause)

/-- Reads the tree that a file describes. -/
def Metadata.load (path : Path) : Run Metadata := do
  Run.log .info (text "Reading metadata: " ++ path.toText)
  let s ← Run.readText path (.metadataUnreadable path)
  match if isYamlPath path then Metadata.ofYaml s else Metadata.ofJson s with
  | .error cause => Run.reject path cause
  | .ok m =>
    if Text.isBlank m.spaceKey then Run.fail (.spaceKeyMissing path)
    else return m

end PageTree
