import PageTree.Text

/-!
# Paths

A path is a root, if it has one, and a list of names. Empty names and the name `.` say nothing and are
dropped when a text is read as a path, so a path is written in one way only; the name `..` is kept, because
what it leads to is known only when files are looked up.

Two slashes at the very start, and no third one, make a root of their own.
-/

set_option autoImplicit false

namespace PageTree

/-- The start of a path. -/
inductive Path.Root
  | none
  | slash
  | doubleSlash
deriving DecidableEq

/-- A path. -/
structure Path where
  root : Path.Root
  names : List Text
deriving DecidableEq

namespace Path

/-- The text of a root. -/
def Root.toText : Root → Text
  | .none => []
  | .slash => PageTree.text "/"
  | .doubleSlash => PageTree.text "//"

/-- Whether a name leads anywhere. -/
def isName (s : Text) : Bool := s ≠ [] && s ≠ PageTree.text "."

/-- The root that a text starts with. -/
def rootOf (s : Text) : Root :=
  match (s.takeWhile (· == CodePoint.ofChar '/')).length with
  | 0 => .none
  | 2 => .doubleSlash
  | _ => .slash

/-- The path that a text spells. -/
def ofText (s : Text) : Path := ⟨rootOf s, (Text.splitAll '/' s).filter isName⟩

/-- The text of a path, which is `.` for the path that leads nowhere. -/
def toText (p : Path) : Text :=
  if p.root = .none ∧ p.names = [] then PageTree.text "."
  else p.root.toText ++ Text.join (PageTree.text "/") p.names

/-- Whether a path has a root. -/
def isAbsolute (p : Path) : Bool := p.root != .none

/-- A path seen from a directory. A path with a root stays as it is. -/
def join (directory p : Path) : Path :=
  if p.isAbsolute then p else { directory with names := directory.names ++ p.names }

/-- A path seen from the working directory. -/
def absolute (p workingDirectory : Path) : Path := join workingDirectory p

/-- The path without its last name. -/
def parent (p : Path) : Path := { p with names := p.names.dropLast }

/-- The last name, which is empty if there is none. -/
def name (p : Path) : Text := p.names.getLastD []

/-- The part of a name from its last dot on. A dot at the start or at the end of a name makes none. -/
def suffix (p : Path) : Text :=
  match Text.cutLast '.' p.name with
  | (some front, tail) => if front = [] ∨ tail = [] then [] else PageTree.text "." ++ tail
  | (none, _) => []

end Path

end PageTree
