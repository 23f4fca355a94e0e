import PageTree.Path
import PageTree.Utf8

/-!
# Files

A tree of directories and files, and the directory that relative paths start from. Names are bytes: a path
is text, and the surrogates U+DC80 to U+DCFF stand for the bytes that are no part of UTF-8. Any other
surrogate, and the code U+0000, cannot be part of a path at all (`PathFault`).

A path is followed name by name. The name `..` leads back to where the walk came from, and the top
directory is its own parent. What can go wrong on the way is a `FileFault`.
-/

set_option autoImplicit false

namespace PageTree

/-- A file or a directory. -/
inductive Entry
  | file (content : Bytes)
  | directory (entries : List (Bytes × Entry))

/-- Why a text is no path. -/
inductive PathFault
  | loneSurrogate
  | nullCode
deriving DecidableEq

/-- Why a file cannot be read. -/
inductive FileFault
  | missing
  | isDirectory
  | notDirectory
  | nameTooLong
deriving DecidableEq

/-- Why a path cannot be opened. -/
inductive OpenFault
  | path (fault : PathFault)
  | file (fault : FileFault)
deriving DecidableEq

/-- The directories and files that the program sees. -/
structure FileSystem where
  top : Entry
  workingDirectory : Path

namespace FileSystem

/-- The byte that a surrogate in a path stands for. -/
def strayByte? (c : CodePoint) : Option UInt8 :=
  if 0xDC80 ≤ c.val ∧ c.val ≤ 0xDCFF then some (c.val - 0xDC00).toUInt8 else none

/-- The bytes of a code point in a path. -/
def nameUnit? (c : CodePoint) : Option Bytes :=
  if c.isSurrogate then (strayByte? c).map fun b => [b] else some (Utf8.unit c)

/-- The bytes of a name. -/
def nameBytes? (s : Text) : Option Bytes := (s.mapM nameUnit?).map List.flatten

/-- The longest name, in bytes. -/
def longestName : Nat := 255

/-- The longest path, in bytes. -/
def longestPath : Nat := 4095

/-- The name of the directory above. -/
def above : Bytes := [46, 46]

/-- The entry of a name. -/
def child? (name : Bytes) : List (Bytes × Entry) → Option Entry
  | [] => none
  | (n, e) :: rest => if n = name then some e else child? name rest

/-- The entry that names lead to. The directories passed so far are `passed`, the innermost first, and
`here` are the entries of the current one. -/
def walk (passed : List (List (Bytes × Entry))) (here : List (Bytes × Entry)) :
    List Bytes → Except FileFault Entry
  | [] => .ok (.directory here)
  | name :: rest =>
    if name = above then
      match passed with
      | [] => walk [] here rest
      | outer :: more => walk more outer rest
    else if name.length > longestName then .error .nameTooLong
    else
      match child? name here with
      | none => .error .missing
      | some (.directory entries) => walk (here :: passed) entries rest
      | some (.file content) => if rest = [] then .ok (.file content) else .error .notDirectory

/-- The bytes of a path's names, unless the path cannot be used at all. -/
def pathBytes (p : Path) : Except OpenFault (List Bytes) :=
  match nameBytes? p.toText, p.names.mapM nameBytes? with
  | some whole, some names =>
    if whole.contains 0 then .error (.path .nullCode)
    else if whole.length > longestPath then .error (.file .nameTooLong)
    else .ok names
  | _, _ => .error (.path .loneSurrogate)

/-- The names of the working directory. -/
def workingNames (fs : FileSystem) : List Bytes := fs.workingDirectory.names.filterMap nameBytes?

/-- What is in the file at a path. -/
def read (fs : FileSystem) (p : Path) : Except OpenFault Bytes :=
  match pathBytes p with
  | .error fault => .error fault
  | .ok names =>
    match fs.top with
    | .file _ => .error (.file .notDirectory)
    | .directory entries =>
      match walk [] entries (if p.isAbsolute then names else fs.workingNames ++ names) with
      | .error fault => .error (.file fault)
      | .ok (.directory _) => .error (.file .isDirectory)
      | .ok (.file content) => .ok content

/-- The entries with an entry of a name, in the place of the one it replaces. -/
def put (name : Bytes) (e : Entry) : List (Bytes × Entry) → List (Bytes × Entry)
  | [] => [(name, e)]
  | (n, old) :: rest => if n = name then (n, e) :: rest else (n, old) :: put name e rest

/-- The entry with another entry put at the end of names. Directories on the way are made, and an entry
that is put over a directory keeps what is in it if it is a directory as well. -/
def place (new : Entry) : List Bytes → Entry → Entry
  | [], .directory entries =>
    match new with
    | .directory [] => .directory entries
    | other => other
  | [], _ => new
  | name :: rest, .directory entries =>
    .directory (put name (place new rest ((child? name entries).getD (.directory []))) entries)
  | name :: rest, .file _ => .directory [(name, place new rest (.directory []))]

/-- The entry without what stands at the end of names. -/
def erase : List Bytes → Entry → Entry
  | [], e => e
  | _, .file content => .file content
  | [name], .directory entries => .directory (entries.filter fun e => e.1 != name)
  | name :: next :: rest, .directory entries =>
    match child? name entries with
    | none => .directory entries
    | some e => .directory (put name (erase (next :: rest) e) entries)

/-- The names without those that a later `..` leads back from. -/
def direct (names : List Bytes) : List Bytes :=
  (names.foldl (fun passed name => if name = above then passed.tail else name :: passed) []).reverse

/-- The names from the top directory to a path. -/
def namesFromTop (fs : FileSystem) (p : Path) : List Bytes :=
  direct ((p.absolute fs.workingDirectory).names.filterMap nameBytes?)

/-- The files with an entry at a path. -/
def write (fs : FileSystem) (p : Path) (e : Entry) : FileSystem :=
  { fs with top := place e (fs.namesFromTop p) fs.top }

/-- The files without what is at a path. -/
def remove (fs : FileSystem) (p : Path) : FileSystem :=
  { fs with top := erase (fs.namesFromTop p) fs.top }

/-- The paths of the directories that a path leads through. -/
def directoriesOf (p : Path) : List Path :=
  (List.range p.names.length).map fun n => { p with names := p.names.take n }

/-- The files with an entry at a path, and with the directories that the path leads through. -/
def writeWithin (fs : FileSystem) (p : Path) (e : Entry) : FileSystem :=
  write ((directoriesOf p).foldl (fun fs d => write fs d (.directory [])) fs) p e

/-- Nothing but a working directory. -/
def empty (workingDirectory : Path) : FileSystem :=
  write ⟨.directory [], workingDirectory⟩ workingDirectory (.directory [])

end FileSystem

end PageTree
