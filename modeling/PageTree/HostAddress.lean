import PageTree.Text

/-!
# Host addresses

A host can be a number in place of a name, and such a host stands in brackets in a URL. Two forms are
known: an address of eight groups of hexadecimal digits, in which one run of zero groups may be left out and
the last two groups may be written as four decimal numbers; and a form for the future, which starts with
`v` and a version.
-/

set_option autoImplicit false

namespace PageTree.HostAddress

/-- One of the four decimal numbers: below 256 and without leading zeros. -/
def isOctet (s : Text) : Bool :=
  s ≠ [] && s.all CodePoint.isDigit && s.length ≤ 3 &&
    (s = text "0" || s.head? != some (CodePoint.ofChar '0')) && Text.digitsValue s ≤ 255

/-- Four decimal numbers with dots between them. -/
def isQuad (s : Text) : Bool :=
  let octets := Text.splitAll '.' s
  octets.length == 4 && octets.all isOctet

/-- A group of one to four hexadecimal digits. -/
def isGroup (s : Text) : Bool := s ≠ [] && s.all (fun c => c.hexValue?.isSome) && s.length ≤ 4

/-- How many groups an address has. -/
def groupCount : Nat := 8

/-- The groups with four decimal numbers at the end rewritten as two groups, if there are such. -/
def unfoldQuad (parts : List Text) : Option (List Text) :=
  match parts.getLast? with
  | some last =>
    if last.contains (CodePoint.ofChar '.') then
      if isQuad last then some (parts.dropLast ++ [text "0", text "0"]) else none
    else some parts
  | none => some parts

/-- The groups before a gap: groups, or nothing at all before the first colon. -/
def isHead : List Text → Bool
  | [] => true
  | [part] => part = [] || isGroup part
  | parts => parts.all isGroup

/-- The number of groups among parts. An empty part is no group. -/
def groups (parts : List Text) : Nat := (parts.filter (· ≠ [])).length

/-- Whether the parts between colons are an address. An empty part that is neither the first nor the last
one is the gap where zero groups are left out. -/
def areParts (parts : List Text) : Bool :=
  let inner := (parts.drop 1).dropLast
  if parts.length < 3 || parts.length > groupCount + 1 then false
  else
    match inner.findIdx? (· = []) with
    | none => parts.length == groupCount && parts.all isGroup
    | some i =>
      let front := parts.take (i + 1)
      let back := parts.drop (i + 2)
      isHead front && isHead back && groups front + groups back < groupCount

/-- An address of eight groups, with the name of a zone after a percent sign if there is one. -/
def isGrouped (s : Text) : Bool :=
  let (address, zone) := Text.cut '%' s
  let zoneFits :=
    match zone with
    | none => true
    | some z => z ≠ [] && !z.contains (CodePoint.ofChar '%')
  let parts := Text.splitAll ':' address
  zoneFits && 3 ≤ parts.length &&
    match unfoldQuad parts with
    | some unfolded => areParts unfolded
    | none => false

/-- An address of the form for the future, `v` being dropped: a version, a dot, and something. -/
def isVersioned (s : Text) : Bool :=
  match Text.cut '.' s with
  | (version, some rest) =>
    version ≠ [] && version.all (fun c => c.hexValue?.isSome) && rest ≠ [] &&
      !rest.contains (CodePoint.ofChar '\n')
  | (_, none) => false

/-- Whether a text is an address in one of the two forms. -/
def isAddress : Text → Bool
  | [] => false
  | c :: s => if c = 'v' then isVersioned s else isGrouped (c :: s)

end PageTree.HostAddress
