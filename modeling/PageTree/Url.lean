import PageTree.HostAddress
import PageTree.Text.Lowercase

/-!
# URLs

A URL is taken apart at its delimiters. Blanks and control codes before it count for nothing, nor do tabs
and line ends anywhere in it. What stands before the first colon is the scheme if it is made like one. The
host part follows two slashes. A fragment is cut off before a query, and the parameters of the last path
segment after that.

A host part is refused when its brackets do not enclose an address, and when it holds a letter that stands
for a delimiter in a compatible spelling, because another reader of the URL may see another host in it.
-/

set_option autoImplicit false

namespace PageTree

/-- The parts of a URL. A part that is not there is empty. -/
structure Url where
  scheme : Text
  host : Text
  path : Text
  params : Text
  query : Text
  fragment : Text
deriving DecidableEq

namespace Url

/-- The URL without what counts for nothing. -/
def clean (s : Text) : Text :=
  (s.dropWhile fun c => c.val ≤ 0x20).filter fun c => c.val ≠ 0x09 ∧ c.val ≠ 0x0A ∧ c.val ≠ 0x0D

/-- The code points of a scheme. -/
def isSchemePoint (c : CodePoint) : Bool :=
  c.isLetter || c.isDigit || c = '+' || c = '-' || c = '.'

/-- The scheme in lower case, and what follows the colon after it. -/
def cutScheme (s : Text) : Text × Text :=
  match Text.cut ':' s with
  | (front, some rest) =>
    if front.all isSchemePoint && (front.head?.map CodePoint.isLetter).getD false then
      (Text.lower front, rest)
    else ([], s)
  | (_, none) => ([], s)

/-- The end of a host part. -/
def endsHost (c : CodePoint) : Bool := c = '/' || c = '?' || c = '#'

/-- The host part after two slashes, and what follows it. -/
def cutHost : Text → Text × Text
  | x :: y :: s =>
    if x = '/' ∧ y = '/' then (s.takeWhile (!endsHost ·), s.dropWhile (!endsHost ·))
    else ([], x :: y :: s)
  | s => ([], s)

/-- A text before a delimiter, and what follows it, which is empty if there is none. -/
def cutAt (c : CodePoint) (s : Text) : Text × Text :=
  ((Text.cut c s).1, (Text.cut c s).2.getD [])

/-- The path and the parameters of its last segment. -/
def cutParams (path : Text) : Text × Text :=
  match Text.cutLast '/' path with
  | (some front, segment) =>
    let (name, params) := cutAt ';' segment
    (front ++ text "/" ++ name, params)
  | (none, segment) => cutAt ';' segment

/-- Whether the host of a host part with brackets is an address in brackets. -/
def bracketsFit (host : Text) : Bool :=
  let hostAndPort := (Text.cutLast '@' host).2
  match Text.cut '[' hostAndPort with
  | (front, some bracketed) =>
    let (address, port) := Text.cut ']' bracketed
    front = [] && ((port.getD []).head?.map (· == CodePoint.ofChar ':')).getD true &&
      HostAddress.isAddress address
  | (_, none) => HostAddress.isAddress (Text.cut ':' hostAndPort).1

/-- The code points that are no delimiters and hold one in their compatible spelling. -/
def disguised : List Nat :=
  [0x2047, 0x2048, 0x2049, 0x2100, 0x2101, 0x2105, 0x2106, 0x2A74, 0xFE13, 0xFE16, 0xFE55, 0xFE56,
    0xFE5F, 0xFE6B, 0xFF03, 0xFF0F, 0xFF1A, 0xFF1F, 0xFF20]

/-- Whether a host part is admitted. -/
def isHost (host : Text) : Bool :=
  let opening := host.contains (CodePoint.ofChar '[')
  let closing := host.contains (CodePoint.ofChar ']')
  opening == closing && (!opening || bracketsFit host) &&
    host.all fun c => !disguised.contains c.val

/-- The parts of a URL, unless its host part is refused. -/
def parse? (s : Text) : Option Url :=
  let (scheme, afterScheme) := cutScheme (clean s)
  let (host, afterHost) := cutHost afterScheme
  let (beforeFragment, fragment) := cutAt '#' afterHost
  let (beforeQuery, query) := cutAt '?' beforeFragment
  let (path, params) := cutParams beforeQuery
  if isHost host then some ⟨scheme, host, path, params, query, fragment⟩ else none

end Url

end PageTree
