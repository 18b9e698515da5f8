import Artboard.Text.Encoding

/-!
# Addresses

A request names what it asks for by an address: an optional scheme, an optional host after two slashes, and a
path, which ends where a query or a fragment begins.  Only the path counts.  `Address.path?` gives it from
the root, with `.` and `..` taken out and escapes read; an escape may be escaped once more.
-/

namespace Artboard.Address

/-! ## 1. Parts -/

/-- The most characters of an address. -/
def maxLength : Nat := 65536

/-- A control character, which no address has. -/
def isControl (c : Char) : Bool := c.toNat < 0x20 || c.toNat == 0x7F

/-- A character of a scheme. -/
def isSchemeChar (c : Char) : Bool := c.isAlphanum || c == '+' || c == '-' || c == '.'

/-- A character of a path: neither a query nor a fragment begins with it. -/
def isPathChar (c : Char) : Bool := c != '?' && c != '#'

/-- The scheme of an address, and the rest.  It starts with a letter and ends at a colon; before the colon may
be nothing at all. -/
def takeScheme (s : List Char) : List Char × List Char :=
  let scheme := s.takeWhile isSchemeChar
  match s.dropWhile isSchemeChar with
  | ':' :: rest => if scheme.head?.all Char.isAlpha then (scheme, rest) else ([], s)
  | _ => ([], s)

/-- The host of what follows a scheme, and the rest. -/
def takeHost : List Char → List Char × List Char
  | '/' :: '/' :: rest =>
    let isHostChar (c : Char) : Bool := c != '/' && isPathChar c
    (rest.takeWhile isHostChar, rest.dropWhile isHostChar)
  | s => ([], s)

/-! ## 2. Segments -/

/-- The segments of a path between slashes; `current` holds the last one, last character first. -/
def segments (current : List Char) : List Char → List (List Char)
  | [] => [current.reverse]
  | c :: rest => if c == '/' then current.reverse :: segments [] rest else segments (c :: current) rest

/-- The segments with `.` and `..` taken out, one segment of `before` for each `..`, but not the empty one
in front. -/
def reduce (before : List (List Char)) : List (List Char) → List (List Char)
  | [] => before
  | ['.'] :: rest => reduce before rest
  | ['.', '.'] :: rest => reduce (if before == [[]] then before else before.dropLast) rest
  | segment :: rest => reduce (before ++ [segment]) rest

/-- A path with `.` and `..` taken out. -/
def reducePath (path : List Char) : List Char := ['/'].intercalate (reduce [] (segments [] path))

/-! ## 3. Paths -/

/-- A path from the root. -/
def fromRoot (path : List Char) : List Char := '/' :: path.dropWhile (· == '/')

/-- A path whose escapes are not read yet.  After a scheme or a host it is reduced by itself first; it is
from the root unless it follows both. -/
def rawPath? (s : List Char) : Option (List Char) :=
  let (scheme, rest) := takeScheme s
  let (host, rest) := takeHost rest
  let path := rest.takeWhile isPathChar
  if scheme.isEmpty && host.isEmpty then
    match path with
    | '/' :: '/' :: _ | ':' :: _ => none
    | _ => some (reducePath (fromRoot path))
  else if scheme.isEmpty || host.isEmpty then some (reducePath (fromRoot (reducePath path)))
  else some (reducePath path)

/-- The path of an address, `/` at the least. -/
def path? (address : String) : Option String :=
  let chars := address.toList
  if chars.any isControl || maxLength < chars.length then none
  else (rawPath? chars).map fun raw =>
    if raw.isEmpty then "/" else String.ofList (Text.Percent.decode (Text.Percent.decode raw))

end Artboard.Address
