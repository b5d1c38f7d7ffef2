import NodeKeeper.Web.Host

/-!
# Addresses

The address of a service is split into its parts, each part is brought into its canonical form, and
paths are added to it.

## Main definitions

* `Address` — the parts of an address.
* `Address.parse` — the parts of a text.
* `Address.join` — the address of a path below another address.
* `Address.text` — the canonical text.

## Implementation notes

Scheme and host are written in small letters, the default port of a scheme is left out, the segments
`.` and `..` are resolved, and characters that a part may not hold are escaped. Where a part is
replaced, the text of the authority is read once more, which brings it closer to its canonical form.
-/

namespace NodeKeeper

/-- The parts of an address. -/
structure Address where
  scheme : String
  user : String
  host : String
  port : Option Int
  path : String
  query : Option String
  fragment : Option String
deriving DecidableEq, Repr

namespace Address

/-! ## Flaws -/

/-- Why a text is no address. -/
inductive Flaw where
  | tooLong
  /-- A control character stands at a place. -/
  | control (c : Char) (place : Nat)
  | host (flaw : Host.Flaw) (text : String)
  | port (text : String)
  /-- The path behind a host does not begin with a slash. -/
  | openPath
  /-- A path with nothing in front of it begins like the part that is missing. -/
  | misleadingPath (start : String)
  /-- A part is too long. -/
  | partTooLong (part : String)
deriving DecidableEq, Repr

/-- What is said about a flaw. -/
def Flaw.message : Flaw → String
  | tooLong => "URL too long"
  | control c place =>
    "Invalid non-printable ASCII character in URL, " ++ Text.quoted (String.singleton c) ++
      s!" at position {place}."
  | host flaw text => s!"Invalid {flaw.word}: {Text.quoted text}"
  | port text => s!"Invalid port: {Text.quoted text}"
  | openPath => "For absolute URLs, path must be empty or begin with '/'"
  | misleadingPath start => s!"Relative URLs cannot have a path starting with '{start}'"
  | partTooLong part => s!"URL component '{part}' too long"

/-- The greatest length of an address, and of each of its parts. -/
def maxLength : Nat := 65536

/-! ## Splitting -/

/-- The characters in front of and behind the first separator. -/
def cutAt (separator : Char) (cs : List Char) : List Char × Option (List Char) :=
  match cs.dropWhile (· != separator) with
  | [] => (cs, none)
  | _ :: rest => (cs.takeWhile (· != separator), some rest)

/-- The scheme in front of a colon, and what follows. -/
def splitScheme (cs : List Char) : List Char × List Char :=
  let word := cs.takeWhile fun c => c.isAlphanum || c = '+' || c = '.' || c = '-'
  match word, cs.drop word.length with
  | [], ':' :: rest => ([], rest)
  | first :: _, ':' :: rest => if first.isAlpha then (word, rest) else ([], cs)
  | _, _ => ([], cs)

/-- The authority behind two slashes, and what follows. -/
def splitAuthority (cs : List Char) : List Char × List Char :=
  match cs with
  | '/' :: '/' :: rest => rest.span (· != '/')
  | _ => ([], cs)

/-- The user in front of the last at sign, and what follows. -/
def splitUser (cs : List Char) : List Char × List Char :=
  match cutAt '@' cs.reverse with
  | (_, none) => ([], cs)
  | (host, some user) => (user.reverse, host.reverse)

/-- The host, which may stand in brackets, and what follows. -/
def splitHost (cs : List Char) : List Char × List Char :=
  let closed := (cs.reverse.dropWhile (· != ']')).reverse
  if cs.head? = some '[' && !closed.isEmpty then (closed, cs.drop closed.length)
  else cs.span (· != ':')

/-- The user, the host and the port of an authority. A colon may stand in front of the port. -/
def splitPlace (cs : List Char) : List Char × List Char × List Char :=
  let (user, place) := splitUser cs
  let (host, rest) := splitHost place
  (user, host, if rest.head? = some ':' then rest.tail else rest)

/-! ## Canonical forms -/

/-- Resolves the segments that stand for this place and for the one above it. -/
def resolve (parts : List (List Char)) : List (List Char) :=
  parts.foldl
    (fun seen part =>
      if part = ['.'] then seen
      else if part = ['.', '.'] then (if seen = [[]] then seen else seen.dropLast)
      else seen ++ [part]) []

/-- A path without segments that stand for other places. -/
def plainPath (cs : List Char) : List Char :=
  ['/'].intercalate (resolve (cs.splitOnP (· == '/')))

/-- The port that goes without saying. -/
def defaultPort? (scheme : String) : Option Int :=
  [("ftp", 21), ("http", 80), ("https", 443), ("ws", 80), ("wss", 443)].lookup scheme

/-- The port of a scheme, unless it is the default one. -/
def readPort (scheme : String) (cs : List Char) : Except Flaw (Option Int) :=
  let text := String.ofList cs
  if cs.isEmpty then .ok none
  else
    match Text.integer text with
    | .ok n => .ok (if defaultPort? scheme = some n then none else some n)
    | .error _ => .error (.port text)

/-- A path has to suit what stands in front of it. -/
def checkPath (hasScheme hasAuthority : Bool) (path : List Char) : Except Flaw Unit :=
  if hasAuthority then
    if path.isEmpty || path.head? = some '/' then .ok () else .error .openPath
  else if hasScheme then .ok ()
  else if ['/', '/'].isPrefixOf path then .error (.misleadingPath "//")
  else if path.head? = some ':' then .error (.misleadingPath ":")
  else .ok ()

/-- An address whose parts are still as they were given. -/
structure Rough where
  scheme : List Char
  user : List Char
  host : List Char
  port : List Char
  path : List Char
  query : Option (List Char)
  fragment : Option (List Char)

/-- Brings all parts into their canonical forms. -/
def Rough.settle (r : Rough) : Except Flaw Address := do
  let host ← (Host.read r.host).mapError fun flaw => .host flaw (String.ofList r.host)
  let port ← readPort (String.ofList r.scheme) r.port
  let hasScheme := !r.scheme.isEmpty
  let hasAuthority := !r.user.isEmpty || !host.isEmpty || port.isSome
  checkPath hasScheme hasAuthority r.path
  let plain := if hasScheme || hasAuthority then plainPath r.path else r.path
  let escaped := fun (allowed : Char → Bool) (cs : List Char) =>
    String.ofList (Web.escape allowed cs)
  return {
    scheme := (String.ofList r.scheme).toLower
    user := escaped Web.userChar r.user
    host := String.ofList host
    port
    path := escaped Web.pathChar plain
    query := r.query.map (escaped Web.queryChar)
    fragment := r.fragment.map (escaped Web.fragmentChar) }

/-- The parts of a text. -/
def rough (cs : List Char) : Rough :=
  let (body, fragment) := cutAt '#' cs
  let (front, query) := cutAt '?' body
  let (scheme, afterScheme) := splitScheme front
  let (authority, path) := splitAuthority afterScheme
  let (user, host, port) := splitPlace authority
  { scheme, user, host, port, path, query, fragment }

/-- The parts of a text, in canonical form. -/
def parse (s : String) : Except Flaw Address :=
  let cs := s.toList
  let isControl := fun (c : Char) => c.toNat < 0x20 || c.toNat = 0x7f
  if maxLength < cs.length then .error .tooLong
  else
    match cs.find? isControl with
    | some c => .error (.control c (cs.findIdx isControl))
    | none => (rough cs).settle

/-! ## Texts -/

/-- The host and the port. -/
def place (a : Address) : String :=
  (if a.host.toList.contains ':' then s!"[{a.host}]" else a.host) ++
    (a.port.map fun n => s!":{n}").getD ""

/-- The user, the host and the port. -/
def authority (a : Address) : String :=
  (if a.user = "" then "" else a.user ++ "@") ++ a.place

/-- The canonical text of an address. -/
def text (a : Address) : String :=
  (if a.scheme = "" then "" else a.scheme ++ ":") ++
    (if a.authority = "" then "" else "//" ++ a.authority) ++ a.path ++
    (a.query.map fun q => "?" ++ q).getD "" ++ (a.fragment.map fun f => "#" ++ f).getD ""

/-! ## Replaced parts -/

/-- Reads an address once more, perhaps with another host. -/
def reread (a : Address) (host? : Option String) : Except Flaw Address := do
  let parts := [("scheme", a.scheme), ("authority", a.authority), ("path", a.path),
    ("query", a.query.getD ""), ("fragment", a.fragment.getD ""), ("host", host?.getD "")]
  match parts.find? fun p => maxLength < p.2.length with
  | some (part, _) => throw (.partTooLong part)
  | none =>
    let (user, host, port) := splitPlace a.authority.toList
    Rough.settle
      { scheme := a.scheme.toList
        user
        host := (host?.map String.toList).getD host
        port
        path := a.path.toList
        query := a.query.map String.toList
        fragment := a.fragment.map String.toList }

/-- The path, which is a slash at least, and the query. -/
def target (a : Address) : String :=
  (if a.path = "" then "/" else a.path) ++ (a.query.map fun q => "?" ++ q).getD ""

/-- The address with another path and query. -/
def withTarget (a : Address) (target : String) : Except Flaw Address :=
  let (path, query) := cutAt '?' target.toList
  { a with path := String.ofList path, query := query.map String.ofList }.reread none

/-- The address with a slash at the end of its path, or of its query if it has one. -/
def close (a : Address) : Except Flaw Address :=
  if a.target.toList.getLast? = some '/' then .ok a else a.withTarget (a.target ++ "/")

/-- The address of a path below another address. What follows the path of that address, its query,
is taken as a part of it. -/
def join (a : Address) (path : String) : Except Flaw Address :=
  a.withTarget (a.target ++ String.ofList (path.toList.dropWhile (· == '/')))

end Address

end NodeKeeper
