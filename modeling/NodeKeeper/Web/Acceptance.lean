import NodeKeeper.Web.Message

/-!
# What is accepted

An answer is accepted if the address of its request could be the origin of cookies, and if the
address that it points to, if any, is valid. Nobody goes to that address.

## Main definitions

* `Web.checkOrigin` — the address of a request can be the origin of cookies.
* `Web.checkPointer` — an answer points to a valid address, if to any.
* `Web.accept` — an answer to a request.
-/

namespace NodeKeeper.Web

/-! ## The origin of cookies -/

/-- An address behind the word that announces one. -/
def dropLabel (url : List Char) : List Char :=
  if "URL:".toList.isPrefixOf url then url.drop 4 else url

/-- An address without what stands behind its last number sign, and that. -/
def splitTag (url : List Char) : List Char × List Char :=
  match Address.cutAt '#' url.reverse with
  | (_, none) => (url, [])
  | (tag, some front) => (front.reverse, tag.reverse)

/-- A colon stands behind the first word. -/
def hasType (url : List Char) : Bool :=
  let word := url.takeWhile fun c => c != '/' && c != ':'
  !word.isEmpty && (url.drop word.length).head? = some ':'

/-- What may not stand between brackets. -/
def bracketComplaint? (inner : List Char) : Option String :=
  if Host.isNumbers inner then some "An IPv4 address cannot be in brackets"
  else if Host.isGroups inner then none
  else some (Text.quoted (String.ofList inner) ++ " does not appear to be an IPv4 or IPv6 address")

/-- What is wrong with the brackets of an authority. -/
def authorityComplaint? (authority : List Char) : Option String :=
  match authority.contains '[', authority.contains ']' with
  | false, false => none
  | true, true =>
    bracketComplaint? (((authority.dropWhile (· != '[')).tail).takeWhile (· != ']'))
  | _, _ => some "Invalid IPv6 URL"

/-- The address of a request can be the origin of cookies: it says of which type it is, and has
brackets only around groups of digits. -/
def checkOrigin (url : String) : Except Fault Unit :=
  let (front, tag) := splitTag (dropLabel url.toList)
  let whole := if tag.isEmpty then front else front ++ '#' :: tag
  let authority := (Address.splitAuthority (Address.splitScheme whole).2).1
  if !hasType front then
    .error (.badValue s!"unknown url type: {Text.quoted (String.ofList whole)}")
  else
    match authorityComplaint? (authority.takeWhile fun c => c != '?' && c != '#') with
    | some text => .error (.badValue text)
    | none => .ok ()

/-! ## The address that an answer points to -/

/-- The statuses of answers that point to another address. -/
def pointingStatuses : List Int := [301, 302, 303, 307, 308]

/-- The address that an answer points to, as it is written there. -/
def Response.pointer? (r : Response) : Option String :=
  if pointingStatuses.contains r.status then r.header? "Location" else none

/-- A host as it stands in an address. -/
def bracketed (host : String) : String := if host.toList.contains ':' then s!"[{host}]" else host

/-- An address that an answer points to. A host that is missing behind a scheme is that of the
request. An address that is relative to that of the request, or takes over its fragment, is put
together anew. -/
def pointedAt (asked found : Address) : Except Address.Flaw Address := do
  let whole ←
    if found.scheme ≠ "" && found.host = "" then found.reread (some (bracketed asked.host))
    else pure found
  let isRelative := whole.scheme = "" || whole.host = ""
  let takesFragment := asked.fragment.getD "" ≠ "" && whole.fragment.getD "" = ""
  if isRelative || takesFragment then whole.reread none else pure whole

/-- An answer points to a valid address, if to any. -/
def checkPointer (asked : Address) (r : Response) : Except Fault Unit :=
  match r.pointer? with
  | none => .ok ()
  | some location =>
    match Address.parse location with
    | .error flaw =>
      .error (.plain .remoteProtocol
        (some s!"Invalid URL in location header: {flaw.message}."))
    | .ok found =>
      match pointedAt asked found with
      | .error flaw => .error (.misfit .badAddress flaw.message)
      | .ok a => if isPlain a.host then .ok () else .error unencodable

/-- An answer to a request. -/
def accept (req : Request) (r : Response) : Except Fault Response := do
  checkOrigin req.address.text
  checkPointer req.address r
  return r

end NodeKeeper.Web
