import NodeKeeper.Compression.Coding
import NodeKeeper.Fault.Basic
import NodeKeeper.Text.Encoding
import NodeKeeper.Value.Json
import NodeKeeper.Web.Address

/-!
# Requests and responses

A document is posted to an address. The answer has a status, headers and a body, which is a row of
bytes that may be compressed.

## Main definitions

* `Web.Request`, `Web.Response` — what is sent, and what comes back.
* `Web.Response.make` — an answer with a body that was put together from a document or a text.
* `Web.Response.header?`, `Web.Response.document` — the parts of an answer.
-/

namespace NodeKeeper.Web

/-- Characters outside ASCII cannot be sent. -/
def unencodable : Fault := .misfit .unencodable "a character outside ASCII cannot be sent"

/-- All characters are ASCII. -/
def isPlain (s : String) : Bool := s.toList.all fun c => c.toNat < 0x80

/-- A document that is posted to an address. -/
structure Request where
  address : Address
  body : Value

/-- What a body is put together from. -/
inductive Body where
  | empty
  | document (v : Value)
  /-- A text; any other value in its place is no body. -/
  | text (v : Value)

/-- An answer. Its content is the body with all codings taken off. -/
structure Response where
  status : Int
  headers : List (String × String) := []
  content : List UInt8 := []
deriving Inhabited

/-! ## Bodies -/

/-- The bytes of a body. Numbers that are none cannot be written. -/
def Body.bytes : Body → Except Fault (List UInt8)
  | empty => .ok []
  | document v =>
    if Json.isFinite v then .ok (Json.render v).toUTF8.toList
    else .error (.badValue "Out of range float values are not JSON compliant")
  | text (.text s) => .ok s.toUTF8.toList
  | text _ => .error (.noSuchMember "the text of a body must be a text")

namespace Response

/-- The header of a name, in whatever case it is written; several of that name are listed. -/
def header? (r : Response) (name : String) : Option String :=
  match r.headers.filter fun h => h.1.toLower == name.toLower with
  | [] => none
  | found => some (", ".intercalate (found.map Prod.snd))

/-- A header with a text that can be sent. -/
def plainHeader (h : String × Value) : Except Fault (String × String) :=
  match h with
  | (name, .text s) => if isPlain name && isPlain s then .ok (name, s) else .error unencodable
  | (name, _) =>
    .error (if isPlain name then .badType "the value of a header must be a text" else unencodable)

/-- An answer. The codings that its headers name are taken off its body. -/
def make (status : Int) (headers : List (String × Value)) (body : Body) :
    Except Fault Response := do
  let r : Response := { status, headers := ← headers.mapM plainHeader }
  let bytes ← body.bytes
  match Coding.decodeAll ((r.header? "Content-Encoding").getD "") bytes with
  | .ok content => return { r with content }
  | .error text => throw (.plain .decoding (some text))

/-- The status reports success. -/
def isSuccess (r : Response) : Bool := 200 ≤ r.status && r.status < 300

/-- The status reports that the sender was not let in. -/
def isRejection (r : Response) : Bool := r.status == 401 || r.status == 403

/-- The fault of a content that holds no document. -/
def flawFault : Json.Flaw → Fault
  | .malformed => .misfit .malformedDocument "the body holds no document"
  | .tooLong digits => .badValue (Text.tooLongMessage digits)
  | .tooDeep sort => .plain .tooDeep
      (some s!"maximum recursion depth exceeded while decoding a JSON {sort} from a unicode string")

/-- The document in the content. -/
def document (r : Response) : Except Fault Value :=
  match Text.ofBytes? r.content with
  | some s => (Json.parse s).mapError flawFault
  | none => .error (.misfit .undecodable "the body holds no text")

end Response

end NodeKeeper.Web
