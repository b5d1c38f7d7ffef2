import NodeKeeper.Text.Integer
import NodeKeeper.Web.Escaping
import NodeKeeper.Web.HostName

/-!
# Hosts

A host is given by four numbers with dots between them, by groups of hexadecimal digits between
brackets, or by a name.

## Main definitions

* `Host.isNumbers` — four numbers with dots between them.
* `Host.isGroups` — groups of digits with colons between them.
* `Host.read` — the canonical form of a host.

## Implementation notes

A host that looks like four numbers has to be that, and a host between brackets has to be groups.
Any sign between the numbers makes a host look like four of them.
-/

namespace NodeKeeper.Host

/-- Why a text is no host. -/
inductive Flaw where
  | numbers
  | groups
  | name
deriving DecidableEq, Repr

/-- What a host with the flaw should have been. -/
def Flaw.word : Flaw → String
  | numbers => "IPv4 address"
  | groups => "IPv6 address"
  | name => "IDNA hostname"

/-! ## Numbers -/

/-- A number below 256, without leading zeros. -/
def isNumber (cs : List Char) : Bool :=
  !cs.isEmpty && cs.all Char.isDigit && cs.length ≤ 3 && (cs.length = 1 || cs.head? != some '0') &&
    Text.digitsValue cs ≤ 255

/-- Four numbers with dots between them. -/
def isNumbers (cs : List Char) : Bool :=
  let parts := cs.splitOnP (· == '.')
  parts.length = 4 && parts.all isNumber

/-- How many numbers may have begun after a character, and whether the last one may still go on. -/
def numbersAfter (c : Char) (before : Nat × Bool) : List (Nat × Bool) :=
  match before with
  | (count, true) => (count, false) :: (if c.isDigit then [(count, true)] else [])
  | (count, false) => if c.isDigit && count < 4 then [(count + 1, true)] else []

/-- Four rows of digits with one character of any sort between them. -/
def looksLikeNumbers (cs : List Char) : Bool :=
  (cs.foldl (fun seen c => (seen.flatMap (numbersAfter c)).eraseDups) [(0, false)]).contains
    (4, true)

/-! ## Groups -/

/-- A hexadecimal digit in either case. -/
def isHexDigit (c : Char) : Bool :=
  c.isDigit || ('a' ≤ c && c ≤ 'f') || ('A' ≤ c && c ≤ 'F')

/-- One to four digits. -/
def isGroup (cs : List Char) : Bool := !cs.isEmpty && cs.length ≤ 4 && cs.all isHexDigit

/-- The parts between colons; four numbers at the end stand for two groups. -/
def groupParts (cs : List Char) : List (List Char) :=
  let parts := cs.splitOnP (· == ':')
  match parts.getLast? with
  | some last => if isNumbers last then parts.dropLast ++ [['0'], ['0']] else parts
  | none => parts

/-- The groups on one side of those that are left out: none at all, or all parts are groups. -/
def groupCount? (parts : List (List Char)) : Option Nat :=
  if parts = [[]] then some 0
  else if parts.all isGroup then some parts.length
  else none

/-- Eight groups, or fewer if one row of them is left out between two colons. -/
def areGroups (parts : List (List Char)) : Bool :=
  let inner := parts.tail.dropLast
  match inner.findIdx? List.isEmpty with
  | none => parts.length = 8 && parts.all isGroup
  | some i =>
    match groupCount? (parts.take (i + 1)), groupCount? (parts.drop (i + 2)) with
    | some front, some behind => front + behind ≤ 7
    | _, _ => false

/-- Groups with colons between them. The name of a link may stand behind a percent sign. -/
def isGroups (cs : List Char) : Bool :=
  let (address, link) := cs.span (· != '%')
  let linkFits := link.isEmpty || (1 < link.length && !link.tail.contains '%')
  let parts := groupParts address
  linkFits && 3 ≤ (address.splitOnP (· == ':')).length && areGroups parts

/-- The text between brackets, if it stands between them. -/
def unbracket? (cs : List Char) : Option (List Char) :=
  match cs with
  | '[' :: rest => if rest.getLast? = some ']' then some rest.dropLast else none
  | _ => none

/-! ## Hosts -/

/-- The canonical form of a host: groups without their brackets, and names in small letters that are
plain ASCII. -/
def read (cs : List Char) : Except Flaw (List Char) :=
  if looksLikeNumbers cs then if isNumbers cs then .ok cs else .error .numbers
  else
    match unbracket? cs with
    | some inner => if isGroups inner then .ok inner else .error .groups
    | none =>
      if cs.all fun c => c.toNat < 0x80 then .ok (Web.escape Web.hostChar (cs.map Char.toLower))
      else
        match HostName.plain? cs with
        | some name => .ok name
        | none => .error .name

end NodeKeeper.Host
