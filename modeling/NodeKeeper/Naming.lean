import NodeKeeper.Fault.Basic

/-!
# Names of nodes and their resources

Nodes belong to groups, and a group is recognised by the names alone. The shared resources of a
group are called `lead-group`, its members `lead-group-suffix` with a hexadecimal suffix; the
delimiter need not be a dash. Firewall resources are named after their node.

## Main definitions

* `Naming` — a lead and a delimiter.
* `Naming.sharedName`, `Naming.nameFor` — building names.
* `Naming.groupIn?` — the group of a unique name.
* `Naming.belongsTo` — a name is the shared name of a group or one of its unique names.
* `Naming.policyName`, `Naming.ruleName` — the firewall resources of a node.

## Implementation notes

A group may hold the delimiter, so a name can often be split in several ways. The longest group
wins. A name that ends with one line end is read as if it were not there; a group holds none.
-/

namespace NodeKeeper

/-- How names are built: what they start with, and what stands between their parts. -/
structure Naming where
  lead : String := "nodes"
  delimiter : String := "-"
deriving DecidableEq, Repr, Inhabited

namespace Naming

/-- A convention; its names have to start with something. -/
def make (lead delimiter : String) : Except Fault Naming :=
  if lead = "" then .error (.badValue "naming prefix must not be empty")
  else .ok ⟨lead, delimiter⟩

/-! ## Building names -/

/-- The name of what the members of a group share. -/
def sharedName (c : Naming) (group : String) : String := c.lead ++ c.delimiter ++ group

/-- The name of a member of a group. -/
def nameFor (c : Naming) (group suffix : String) : String :=
  c.sharedName group ++ c.delimiter ++ suffix

/-! ## Recognising names -/

/-- The digits of a suffix. -/
def isHex (c : Char) : Bool := c.isDigit || ('a' ≤ c && c ≤ 'f')

/-- What follows a part that a text starts with. -/
def dropLead? (part cs : List Char) : Option (List Char) :=
  if part.isPrefixOf cs then some (cs.drop part.length) else none

/-- The characters are a suffix, perhaps with a line end behind it. -/
def isSuffix (cs : List Char) : Bool :=
  !(cs.takeWhile isHex).isEmpty &&
    (cs.dropWhile isHex == [] || cs.dropWhile isHex == ['\n'])

/-- The characters are a delimiter and a suffix. -/
def isTail (delimiter cs : List Char) : Bool :=
  match dropLead? delimiter cs with
  | some rest => isSuffix rest
  | none => false

/-- The longest group of at most so many characters that a tail follows. -/
def longestGroup? (delimiter cs : List Char) : Nat → Option (List Char)
  | 0 => none
  | n + 1 =>
    if !(cs.take (n + 1)).contains '\n' && isTail delimiter (cs.drop (n + 1)) then
      some (cs.take (n + 1))
    else longestGroup? delimiter cs n

/-- The group in a unique name. -/
def groupIn? (c : Naming) (name : String) : Option String :=
  match dropLead? (c.lead ++ c.delimiter).toList name.toList with
  | some body => (longestGroup? c.delimiter.toList body body.length).map String.ofList
  | none => none

/-- The name is the shared name of the group or one of its unique names. -/
def belongsTo (c : Naming) (group name : String) : Bool :=
  name == c.sharedName group || c.groupIn? name == some group

/-! ## Firewall resources -/

/-- The name of the firewall policy of a node. -/
def policyName (lead name : String) : String := s!"{lead}-fw-policy-{name}"

/-- The name of the firewall rule that opens a port of a node. -/
def ruleName (lead name port : String) : String := s!"{lead}-fw-rule-{name}_port-{port}"

end Naming

end NodeKeeper
