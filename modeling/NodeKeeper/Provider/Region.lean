import NodeKeeper.Orphan.Ref
import NodeKeeper.Fault.Basic

/-!
# Regions in cache keys

The written form of a name within a region: the region, a slash and the name. The name may hold
slashes, the region may not.

## Main definitions

* `RegionAndName.encode` — the written form.
* `RegionAndName.decode` — reading it.
-/

namespace NodeKeeper.RegionAndName

/-- The region, a slash and the name. -/
def encode (k : RegionAndName) : String := k.region ++ "/" ++ k.name

/-- Splits at the first slash. Neither side may be empty. -/
def decode (s : String) : Except Fault RegionAndName :=
  let region := s.toList.takeWhile (· != '/')
  match s.toList.dropWhile (· != '/') with
  | _ :: c :: rest =>
    if region.isEmpty then refuse else .ok ⟨String.ofList region, String.ofList (c :: rest)⟩
  | _ => refuse
where
  /-- The text is no written form. -/
  refuse : Except Fault RegionAndName :=
    .error (.badValue s!"expected region/name, got {Text.quoted s}")

end NodeKeeper.RegionAndName
