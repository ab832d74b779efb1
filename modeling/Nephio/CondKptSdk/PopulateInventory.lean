import Nephio.CondKptSdk.Updates

/-!
# Filing the package

`sdk_populate_inventory.go` and `sdk_watches.go`. A for object or condition is filed at the top, an
own child under the for-instance its owner names, a watch at the top or under a for-instance: there
the owner of *some* for condition, the last one read, decides whether a watch is specific, and a map
from owner names to for names decides to which for-instance.
-/

namespace Nephio.CondKptSdk

namespace Sdk

variable {V : Type}

/-- The `forOwnerRef` and the `forOwnerRefNameMap` of `populateInventory`. -/
structure ForOwners where
  forOwnerRef : Option ObjectReference := none
  nameMap : List (String × String) := []
deriving DecidableEq, Repr

/-- One turn of the first loop over the conditions. -/
def ForOwners.add (inv : Inv V) (f : ForOwners) (c : Condition) : ForOwners :=
  let objRef := getGVKNFromConditionType c.type
  match inv.isGVKMatch objRef with
  | some kc =>
    let ownerRef := getGVKNFromConditionType c.reason
    if kc.gvkKind = .forGVKKind ∧ (validateGVKRef ownerRef).isOk then
      { forOwnerRef := some ownerRef.gvk
        nameMap := Keyed.upsert Prod.fst (ownerRef.name, objRef.name) f.nameMap }
    else f
  | none => f

/-- `forOwnerRefNameMap[name]`: the empty text for a name that is not in the map. -/
def ForOwners.forName (f : ForOwners) (name : String) : String :=
  ((Keyed.lookup Prod.fst name f.nameMap).map Prod.snd).getD ""

/-- The references a watch is filed under: a specific one below the for-instance its name maps to, a
global one at the top, and one that something else owns nowhere. -/
def watchPath (cfg : Config V) (f : ForOwners) (objRef ownerRef : ObjectReference) :
    Option (List ObjectReference) :=
  let isObj := f.forOwnerRef = some objRef.gvk
  if f.forOwnerRef = some ownerRef.gvk ∨ isObj then
    let name := if isObj then f.forName objRef.name else f.forName ownerRef.name
    some [{ apiVersion := cfg.forRef.apiVersion, kind := cfg.forRef.kind, name := name }, objRef]
  else if (validateGVKNRef ownerRef).isOk then none
  else some [objRef]

/-- Where `populate` files a resource, and the kind context it files it with. -/
def filingPath (cfg : Config V) (inv : Inv V) (f : ForOwners)
    (objRef ownerRef : ObjectReference) : Option (GvkKindCtx V × List ObjectReference) :=
  match inv.isGVKMatch objRef with
  | none => none
  | some kc =>
    match kc.gvkKind with
    | .forGVKKind => some (kc, [objRef])
    | .ownGVKKind =>
      match inv.isGVKMatch ownerRef with
      | some okc => if okc.gvkKind = .forGVKKind then some (kc, [ownerRef, objRef]) else none
      | none => none
    | .watchGVKKind => (watchPath cfg f objRef ownerRef).map fun refs => (kc, refs)

/-- `populate`. -/
def populate (cfg : Config V) (f : ForOwners) (inv : Inv V) (objRef ownerRef : ObjectReference)
    (x : Filed V) : Except String (Inv V) :=
  match filingPath cfg inv f objRef ownerRef with
  | none => .ok inv
  | some (kc, refs) => inv.set kc refs x false false

/-- `populateInventory`: first the conditions, then the items. -/
def populateInventory (cfg : Config V) (r : Sdk V) : Except String (Sdk V) := do
  let f := r.kptfile.conditions.foldl (ForOwners.add r.inv) {}
  let inv ← r.kptfile.conditions.foldlM (fun inv c =>
    populate cfg f inv (getGVKNFromConditionType c.type) (getGVKNFromConditionType c.reason)
      (.condition c)) r.inv
  let inv ← r.items.foldlM (fun inv o =>
    populate cfg f inv o.ref (getGVKNFromConditionType o.owner) (.object o)) inv
  return { r with inv := inv }

/-- `callGlobalWatches`: the first error ends it, and the inventory is not ready any more. -/
def callGlobalWatches (ord : Order) (r : Sdk V) : Sdk V × Option String :=
  let watches := ord.range .globalWatches (r.inv.get .watchGVKKind [{}])
  let call (e : ObjectReference × ResourceCtx V) : Option String :=
    match e.2.callbackFn with
    | none => none
    | some cb =>
      match cb e.1 e.2.existingResource with
      | .ok _ => none
      | .error err => some err
  match watches.findSome? call with
  | none => (r, none)
  | some err => ({ r with inv := { r.inv with ready := false } }, some err)

end Sdk

end Nephio.CondKptSdk
