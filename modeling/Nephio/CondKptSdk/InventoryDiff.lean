import Nephio.CondKptSdk.Inventory

/-!
# The diff between what is there and what is wanted

`inventory_diff.go`. For each for-instance the diff goes through its own children and sorts them
into lists of things to do; `updateChildren` then carries the lists out one after the other.
-/

namespace Nephio.CondKptSdk

/-- The sites of the program that range over a map keyed by references. -/
inductive RangeSite where
  | globalWatches
  | populateChildren
  | diff
  | diffOwn (forRef : ObjectReference)
  | notReadyDiff
  | readyOwn (forRef : ObjectReference)
  | readyWatch (forRef : ObjectReference)
  | updateResources
deriving DecidableEq, Repr

/-- The iteration orders of one Run. -/
abbrev Order := Go.MapOrder RangeSite ObjectReference

/-- `object` without the `obj` field, which the lists of conditions do not use. -/
structure Child where
  ref : ObjectReference
  ownKind : Option ResourceKind
deriving DecidableEq, Repr

/-- `object`. -/
structure Object (V : Type) extends Child where
  obj : KubeObject V
deriving DecidableEq, Repr

/-- `inventoryDiff`. -/
structure InventoryDiff (V : Type) where
  deleteForCondition : Bool := false
  updateForCondition : Bool := false
  deleteObjs : List (Object V) := []
  updateObjs : List (Object V) := []
  createObjs : List (Object V) := []
  deleteConditions : List Child := []
  createConditions : List Child := []
  updateDeleteAnnotations : List (Object V) := []
deriving DecidableEq, Repr

variable {V : Type}

/-- What one turn of the loop over the children adds to what the turns before it added. -/
def InventoryDiff.append (d e : InventoryDiff V) : InventoryDiff V where
  deleteForCondition := d.deleteForCondition || e.deleteForCondition
  updateForCondition := d.updateForCondition || e.updateForCondition
  deleteObjs := d.deleteObjs ++ e.deleteObjs
  updateObjs := d.updateObjs ++ e.updateObjs
  createObjs := d.createObjs ++ e.createObjs
  deleteConditions := d.deleteConditions ++ e.deleteConditions
  createConditions := d.createConditions ++ e.createConditions
  updateDeleteAnnotations := d.updateDeleteAnnotations ++ e.updateDeleteAnnotations

instance : Append (InventoryDiff V) := ⟨InventoryDiff.append⟩

/-- The for condition is there and is False: nothing resets it again. -/
def notFalse : Option Condition → Bool
  | none => true
  | some c => c.status ≠ .conditionFalse

/-- The sdk leaves children of these kinds alone when they are no longer wanted. -/
def keptKind (k : Option ResourceKind) : Bool :=
  k = some .childInitial ∨ k = some .childLocal

/-- One child of a for-instance whose object is not in the package. -/
def diffOrphan (ownRef : ObjectReference) (res : ResourceCtx V) : InventoryDiff V where
  deleteForCondition := true
  deleteConditions := if res.existingCondition.isSome then [⟨ownRef, res.ownKind⟩] else []
  deleteObjs :=
    match res.existingResource with
    | some o => if res.ownKind ≠ some .childInitial then [⟨⟨ownRef, res.ownKind⟩, o⟩] else []
    | none => []

/-- The first `switch` for a child: its condition. -/
def diffCondition (ready : Bool) (forCondition : Option Condition) (ownRef : ObjectReference)
    (res : ResourceCtx V) : InventoryDiff V :=
  match res.newResource, res.existingCondition with
  | none, none =>
    { updateForCondition := notFalse forCondition
      createConditions := if ready then [⟨ownRef, res.ownKind⟩] else [] }
  | none, some _ =>
    { updateForCondition := notFalse forCondition
      deleteConditions := if keptKind res.ownKind then [] else [⟨ownRef, res.ownKind⟩] }
  | some _, none =>
    { updateForCondition := notFalse forCondition
      createConditions := [⟨ownRef, res.ownKind⟩] }
  | some _, some _ => {}

/-- The diff of a child that exists and is wanted. Without a readable spec on both sides the turn
ends; a delete annotation on the existing object is cleaned up, and there the for condition is read
without a check that it is set. -/
def diffSpec [DecidableEq V] (forCondition : Option Condition) (ownRef : ObjectReference)
    (res : ResourceCtx V) (existing new : KubeObject V) : Except Go.Panic (InventoryDiff V) :=
  if res.ownKind = some .childRemoteCondition then .ok {}
  else
    match existing.spec, new.spec with
    | some existingSpec, some newSpec =>
      let updated : InventoryDiff V :=
        if existingSpec ≠ newSpec then
          { updateForCondition := notFalse forCondition
            updateObjs := [⟨⟨ownRef, res.ownKind⟩, new⟩] }
        else {}
      if existing.marked then
        match forCondition with
        | none => .error .nilPointer
        | some c => .ok (updated ++
            { updateForCondition := c.status ≠ .conditionFalse
              updateDeleteAnnotations := [⟨⟨ownRef, res.ownKind⟩, new⟩] })
      else .ok updated
    | _, _ => .ok {}

/-- The second `switch` for a child: its object. -/
def diffResource [DecidableEq V] (forCondition : Option Condition) (ownRef : ObjectReference)
    (res : ResourceCtx V) : Except Go.Panic (InventoryDiff V) :=
  match res.existingResource, res.newResource with
  | none, none => .ok {}
  | none, some new => .ok
      { updateForCondition := notFalse forCondition
        createObjs := [⟨⟨ownRef, res.ownKind⟩, new⟩] }
  | some existing, none => .ok
      { updateForCondition := notFalse forCondition
        deleteObjs := if keptKind res.ownKind then [] else [⟨⟨ownRef, res.ownKind⟩, existing⟩] }
  | some existing, some new => diffSpec forCondition ownRef res existing new

/-- One turn of the loop over the children of a for-instance. -/
def diffChild [DecidableEq V] (ready : Bool) (forRes : ResourceCtx V) (ownRef : ObjectReference)
    (res : ResourceCtx V) : Except Go.Panic (InventoryDiff V) :=
  match forRes.existingResource with
  | none => .ok (diffOrphan ownRef res)
  | some _ => do
    let d ← diffResource forRes.existingCondition ownRef res
    return diffCondition ready forRes.existingCondition ownRef res ++ d

/-- The diff of one for-instance: its children in the order the map gives them. -/
def diffFor [DecidableEq V] (ready : Bool) (forRes : ResourceCtx V)
    (children : List (ObjectReference × ResourceCtx V)) : Except Go.Panic (InventoryDiff V) := do
  let ds ← children.mapM fun e => diffChild ready forRes e.1 e.2
  return ds.foldl (· ++ ·) {}

/-- `diff`. -/
def Inv.diff [DecidableEq V] (r : Inv V) (ord : Order) :
    Except Go.Panic (List (ObjectReference × InventoryDiff V)) :=
  (ord.range .diff (r.get .forGVKKind [{}])).mapM fun e => do
    let children := ord.range (.diffOwn e.1) (r.get .ownGVKKind [e.1, {}])
    return (e.1, ← diffFor r.ready e.2 children)

end Nephio.CondKptSdk
