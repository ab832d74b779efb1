import Nephio.CondKptSdk.InventoryDiff

/-!
# Readiness of the for-instances

`inventory_ready.go`: stage 2 decides from the inventory which for-instances to hand to
`UpdateResourceFn`, and with which objects.
-/

namespace Nephio.CondKptSdk

variable {V : Type}

/-- `readyCtx`. -/
structure ReadyCtx (V : Type) where
  ready : Bool
  failed : Bool
  forObj : Option (KubeObject V)
  forCondition : Option Condition
  owns : List (ObjectReference × KubeObject V)
  watches : List (ObjectReference × KubeObject V)

/-- A child or watch that holds back its for-instance: no condition, or a False one. -/
def pending (res : ResourceCtx V) : Bool :=
  match res.existingCondition with
  | none => true
  | some c => c.status = .conditionFalse

/-- A pending watch counts only where the for condition is set, and its reason is not the watch. -/
def watchPending (forRes : ResourceCtx V) (ref : ObjectReference) (res : ResourceCtx V) : Bool :=
  pending res &&
    match forRes.existingCondition with
    | none => false
    | some c => getConditionType ref ≠ c.reason

/-- The entries that have an object, with the object. -/
def existingObjects (m : List (ObjectReference × ResourceCtx V)) :
    List (ObjectReference × KubeObject V) :=
  m.filterMap fun e => e.2.existingResource.map fun o => (e.1, o)

/-- The entry of `getReadyMap` for one for-instance. -/
def readyCtx (forRes : ResourceCtx V) (owns watches : List (ObjectReference × ResourceCtx V)) :
    ReadyCtx V where
  ready := (owns.all fun e => !pending e.2) && watches.all fun e => !watchPending forRes e.1 e.2
  failed := forRes.failed
  forObj := forRes.existingResource
  forCondition := forRes.existingCondition
  owns := existingObjects owns
  watches := existingObjects watches

/-- `getReadyMap`. It only fills maps, so the order it goes through the inventory in is not seen. -/
def Inv.getReadyMap (r : Inv V) : List (ObjectReference × ReadyCtx V) :=
  (r.get .forGVKKind [{}]).map fun e =>
    (e.1, readyCtx e.2 (r.get .ownGVKKind [e.1, {}]) (r.get .watchGVKKind [e.1, {}]))

end Nephio.CondKptSdk
