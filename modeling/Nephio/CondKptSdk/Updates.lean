import Nephio.CondKptSdk.InventoryReady

/-!
# The sdk's writes

`sdk_updates.go`: the operations that write conditions and objects to the package and to the
inventory. They differ in which of the two a condition is written to: `setCondition` and
`deleteCondition` write both, `deleteChildObject` and `upsertChildObject` the Kptfile only.
-/

namespace Nephio.CondKptSdk

/-- `sdk`, with the parts of the resource list it works on. `results` are the errors reported in
the resource list. -/
structure Sdk (V : Type) where
  items : List (KubeObject V)
  kptfile : KptFile
  inv : Inv V
  results : List String := []

namespace Sdk

variable {V : Type}

/-- `r.rl.Results.ErrorE(err)`, when there is an error. -/
def report (r : Sdk V × Option String) : Sdk V :=
  match r.2 with
  | none => r.1
  | some e => { r.1 with results := r.1.results ++ [e] }

/-- An inventory write, whose error is reported and returned. -/
def withInv (r : Sdk V) (inv : Except String (Inv V)) : Sdk V × Option String :=
  match inv with
  | .ok inv => ({ r with inv := inv }, none)
  | .error e => ({ r with results := r.results ++ [e] }, some e)

/-- `setObjectInResourceList`: the object goes to the items, and to the inventory as the existing
resource. The kind context it is filed with has no own kind. -/
def setObjectInResourceList (r : Sdk V) (kind : GvkKind) (refs : List ObjectReference)
    (obj : KubeObject V) : Sdk V × Option String :=
  if isRefsValid refs then
    let r := { r with items := upsertObjectToItems obj r.items }
    r.withInv (r.inv.set { gvkKind := kind } refs (.object obj) false false)
  else
    (r, some ("cannot set resource in resourcelist as the object has no valid refs: " ++
      formatRefs refs))

/-- `setCondition`: in the Kptfile and in the inventory. -/
def setCondition (r : Sdk V) (kind : GvkKind) (refs : List ObjectReference) (msg : String)
    (status : ConditionStatus) (failed : Bool) : Sdk V × Option String :=
  match getConditionByRef refs msg status with
  | .error e => (r, some e)
  | .ok c =>
    let r := { r with kptfile := r.kptfile.setConditions [c] }
    r.withInv (r.inv.set { gvkKind := kind } refs (.condition c) false failed)

/-- `deleteCondition`: from the Kptfile and from the inventory. -/
def deleteCondition (r : Sdk V) (kind : GvkKind) (refs : List ObjectReference) :
    Except Go.Panic (Sdk V × Option String) :=
  match getConditionByRef refs "" .conditionFalse with
  | .error e => .ok (r, some e)
  | .ok c => do
    let r := { r with kptfile := ← r.kptfile.deleteCondition c.type }
    return r.withInv (r.inv.delete { gvkKind := kind } refs)

/-- `deleteChildObject`: the child's condition becomes False and its object is marked. -/
def deleteChildObject (r : Sdk V) (refs : List ObjectReference) (obj : KubeObject V)
    (msg : String) : Sdk V × Option String :=
  match getConditionByRef refs msg .conditionFalse with
  | .error e => (r, some e)
  | .ok c =>
    let r := { r with kptfile := r.kptfile.setConditions [c] }
    let (r, err) :=
      r.setObjectInResourceList .ownGVKKind refs (obj.setAnnotation specializerDelete "true")
    (report (r, err), err)

/-- `upsertChildObject`. An existing condition `ec` is written back with the new message and status,
whatever the refs are; without `alwaysUpdate` the object is written for two kinds of children only. -/
def upsertChildObject (r : Sdk V) (kind : GvkKind) (refs : List ObjectReference)
    (obj : KubeObject V) (ownKind : Option ResourceKind) (ec : Option Condition) (msg : String)
    (status : ConditionStatus) (alwaysUpdate : Bool) : Sdk V × Option String :=
  match getConditionByRef refs msg status with
  | .error e => (r, some e)
  | .ok c =>
    let c :=
      match ec with
      | some ec => { ec with message := msg, status := status }
      | none => c
    let r := { r with kptfile := r.kptfile.setConditions [c] }
    if alwaysUpdate then
      let (r, err) := r.setObjectInResourceList kind refs obj
      (report (r, err), err)
    else if ownKind = some .childRemote ∨ ownKind = some .childLocal then
      let (r, err) := r.setObjectInResourceList .ownGVKKind refs obj
      (report (r, err), err)
    else (r, none)

/-- `deleteObjFromResourceList`, with the loop that shrinks the slice it ranges over. -/
def deleteObjFromResourceList (r : Sdk V) (obj : KubeObject V) : Except Go.Panic (Sdk V) := do
  let items ← Go.removeLoop (fun o => o.isGVKNNEqual obj) r.items
  return { r with items := items }

end Sdk

end Nephio.CondKptSdk
