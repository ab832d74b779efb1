import Nephio.CondKptSdk.PopulateInventory

/-!
# Stage 1: bring the children in line

`sdk_stage1_populate_children.go` asks the function which children each for-instance wants;
`sdk_stage1_update_children.go` computes the diff and carries it out.
-/

namespace Nephio.CondKptSdk

namespace Sdk

variable {V : Type}

/-- `r.kptfile.SetConditionRefFailed(forRef, msg)`. The inventory keeps the condition it has. -/
def failCondition (r : Sdk V) (forRef : ObjectReference) (msg : String) : Sdk V :=
  { r with kptfile := r.kptfile.setConditionRefFailed forRef msg }

/-! ## Populating the children -/

/-- One turn of the loop over the objects `PopulateOwnResourcesFn` returned. -/
def populateChild (forRef : ObjectReference) (r : Sdk V) (newObj : KubeObject V) : Sdk V :=
  let objRef := newObj.ref
  match r.inv.isGVKMatch objRef with
  | none =>
    r.failCondition forRef
      ("stage1: cannot find new resource in gvkmap: objRef: " ++ getRefsString [forRef, objRef])
  | some kc =>
    let newObj := newObj.setAnnotation specializerOwner (getConditionType forRef)
    match r.inv.set kc [forRef, objRef] (.object newObj) true false with
    | .ok inv => { r with inv := inv }
    | .error e =>
      r.failCondition forRef
        ("stage1: cannot set new resource to the inventory objRef: " ++ getRefsString [forRef] ++
          ", err: " ++ e ++ "\n")

/-- The message of a for-instance whose children could not be populated. -/
def populateFailedMsg (err : String) : String :=
  "stage1: cannot populate new resource err: " ++ err

/-- One turn of the loop over the for-instances. -/
def populateFor (cfg : Config V) (r : Sdk V) (forRef : ObjectReference) (res : ResourceCtx V) :
    Sdk V :=
  match cfg.populateOwnResourcesFn, res.existingResource with
  | some populateOwn, some forObj =>
    match populateOwn forRef forObj with
    | .error err =>
      report (r.setCondition .forGVKKind [forRef] (populateFailedMsg err) .conditionFalse true)
    | .ok objs => objs.foldl (populateChild forRef) r
  | _, _ => r

/-- `populateChildren`. -/
def populateChildren (cfg : Config V) (ord : Order) (r : Sdk V) : Sdk V :=
  (ord.range .populateChildren (r.inv.get .forGVKKind [{}])).foldl
    (fun r e => populateFor cfg r e.1 e.2) r

/-! ## Updating the children -/

/-- `sortObjects` and the sort of `diffMapKeysInDeterministicOrder`. -/
def sortByRef {α : Type} (ref : α → ObjectReference) (l : List α) : List α :=
  l.insertionSort fun a b => (ref a).string ≤ (ref b).string

/-- The status a child's condition is created with: the actor of a local child is the function
itself, so its condition is True from the start. -/
def createStatus (ownKind : Option ResourceKind) : ConditionStatus :=
  if ownKind = some .childLocal then .conditionTrue else .conditionFalse

/-- The message a child's condition is created with. -/
def createMsg (ownKind : Option ResourceKind) : String :=
  if ownKind = some .childInitial then "create initial resource condition"
  else if ownKind = some .childLocal then "child local resource -> done"
  else "create condition"

/-- The body of the loop over the for-instances in the ready state. In the source each error `err`
is joined to `e` as `if err := errors.Join(e, err); ...`, which declares a new `err` and leaves `e`
nil: the error is reported in the results, and the `SetConditionRefFailed` that `e` was to trigger
after the loops is never reached. -/
def applyDiff (forRef : ObjectReference) (d : InventoryDiff V) (r : Sdk V) :
    Except Go.Panic (Sdk V) := do
  let r :=
    if d.updateForCondition then
      report (r.setCondition .forGVKKind [forRef] "update for condition" .conditionFalse false)
    else r
  let r := (sortByRef Child.ref d.createConditions).foldl (fun r obj =>
    report (r.setCondition .ownGVKKind [forRef, obj.ref] (createMsg obj.ownKind)
      (createStatus obj.ownKind) false)) r
  let r ← d.deleteConditions.foldlM (fun r obj =>
    report <$> r.deleteCondition .ownGVKKind [forRef, obj.ref]) r
  let r := (sortByRef (fun o => o.ref) d.createObjs).foldl (fun r obj =>
    report (r.upsertChildObject .ownGVKKind [forRef, obj.ref] obj.obj obj.ownKind none
      "create initial resource" (createStatus obj.ownKind) false)) r
  let r := (sortByRef (fun o => o.ref) d.updateObjs).foldl (fun r obj =>
    report (r.upsertChildObject .ownGVKKind [forRef, obj.ref] obj.obj obj.ownKind none
      "update resource" .conditionFalse false)) r
  let r := d.deleteObjs.foldl (fun r obj =>
    report (r.deleteChildObject [forRef, obj.ref] obj.obj "delete resource")) r
  return d.updateDeleteAnnotations.foldl (fun r obj =>
    report (r.upsertChildObject .ownGVKKind [forRef, obj.ref] obj.obj obj.ownKind none
      "update resource" .conditionFalse false)) r

/-- The body of the loop over the for-instances when the function is not ready. -/
def applyDiffNotReady (forRef : ObjectReference) (d : InventoryDiff V) (r : Sdk V) :
    Except Go.Panic (Sdk V) := do
  let r ←
    if d.deleteForCondition then report <$> r.deleteCondition .forGVKKind [forRef]
    else .ok r
  return d.deleteObjs.foldl (fun r obj =>
    report (r.deleteChildObject [forRef, obj.ref] obj.obj "not ready")) r

/-- `updateChildren`. In the ready state the for-instances come in the order of their names. -/
def updateChildren [DecidableEq V] (ord : Order) (r : Sdk V) : Except Go.Panic (Sdk V) := do
  let diffMap ← r.inv.diff ord
  if r.inv.ready then
    (sortByRef Prod.fst diffMap).foldlM (fun r e => applyDiff e.1 e.2 r) r
  else
    (ord.range .notReadyDiff diffMap).foldlM (fun r e => applyDiffNotReady e.1 e.2 r) r

end Sdk

end Nephio.CondKptSdk
