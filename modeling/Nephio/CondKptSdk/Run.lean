import Nephio.CondKptSdk.Stage1

/-!
# Stage 2 and the whole Run

`sdk_stage2.go`, `condition.go` and `sdk.go`.
-/

namespace Nephio.CondKptSdk

namespace Sdk

variable {V : Type}

/-! ## Stage 2 -/

/-- `handleUpdateResource`: the objects the function returned, with the owner annotation set back to
the reason of the for condition. -/
def handleUpdateResource (updateFn : UpdateResourceFn V) (forRef : ObjectReference)
    (forObj : Option (KubeObject V)) (forCondition : Option Condition)
    (objs : List (KubeObject V)) : Except String (List (KubeObject V)) := do
  let newObjs ← updateFn forRef forObj objs
  match forCondition with
  | some c =>
    if c.reason ≠ "" then return newObjs.map fun o => o.setAnnotation specializerOwner c.reason
    else return newObjs
  | none => return newObjs

/-- One turn of the loop over the objects a for-instance's update returned. -/
def updateResource (forRef : ObjectReference) (forCondition : Option Condition) (r : Sdk V)
    (newObj : KubeObject V) : Sdk V :=
  match r.inv.isGVKMatch newObj.ref with
  | none =>
    { r with results := r.results ++
        ["stage 2 fn returned an object that is not owned in the config: ref: " ++
          getRefsString [newObj.ref]] }
  | some kc =>
    match kc.gvkKind with
    | .forGVKKind =>
      (r.upsertChildObject .forGVKKind [forRef] newObj none forCondition "update done"
        .conditionTrue true).1
    | .ownGVKKind =>
      (r.upsertChildObject .ownGVKKind [forRef, newObj.ref] newObj none forCondition "update done"
        .conditionTrue true).1
    | .watchGVKKind =>
      { r with results := r.results ++
          ["stage 2 fn returned an unexpected watch kind ref: " ++ getRefsString [newObj.ref]] }

/-- One turn of the loop over the ready map. -/
def updateFor (updateFn : UpdateResourceFn V) (ord : Order) (r : Sdk V)
    (forRef : ObjectReference) (ctx : ReadyCtx V) : Sdk V :=
  if !ctx.ready || ctx.failed then r
  else
    let objs := (ord.range (.readyOwn forRef) ctx.owns).map Prod.snd ++
      (ord.range (.readyWatch forRef) ctx.watches).map Prod.snd
    match handleUpdateResource updateFn forRef ctx.forObj ctx.forCondition objs with
    | .error err => r.failCondition forRef err
    | .ok newObjs => newObjs.foldl (updateResource forRef ctx.forCondition) r

/-- `updateResources`. When the function is not ready and owns nothing, the for objects go. -/
def updateResources (cfg : Config V) (ord : Order) (r : Sdk V) : Except Go.Panic (Sdk V) :=
  let readyMap := ord.range .updateResources r.inv.getReadyMap
  if r.inv.ready then
    match cfg.updateResourceFn with
    | none => .ok r
    | some updateFn => .ok (readyMap.foldl (fun r e => updateFor updateFn ord r e.1 e.2) r)
  else
    readyMap.foldlM (fun r e =>
      match e.2.forObj with
      | some forObj => if cfg.owns.isEmpty then r.deleteObjFromResourceList forObj else .ok r
      | none => .ok r) r

/-! ## The specializer's own condition -/

/-- `getSpecializationConditionType`. -/
def specializationConditionType : String :=
  getConditionType { apiVersion := "nephio.org", kind := "Specializer", name := "specialize" }

/-- `initialize`, `failed`, `notReady` and `ready` of `condition.go`. -/
def specializerCondition (status : ConditionStatus) (reason msg : String) : Condition where
  type := specializationConditionType
  status := status
  reason := reason
  message := msg

def initializeCondition : Condition :=
  specializerCondition .conditionFalse "Specialize" "initialized"

def failedCondition (msg : String) : Condition := specializerCondition .conditionFalse "Failed" msg

def notReadyCondition : Condition := specializerCondition .conditionFalse "Specialize" "not ready"

def readyCondition : Condition := specializerCondition .conditionTrue "Ready" ""

/-- The for objects of the package. -/
def forObjs (cfg : Config V) (r : Sdk V) : List (KubeObject V) :=
  r.items.filter fun o => o.ref.gvk = cfg.forRef.gvk

/-- `failForConditions`. -/
def failForConditions (cfg : Config V) (msg : String) (r : Sdk V) : Sdk V :=
  { r with
    kptfile := (r.forObjs cfg).foldl (fun k o => k.setConditionRefFailed o.ref msg) r.kptfile }

/-- `ensureConditionsAndGates`. -/
def ensureConditionsAndGates (r : Sdk V) : Sdk V :=
  let kptfile := r.kptfile.setReadinessGates [specializationConditionType]
  { r with
    kptfile :=
      if (kptfile.getCondition specializationConditionType).isNone then
        kptfile.setConditions [initializeCondition]
      else kptfile }

/-! ## Run -/

/-- The part of `Run` between the inventory and stage 1: a global watch that fails makes the
function not ready. -/
def runWatches (cfg : Config V) (ord : Order) (r : Sdk V) : Sdk V :=
  match r.callGlobalWatches ord with
  | (r, none) => r
  | (r, some err) =>
    if cfg.root then { r with kptfile := r.kptfile.setConditions [failedCondition err] }
    else r.failForConditions cfg err

/-- Stage 1 of `Run`. -/
def stage1 [DecidableEq V] (cfg : Config V) (ord : Order) (r : Sdk V) : Except Go.Panic (Sdk V) :=
  (if r.inv.ready && !cfg.owns.isEmpty then r.populateChildren cfg ord else r).updateChildren ord

/-- The end of `Run`: a Root function sums up the conditions of its for-instances. -/
def runReadiness (cfg : Config V) (r : Sdk V) : Sdk V :=
  if cfg.root && r.inv.ready then
    let ctPrefix := getConditionType cfg.forRef.gvk
    { r with
      kptfile := r.kptfile.setConditions
        [if r.kptfile.isReady ctPrefix then readyCondition else notReadyCondition] }
  else r

/-- `Run` from the point where the Kptfile is found. -/
def run [DecidableEq V] (cfg : Config V) (ord : Order) (r : Sdk V) : Except Go.Panic (Sdk V) := do
  let r := if cfg.root then r.ensureConditionsAndGates else r
  match r.populateInventory cfg with
  | .error err =>
    return r.failForConditions cfg ("stage1: cannot populate inventory, err: " ++ err)
  | .ok r =>
    let r := r.runWatches cfg ord
    let r ← r.stage1 cfg ord
    let r ← r.updateResources cfg ord
    return r.runReadiness cfg

end Sdk

/-! ## The package a Run works on -/

/-- The resource list: its items, the Kptfile among them. The conditions and readiness gates of the
root Kptfile are kept apart, as `kptfile`; without a root Kptfile it is `none`. -/
structure ResourceList (V : Type) where
  items : List (KubeObject V)
  kptfile : Option KptFile
  results : List String := []

variable {V : Type}

/-- `Run`: the resource list afterwards, and the boolean it returns or its error. -/
def ResourceList.run [DecidableEq V] (rl : ResourceList V) (cfg : Config V) (inv : Inv V)
    (ord : Order) : Except Go.Panic (ResourceList V × Except String Bool) :=
  if rl.items.isEmpty then
    .ok ({ rl with results := rl.results ++ ["no resources present in the resourcelist"] }, .ok true)
  else
    match rl.kptfile with
    | none =>
      let msg := "mandatory Kptfile is missing from the package"
      .ok ({ rl with results := rl.results ++ [msg ++ ", error: " ++ msg ++ "\n"] }, 
        .error (msg ++ "%!(EXTRA string=" ++ msg ++ ")"))
    | some kptfile => do
      let r ← Sdk.run cfg ord { items := rl.items, kptfile, inv, results := rl.results }
      return ({ items := r.items, kptfile := some r.kptfile, results := r.results }, .ok true)

end Nephio.CondKptSdk
