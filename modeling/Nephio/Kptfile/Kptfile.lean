import Nephio.Data.Keyed
import Nephio.Go.Slice
import Nephio.Kptfile.ConditionType

/-!
# The Kptfile's conditions and readiness gates

`lib/kptfile/v1/kptfile.go` over what `GetConditions` and `GetReadinessGates` read. The YAML node
under the object is the third-party sdk's: `SetNestedField` stores the list it is given and `As`
returns it.
-/

namespace Nephio

/-- `kptv1.ConditionStatus`. -/
inductive ConditionStatus where
  | conditionTrue
  | conditionFalse
  | conditionUnknown
deriving DecidableEq, Repr

/-- `kptv1.Condition`. -/
structure Condition where
  type : String
  status : ConditionStatus
  reason : String := ""
  message : String := ""
deriving DecidableEq, Repr

/-- `KptFile`: the conditions of `status` and the readiness gates of `info`. -/
structure KptFile where
  conditions : List Condition
  readinessGates : List String := []
deriving DecidableEq, Repr

namespace KptFile

/-- `GetCondition`: the first condition of a type. -/
def getCondition (k : KptFile) (conditionType : String) : Option Condition :=
  k.conditions.find? (fun c => c.type = conditionType)

/-- `HasReadinessGate`. -/
def hasReadinessGate (k : KptFile) (ct : String) : Bool := k.readinessGates.contains ct

/-- `SetReadinessGates`: append each gate that is not there yet. -/
def setReadinessGates (k : KptFile) (cs : List String) : KptFile :=
  { k with
    readinessGates := cs.foldl (fun ergs nct => if ergs.contains nct then ergs else ergs ++ [nct])
      k.readinessGates }

/-- `SetConditions`: overwrite the first condition of each type, or append it. -/
def setConditions (k : KptFile) (ncs : List Condition) : KptFile :=
  { k with
    conditions := ncs.foldl (fun ecs nc => Keyed.upsert Condition.type nc ecs) k.conditions }

/-- `DeleteCondition`, with the loop that shrinks the slice it ranges over. -/
def deleteCondition (k : KptFile) (ct : String) : Except Go.Panic KptFile := do
  let ecs ← Go.removeLoop (fun c => c.type = ct) k.conditions
  return { k with conditions := ecs }

/-- The condition `SetConditionRefFailed` writes over what is there. -/
def failedCondition (condType msg : String) : Option Condition → Condition
  | some c => { c with message := msg, status := .conditionFalse }
  | none => { type := condType, status := .conditionFalse, message := msg }

/-- `SetConditionRefFailed`: status and message change, the reason stays. -/
def setConditionRefFailed (k : KptFile) (ref : ObjectReference) (msg : String) : KptFile :=
  let condType := getConditionType ref
  k.setConditions [failedCondition condType msg (k.getCondition condType)]

/-- `IsReady`: some condition's type begins with the prefix, and none of these is False. -/
def isReady (k : KptFile) (ctPrefix : String) : Bool :=
  let cs := k.conditions.filter (fun c => ctPrefix.toList.isPrefixOf c.type.toList)
  !cs.isEmpty && cs.all (fun c => c.status ≠ .conditionFalse)

end KptFile

/-- `GetConditionByRef`. Of two references the first is the owner, and goes into the reason. -/
def getConditionByRef (refs : List ObjectReference) (msg : String) (status : ConditionStatus) :
    Except String Condition :=
  if isRefsValid refs then
    let forRef := refs.headD {}
    match refs[1]? with
    | none => .ok { type := getConditionType forRef, status := status, message := msg }
    | some objRef => .ok
        { type := getConditionType objRef, status := status, reason := getConditionType forRef,
          message := msg }
  else
    .error ("cannot set resource in resource list as the object has no valid refs: " ++
      formatRefs refs)

end Nephio
