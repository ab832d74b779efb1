import Nephio.Api
import Nephio.Go.Slice
import Nephio.Go.Sort

/-!
# The state of nfdeploy-fn

`helper.go`: one `NfDeployFn` serves all the NFDeployments of a package. What their children bring
is collected in its maps and fields, and nothing is taken out again.
-/

namespace Nephio

open Workload

/-- The loops over a map. -/
inductive NfDeployFn.RangeSite where
  | updateResourceFn
  | getAllNetworkInstance
  | getAllInterfaceConfig
deriving DecidableEq, Repr

/-- `NfDeployFn`, without the sdk and the workload cluster. -/
structure NfDeployFn (Q : Type) where
  capacity : Option Q := none
  networkInstance : List (String × NetworkInstance) := []
  interfaceConfigsMap : List (String × List InterfaceConfig) := []
  paramRef : List ParametersRef := []
deriving DecidableEq, Repr

namespace NfDeployFn

variable {Q : Type}

abbrev Order := Go.MapOrder RangeSite String

/-- `NewFunction`. -/
def newFunction : NfDeployFn Q := {}

/-- `SetInterfaceConfig`. A network instance that is not in the map has no configs. -/
def setInterfaceConfig (h : NfDeployFn Q) (interfaceConfig : InterfaceConfig)
    (networkInstanceName : String) : NfDeployFn Q :=
  if networkInstanceName = "" then h
  else
    let configs := ((Keyed.lookup Prod.fst networkInstanceName h.interfaceConfigsMap).map
      Prod.snd).getD []
    { h with
      interfaceConfigsMap := Keyed.upsert Prod.fst (networkInstanceName, configs ++ [interfaceConfig])
        h.interfaceConfigsMap }

/-- `h.networkInstance[name]`, changed where it exists and added where it does not. -/
def upsertNetworkInstance (h : NfDeployFn Q) (name : String)
    (change : NetworkInstance → NetworkInstance) (new : NetworkInstance) : NfDeployFn Q :=
  match Keyed.lookup Prod.fst name h.networkInstance with
  | some (_, nI) =>
    { h with networkInstance := Keyed.upsert Prod.fst (name, change nI) h.networkInstance }
  | none => { h with networkInstance := Keyed.upsert Prod.fst (name, new) h.networkInstance }

/-- `AddDNNToNetworkInstance`. -/
def addDNNToNetworkInstance (h : NfDeployFn Q) (dnn : DataNetwork) (networkInstanceName : String) :
    NfDeployFn Q :=
  h.upsertNetworkInstance networkInstanceName
    (fun nI => { nI with dataNetworks := nI.dataNetworks ++ [dnn] })
    { name := networkInstanceName, dataNetworks := [dnn] }

/-- `AddInterfaceToNetworkInstance`. -/
def addInterfaceToNetworkInstance (h : NfDeployFn Q)
    (interfaceName networkInstanceName : String) : NfDeployFn Q :=
  h.upsertNetworkInstance networkInstanceName
    (fun nI => { nI with interfaces := nI.interfaces ++ [interfaceName] })
    { name := networkInstanceName, interfaces := [interfaceName] }

/-- `GetAllNetworkInstance`. -/
def getAllNetworkInstance (sort : Go.SliceSort) (ord : Order) (h : NfDeployFn Q) :
    List NetworkInstance :=
  sort.slice (fun a b => a.name < b.name)
    ((ord.range .getAllNetworkInstance h.networkInstance).map Prod.snd)

/-- `GetAllInterfaceConfig`. -/
def getAllInterfaceConfig (sort : Go.SliceSort) (ord : Order) (h : NfDeployFn Q) :
    List InterfaceConfig :=
  sort.slice (fun a b => a.name < b.name)
    ((ord.range .getAllInterfaceConfig h.interfaceConfigsMap).flatMap Prod.snd)

/-- `FillCapacityDetails`. -/
def fillCapacityDetails (h : NfDeployFn Q) (nf : NFDeploymentSpec Q) : NFDeploymentSpec Q :=
  match h.capacity with
  | none => nf
  | some capacity => { nf with capacity := some capacity }

/-- `checkDependencyExist`: `*p.Name` is read before anything is compared. -/
def checkDependencyExist (ref : ObjectReference) : List ParametersRef → Except Go.Panic Bool
  | [] => .ok false
  | p :: ps =>
    match p.name with
    | none => .error .nilPointer
    | some name =>
      if name = ref.name ∧ p.kind = ref.kind ∧ p.apiVersion = ref.apiVersion then .ok true
      else checkDependencyExist ref ps

/-- `AddDependencyRef`. -/
def addDependencyRef (h : NfDeployFn Q) (ref : ObjectReference) :
    Except Go.Panic (NfDeployFn Q) := do
  if ← checkDependencyExist ref h.paramRef then return h
  else
    return { h with
      paramRef := h.paramRef ++
        [{ name := some ref.name, kind := ref.kind, apiVersion := ref.apiVersion }] }

end NfDeployFn

end Nephio
