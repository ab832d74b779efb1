import Nephio.Data.Fallible
import Nephio.NfDeployFn.Helper

/-!
# nfdeploy-fn

`function.go`: what `UpdateResourceFn` does for one NFDeployment and its children. The sdk calls it
once for each NFDeployment that is ready, with one `NfDeployFn` for all the calls of a Run.
-/

namespace Nephio.NfDeployFn

open Workload

variable {V Q : Type}

/-- One of the updates that a child goes through: it panics, fails or changes the state. -/
abbrev Update (V Q : Type) :=
  NfDeployFn Q → KubeObject V → Except Go.Panic (Except String (NfDeployFn Q))

/-- `CapacityUpdate`. -/
def capacityUpdate (api : Api V Q) : Update V Q := fun f o =>
  .ok (match api.capacity o with
    | .error err => .error err
    | .ok capacity => .ok { f with capacity := some capacity })

/-- The loop of `InterfaceUpdate` over the claimed prefixes. The last one of a family counts. -/
def addresses (api : Api V Q) (ips : Option IPv4 × Option IPv6) (ifStatus : Req.IPClaimStatus) :
    Except String (Option IPv4 × Option IPv6) :=
  match ifStatus.ipPrefix with
  | none => .ok ips
  | some ipPrefix =>
    match api.isIpv6 ipPrefix with
    | .error err => .error err
    | .ok true => .ok (ips.1, some { address := ipPrefix, gateway := ifStatus.gateway })
    | .ok false => .ok (some { address := ipPrefix, gateway := ifStatus.gateway }, ips.2)

/-- `InterfaceUpdate`. -/
def interfaceUpdate (api : Api V Q) : Update V Q := fun f o =>
  match api.interface o with
  | .error err => .ok (.error err)
  | .ok (spec, status) =>
    match api.validate spec with
    | some err => .ok (.error err)
    | none =>
      match status.ipClaimStatus, status.vlanClaimStatus with
      | some ipClaims, some vlanClaim =>
        match ipClaims.foldlM (addresses api) (none, none) with
        | .error err => .ok (.error err)
        | .ok (ipv4, ipv6) =>
          match spec.networkInstance with
          | none => .error .nilPointer
          | some networkInstance =>
            .ok (.ok (f.setInterfaceConfig { name := o.name, ipv4, ipv6, vlanID := vlanClaim.vlanID }
              networkInstance.name))
      | _, _ => .ok (.ok f)

/-- `DnnUpdate`. -/
def dnnUpdate (api : Api V Q) : Update V Q := fun f o =>
  .ok (match api.dataNetwork o with
    | .error err => .error err
    | .ok (spec, status) =>
      match status.pools with
      | none => .ok f
      | some pools =>
        .ok (f.addDNNToNetworkInstance
          { name := some o.name
            pool := pools.filterMap fun pool => pool.ipClaim.ipPrefix.map fun ipPrefix => { ipPrefix } }
          spec.networkInstance.name))

/-- `DependencyUpdate`. -/
def dependencyUpdate (api : Api V Q) : Update V Q := fun f o =>
  match api.dependency o with
  | .error err => .ok (.error err)
  | .ok status => do return .ok (← status.injected.foldlM addDependencyRef f)

/-- `objs.Where(fn.IsGroupVersionKind(..))`, for a kind of the requirements. -/
def whereKind (kind : String) (objs : List (KubeObject V)) : List (KubeObject V) :=
  objs.filter fun o => o.apiVersion = Req.groupVersion ∧ o.kind = kind

/-- The updates of one call, in the order of the four loops: Capacity, DataNetwork, Interface and
Dependency. -/
def updates (api : Api V Q) (objs : List (KubeObject V)) : List (Update V Q × KubeObject V) :=
  (whereKind "Capacity" objs).map (capacityUpdate api, ·) ++
  (whereKind "DataNetwork" objs).map (dnnUpdate api, ·) ++
  (whereKind "Interface" objs).map (interfaceUpdate api, ·) ++
  (whereKind "Dependency" objs).map (dependencyUpdate api, ·)

/-- The order of the `parametersRefs`: by name, where both have one. -/
def paramRefLess (a b : ParametersRef) : Bool :=
  match a.name, b.name with
  | some a, some b => a ≤ b
  | _, _ => true

/-- One turn of the loop over `interfaceConfigsMap`. The sort is in place, so that it changes what
the map holds. -/
def addInterfaces (sort : Go.SliceSort) (f : NfDeployFn Q)
    (e : String × List InterfaceConfig) : NfDeployFn Q :=
  let f := e.2.foldl (fun f itfceConfig => f.addInterfaceToNetworkInstance itfceConfig.name e.1) f
  match Keyed.lookup Prod.fst e.1 f.networkInstance with
  | none => f
  | some (_, nI) =>
    { f with
      networkInstance := Keyed.upsert Prod.fst
        (e.1, { nI with interfaces := sort.slice (fun a b => a ≤ b) nI.interfaces })
        f.networkInstance }

/-- What `UpdateResourceFn` writes to the spec of an NFDeployment, once its children are read. -/
def writeSpec (sort : Go.SliceSort) (ord : Order) (f : NfDeployFn Q) (nf : NFDeploymentSpec Q) :
    NfDeployFn Q × NFDeploymentSpec Q :=
  let nf := f.fillCapacityDetails nf
  let nf := { nf with parametersRefs := sort.slice paramRefLess f.paramRef }
  let f := { f with paramRef := nf.parametersRefs }
  let f := (ord.range .updateResourceFn f.interfaceConfigsMap).foldl (addInterfaces sort) f
  (f, { nf with
    interfaces := f.getAllInterfaceConfig sort ord
    networkInstances := f.getAllNetworkInstance sort ord })

/-- `UpdateResourceFn` from the point where the NFDeployment is decoded, to the one where its spec is
written. -/
def updateSpec (api : Api V Q) (sort : Go.SliceSort) (ord : Order) (f : NfDeployFn Q)
    (nf : NFDeploymentSpec Q) (objs : List (KubeObject V)) :
    Except Go.Panic (NfDeployFn Q × Except String (NFDeploymentSpec Q)) := do
  match ← Fallible.untilError (fun f e => e.1 f e.2) { f with paramRef := nf.parametersRefs }
      (updates api objs) with
  | (f, some err) => return (f, .error err)
  | (f, none) =>
    let (f, nf) := f.writeSpec sort ord nf
    return (f, .ok nf)

/-- `UpdateResourceFn`. -/
def updateResourceFn (api : Api V Q) (sort : Go.SliceSort) (ord : Order) (f : NfDeployFn Q)
    (nfDeploymentObj : Option (KubeObject V)) (objs : List (KubeObject V)) :
    Except Go.Panic (NfDeployFn Q × Except String (List (KubeObject V))) :=
  match nfDeploymentObj with
  | none => .ok (f, .error "expected a for object but got nil")
  | some obj =>
    match api.nfDeployment obj with
    | .error err => .ok (f, .error err)
    | .ok nf => do
      let (f, out) ← f.updateSpec api sort ord nf objs
      return (f, do
        let nf ← out
        let obj ← api.setSpec obj nf
        return [obj])

end Nephio.NfDeployFn
