import Nephio.ClaimFns.Status
import Nephio.Data.Fallible
import Nephio.Go.Sort
import Nephio.Nad.Config

/-!
# nad-fn

`updateResourceFn` of nad-fn: the network attachment definition for an Interface, from the IPClaims
and the VLANClaim of that Interface and from the Networks of the package. A claim brings an address,
and a route for each prefix of the routing tables of its network instance.
-/

namespace Nephio

/-- A slice that has only been appended to: nil where it is empty. -/
def Go.appended {α : Type} : List α → Option (List α)
  | [] => none
  | x :: l => some (x :: l)

namespace NadFn

open Req Nad ClaimFns

/-- What nad-fn reads of the spec of a WorkloadCluster. -/
structure WorkloadClusterSpec extends ClaimFns.WorkloadClusterSpec where
  masterInterface : Option String := none
deriving DecidableEq, Repr

/-- `infrav1alpha1.RoutingTable`. -/
structure RoutingTable where
  name : String
  prefixes : List String := []
deriving DecidableEq, Repr

/-- What nad-fn reads of an `infrav1alpha1.Network`. -/
structure Network where
  routingTables : List RoutingTable := []
deriving DecidableEq, Repr

/-- How objects are decoded, and the family of a prefix. -/
structure NadFnApi (V S : Type) extends NadApi V S where
  interface : KubeObject V → Except String (InterfaceSpec × InterfaceStatus)
  ipClaim : KubeObject V → Except String IPClaim
  network : KubeObject V → Except String Network
  /-- `NestedInt("status", "vlanID")`, zero where there is none. -/
  vlanID : KubeObject V → Int
  /-- `iputil.New`, then `GetAddressFamily`. -/
  addressFamily : String → Except String IPFamily

/-- `nadFn`, without the sdk. -/
structure Function where
  workloadCluster : Option WorkloadClusterSpec := none
  forName : String := ""
  forNamespace : String := ""
  networkObjs : List Network := []

def interfaceGVK : ObjectReference :=
  { apiVersion := Req.groupVersion, kind := "Interface", name := "" }

/-- `containsAddress`. -/
def containsAddress (s : List Address) (e : String) : Bool := s.any fun a => a.address = e

/-- `containsDestination`. -/
def containsDestination (s : List Route) (e : String) : Bool := s.any fun a => a.destination = e

/-- The addresses and the routes that have been gathered. -/
structure Gathered where
  nadAddresses : List Address := []
  nadRoutes : List Route := []

variable {V S : Type}

/-- A prefix of a routing table of the network instance of a claim. -/
def addRoute (api : NadFnApi V S) (address gateway : String) (nadRoutes : List Route)
    (destination : String) : Except String (List Route) := do
  let pi ← api.addressFamily destination
  let pia ← api.addressFamily address
  if pi.string = pia.string then
    if !containsDestination nadRoutes destination then
      return nadRoutes ++ [{ destination := destination, gateway := gateway }]
    else return nadRoutes
  else return nadRoutes

/-- The three loops over the networks, their routing tables and their prefixes. -/
def addRoutes (api : NadFnApi V S) (networkObjs : List Network) (networkInstance : String)
    (address gateway : String) (nadRoutes : List Route) : Except String (List Route) :=
  networkObjs.foldlM (fun nadRoutes networkObj =>
    networkObj.routingTables.foldlM (fun nadRoutes rt =>
      if rt.name = networkInstance then
        rt.prefixes.foldlM (addRoute api address gateway) nadRoutes
      else return nadRoutes) nadRoutes) nadRoutes

/-- A turn of the loop over the IPClaims. -/
def addClaim (api : NadFnApi V S) (networkObjs : List Network) (acc : Gathered)
    (ipClaim : KubeObject V) : Except String Gathered := do
  let claim ← api.ipClaim ipClaim
  let address := claim.status.ipPrefix.getD ""
  let gateway := claim.status.gateway.getD ""
  let nadAddresses :=
    if !containsAddress acc.nadAddresses address then
      acc.nadAddresses ++ [{ address := address, gateway := gateway }]
    else acc.nadAddresses
  if address ≠ "" ∧ gateway ≠ "" then
    let nadRoutes ← addRoutes api networkObjs claim.networkInstance.name address gateway acc.nadRoutes
    return { nadAddresses, nadRoutes }
  else return { acc with nadAddresses }

variable [DecidableEq S]

/-- The type of an interface, set on the NAD. -/
def setType (api : NadFnApi V S) (wc : WorkloadClusterSpec) (nad : NadStruct V)
    (itfce : KubeObject V) : Except String (NadStruct V × String) := do
  let (spec, _) ← api.interface itfce
  if !isCNITypePresent wc.toWorkloadClusterSpec spec.cniType then
    .error ("cniType not supported in workload cluster; workload cluster CNI(s): [" ++
      " ".intercalate wc.cnis ++ "], interface cniType requested: " ++ spec.cniType)
  else
    let nad ← nad.setCNIType api.toNadApi spec.cniType
    return (nad, spec.cniType)

/-- A turn of the loop over the interfaces. -/
def setInterface (api : NadFnApi V S) (wc : WorkloadClusterSpec) (vlanID : Int)
    (nad : NadStruct V) (itfce : KubeObject V) : Except Go.Panic (Except String (NadStruct V)) :=
  match setType api wc nad itfce with
  | .error err => .ok (.error err)
  | .ok (nad, cniType) =>
    match wc.masterInterface with
    | none => .error .nilPointer
    | some masterInterface =>
      let masterInterface :=
        if cniType ≠ "vlan" ∧ vlanID ≠ 0 then masterInterface ++ "." ++ toString vlanID
        else masterInterface
      .ok (if cniType ≠ "bridge" then nad.setNadMaster api.toNadApi masterInterface
        else nad.setBridgeName api.toNadApi vlanID)

/-- The addresses and the routes, set on the NAD. -/
def setIpam (api : NadFnApi V S) (sort : Go.SliceSort) (networkObjs : List Network)
    (ipClaimObjs : List (KubeObject V)) (nad : NadStruct V) : Except String (NadStruct V) := do
  let acc ← ipClaimObjs.foldlM (addClaim api networkObjs) {}
  let nad ← nad.setIpamAddress api.toNadApi
    (Go.appended (sort.slice (fun a b => a.address < b.address) acc.nadAddresses))
  nad.setIpamRoutes api.toNadApi
    (Go.appended (sort.slice (fun a b => a.destination < b.destination) acc.nadRoutes))

/-- The second half of `updateResourceFn`: a new NAD, with what the objects say. -/
def Function.generate (api : NadFnApi V S) (sort : Go.SliceSort) (f : Function)
    (wc : WorkloadClusterSpec) (itfce : KubeObject V)
    (interfaceObjs ipClaimObjs vlanClaimObjs : List (KubeObject V)) :
    Except Go.Panic (Except String (List (KubeObject V))) :=
  match api.newFromGoStruct (f.forName ++ "-" ++ itfce.name) f.forNamespace with
  | .error err => .ok (.error err)
  | .ok k =>
    let vlanID := vlanClaimObjs.foldl (fun _ vlanClaim => api.vlanID vlanClaim) 0
    if ipClaimObjs.isEmpty ∧ !vlanClaimObjs.isEmpty then
      -- the `CniSpecType` is `VlanClaimOnly`, and the NAD stays as it is
      .ok (.ok [k])
    else do
      let (nad, err) ← Fallible.untilError (setInterface api wc vlanID) { k } interfaceObjs
      match err with
      | some err => return .error err
      | none => return do
        let nad ← setIpam api sort f.networkObjs ipClaimObjs nad
        return [nad.k]

/-- The loop over the interfaces that looks for the owner of the deployment. -/
def Function.nameFor (f : Function) (interfaceObjs : List (KubeObject V)) : Function :=
  interfaceObjs.foldl (fun f o =>
    { f with
      forName := getForName o.annotations
      forNamespace := o.getAnnotation specializerNamespace }) f

/-- `nadFn.updateResourceFn`, with the function as it is left. -/
def Function.updateResourceFn (api : NadFnApi V S) (sort : Go.SliceSort) (f : Function)
    (objs : List (KubeObject V)) :
    Except Go.Panic (Function × Except String (List (KubeObject V))) :=
  match f.workloadCluster with
  | none => .ok (f, .error "workload cluster is missing from the kpt package")
  | some wc =>
    match objs.filter (isGVK interfaceGVK) with
    | [] => .ok (f, .error "expected Interface object to generate the nad")
    | itfce :: interfaceObjs =>
      let f := f.nameFor (itfce :: interfaceObjs)
      if f.forName = "" ∨ f.forNamespace = "" then
        .ok (f, .error ("expecting a for name and for namespace, got forName: " ++ f.forName ++
          ", forNamespace: " ++ f.forNamespace))
      else
        let ipClaimObjs := objs.filter (isGVK ipClaimGVK)
        let vlanClaimObjs := objs.filter (isGVK vlanClaimGVK)
        match api.interface itfce with
        | .error err => .ok (f, .error err)
        | .ok (spec, _) =>
          match spec.networkInstance with
          | none => .error .nilPointer
          | some ni =>
            if ni.name = defaultPODNetwork then .ok (f, .ok [])
            else if ipClaimObjs.isEmpty ∧ vlanClaimObjs.isEmpty then
              .ok (f, .error "expected one of IPClaim or VLANClaim objects to generate the nad")
            else do
              let out ← f.generate api sort wc itfce (itfce :: interfaceObjs) ipClaimObjs vlanClaimObjs
              return (f, out)

/-- `NetworkCallbackFn`: the sdk calls it for each Network of the package. -/
def Function.networkCallbackFn (api : NadFnApi V S) (f : Function) (o : KubeObject V) :
    Except String Function := do
  let networkObj ← api.network o
  return { f with networkObjs := f.networkObjs ++ [networkObj] }

end NadFn

end Nephio
