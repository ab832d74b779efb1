import Nephio.Kptfile.KubeObject

/-!
# The resources the functions work on

What the KRM functions read and write of `nf_requirements/v1alpha1` and `workload/v1alpha1`. The two
packages are not part of the repository, and neither is the decoder that `ko.GetGoStruct` goes
through, so an object is decoded by the fields of an `Api`. A pointer or a slice that the code
compares with nil is an `Option`. `Q` is the spec of a Capacity, which nothing looks into.
-/

namespace Nephio

/-! ## `nf_requirements/v1alpha1` -/

namespace Req

/-- `nephioreqv1alpha1.GroupVersion.Identifier()`. -/
def groupVersion : String := "req.nephio.org/v1alpha1"

inductive IPFamily where
  | ipv4
  | ipv6
deriving DecidableEq, Repr

/-- `string(af)`. -/
def IPFamily.string : IPFamily → String
  | .ipv4 => "ipv4"
  | .ipv6 => "ipv6"

/-- `IpFamilyPolicy`. Any other text, the empty one too, is `other`. -/
inductive IpFamilyPolicy where
  | dualStack
  | ipv6Only
  | ipv4Only
  | other
deriving DecidableEq, Repr

inductive AttachmentType where
  | vlan
  | other
deriving DecidableEq, Repr

structure InterfaceSpec where
  networkInstance : Option ObjectReference
  cniType : String := ""
  attachmentType : AttachmentType := .other
  ipFamilyPolicy : IpFamilyPolicy := .other
deriving DecidableEq, Repr

/-- `ipamv1alpha1.IPClaimStatus`: the prefix and the gateway. -/
structure IPClaimStatus where
  ipPrefix : Option String := none
  gateway : Option String := none
deriving DecidableEq, Repr

structure VLANClaimStatus where
  vlanID : Option UInt16 := none
deriving DecidableEq, Repr

structure InterfaceStatus where
  ipClaimStatus : Option (List IPClaimStatus) := none
  vlanClaimStatus : Option VLANClaimStatus := none
deriving DecidableEq, Repr

structure Pool where
  name : String
  ipFamily : IPFamily := .ipv4
  prefixLength : Nat := 0
deriving DecidableEq, Repr

structure DataNetworkSpec where
  networkInstance : ObjectReference
  pools : List Pool := []
deriving DecidableEq, Repr

structure PoolStatus where
  name : String
  ipClaim : IPClaimStatus
deriving DecidableEq, Repr

structure DataNetworkStatus where
  pools : Option (List PoolStatus) := none
deriving DecidableEq, Repr

structure DependencyStatus where
  injected : List ObjectReference := []
deriving DecidableEq, Repr

end Req

/-! ## `workload/v1alpha1` -/

namespace Workload

structure IPv4 where
  address : String
  gateway : Option String := none
deriving DecidableEq, Repr

structure IPv6 where
  address : String
  gateway : Option String := none
deriving DecidableEq, Repr

structure InterfaceConfig where
  name : String
  ipv4 : Option IPv4 := none
  ipv6 : Option IPv6 := none
  vlanID : Option UInt16 := none
deriving DecidableEq, Repr

structure Pool where
  ipPrefix : String
deriving DecidableEq, Repr

structure DataNetwork where
  name : Option String
  pool : List Pool := []
deriving DecidableEq, Repr

structure NetworkInstance where
  name : String
  interfaces : List String := []
  dataNetworks : List DataNetwork := []
deriving DecidableEq, Repr

/-- `workloadv1alpha1.ObjectReference`. -/
structure ParametersRef where
  name : Option String
  kind : String
  apiVersion : String
deriving DecidableEq, Repr

/-- The fields of `NFDeploymentSpec` that are written. -/
@[ext]
structure NFDeploymentSpec (Q : Type) where
  capacity : Option Q := none
  interfaces : List InterfaceConfig := []
  networkInstances : List NetworkInstance := []
  parametersRefs : List ParametersRef := []
deriving DecidableEq, Repr

end Workload

/-- How objects are decoded, checked and written back. -/
structure Api (V Q : Type) where
  nfDeployment : KubeObject V → Except String (Workload.NFDeploymentSpec Q)
  capacity : KubeObject V → Except String Q
  interface : KubeObject V → Except String (Req.InterfaceSpec × Req.InterfaceStatus)
  dataNetwork : KubeObject V → Except String (Req.DataNetworkSpec × Req.DataNetworkStatus)
  dependency : KubeObject V → Except String Req.DependencyStatus
  /-- `InterfaceSpec.Validate`: the error, if there is one. -/
  validate : Req.InterfaceSpec → Option String
  /-- `iputil.New(prefix)`, then `IsIpv6()`. -/
  isIpv6 : String → Except String Bool
  /-- `SetSpec` of an NFDeployment. -/
  setSpec : KubeObject V → Workload.NFDeploymentSpec Q → Except String (KubeObject V)

/-- The content of an object that has been decoded already. -/
inductive Payload where
  | nfDeployment (spec : Workload.NFDeploymentSpec Nat)
  | capacity (spec : Nat)
  | interface (spec : Req.InterfaceSpec) (status : Req.InterfaceStatus)
  | dataNetwork (spec : Req.DataNetworkSpec) (status : Req.DataNetworkStatus)
  | dependency (status : Req.DependencyStatus)
deriving DecidableEq

/-- Objects that hold their content, where every spec is valid and every prefix one of IPv4. -/
def payloadApi : Api Payload Nat where
  nfDeployment o := match o.spec with
    | some (.nfDeployment spec) => .ok spec
    | _ => .error "not an NFDeployment"
  capacity o := match o.spec with
    | some (.capacity spec) => .ok spec
    | _ => .error "not a Capacity"
  interface o := match o.spec with
    | some (.interface spec status) => .ok (spec, status)
    | _ => .error "not an Interface"
  dataNetwork o := match o.spec with
    | some (.dataNetwork spec status) => .ok (spec, status)
    | _ => .error "not a DataNetwork"
  dependency o := match o.spec with
    | some (.dependency status) => .ok status
    | _ => .error "not a Dependency"
  validate _ := none
  isIpv6 _ := .ok false
  setSpec o spec := .ok { o with spec := some (.nfDeployment spec) }

end Nephio
