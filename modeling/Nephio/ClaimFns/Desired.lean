import Nephio.Api
import Nephio.Go.Slice

/-!
# The claims of interface-fn and dnn-fn

`desiredOwnedResourceList` of the two functions: the IPClaims, VLANClaims and network attachment
definitions (NADs) that an Interface or a DataNetwork owns. Their names are joined with hyphens from
the name of the root NFDeployment, the name of the resource and an address family or a pool.
-/

namespace Nephio

/-- `specializer.nephio.org/for`: the root resource of the specialization. -/
def specializerFor : String := "specializer.nephio.org/for"

/-- `specializer.nephio.org/vlanClaimName`. -/
def specializervlanClaimName : String := "specializer.nephio.org/vlanClaimName"

/-- `filters.LocalConfigAnnotation`. -/
def localConfigAnnotation : String := "config.kubernetes.io/local-config"

namespace ClaimFns

open Req

/-- `resourcev1alpha1.NephioClusterNameKey`. -/
def nephioClusterNameKey : String := "nephio.org/cluster-name"

/-- `resourcev1alpha1.NephioAddressFamilyKey`. -/
def nephioAddressFamilyKey : String := "nephio.org/address-family"

/-- `resourcev1alpha1.NephioNetworkNameKey`. -/
def nephioNetworkNameKey : String := "nephio.org/network-name"

/-- What the functions read of the spec of a WorkloadCluster. -/
structure WorkloadClusterSpec where
  clusterName : String
  cnis : List String := []
deriving DecidableEq, Repr

structure ObjectMeta where
  name : String
  annotations : List (String × String) := []
deriving DecidableEq, Repr

inductive PrefixKind where
  | network
  | loopback
  | pool
deriving DecidableEq, Repr

inductive ClaimSpec where
  | ipClaim (kind : PrefixKind) (networkInstance : ObjectReference) (prefixLength : Option Nat)
      (createPrefix : Option Bool) (matchLabels : List (String × String))
  | vlanClaim (vlanIndex : String)
  | nad
deriving DecidableEq, Repr

/-- A claim or a NAD, as it is built. -/
structure Claim where
  metadata : ObjectMeta
  spec : ClaimSpec
deriving DecidableEq, Repr

def ipClaimGVK : ObjectReference :=
  { apiVersion := "ipam.resource.nephio.org/v1alpha1", kind := "IPClaim", name := "" }

def vlanClaimGVK : ObjectReference :=
  { apiVersion := "vlan.resource.nephio.org/v1alpha1", kind := "VLANClaim", name := "" }

def nadGVK : ObjectReference :=
  { apiVersion := "k8s.cni.cncf.io/v1", kind := "NetworkAttachmentDefinition", name := "" }

def ClaimSpec.gvk : ClaimSpec → ObjectReference
  | .ipClaim .. => ipClaimGVK
  | .vlanClaim _ => vlanClaimGVK
  | .nad => nadGVK

/-- The reference that the sdk files a claim under. -/
def Claim.ref (c : Claim) : ObjectReference := { c.spec.gvk with name := c.metadata.name }

/-- An annotation, if it is set. -/
def annotationAt (annotations : List (String × String)) (k : String) : Option String :=
  (Keyed.lookup Prod.fst k annotations).map Prod.snd

/-- `getAnnotations`, of both functions. -/
def getAnnotations (annotations : List (String × String)) : List (String × String) :=
  let a := annotations.filter fun e => e.1 = localConfigAnnotation
  match annotationAt annotations specializerFor with
  | some owner => Keyed.upsert Prod.fst (specializerFor, owner) a
  | none =>
    Keyed.upsert Prod.fst (specializerFor, (annotationAt annotations specializerOwner).getD "") a

/-- `getForName`, of both functions: what follows the last dot. -/
def getForName (annotations : List (String × String)) : String :=
  let forFullName :=
    match annotationAt annotations specializerFor with
    | some owner => owner
    | none => (annotationAt annotations specializerOwner).getD ""
  (split forFullName '.').getLastD ""

/-! ## interface-fn -/

def defaultPODNetwork : String := "default"

/-- `getAddressFamilies`. -/
def getAddressFamilies : IpFamilyPolicy → List IPFamily
  | .dualStack => [.ipv4, .ipv6]
  | .ipv6Only => [.ipv6]
  | .ipv4Only => [.ipv4]
  | .other => [.ipv4]

/-- `getIPClaim`. -/
def getIPClaim (wc : WorkloadClusterSpec) (metadata : ObjectMeta) (ni : ObjectReference)
    (kind : PrefixKind) (af : IPFamily) (purpose : String) : Claim where
  metadata := metadata
  spec := .ipClaim kind ni none none
    ([(nephioClusterNameKey, wc.clusterName), (nephioAddressFamilyKey, af.string)] ++
      if purpose ≠ "" then [(nephioNetworkNameKey, purpose)] else [])

/-- `getVLANClaim`. -/
def getVLANClaim (wc : WorkloadClusterSpec) (metadata : ObjectMeta) : Claim where
  metadata := metadata
  spec := .vlanClaim wc.clusterName

/-- `getNAD`. -/
def getNAD (metadata : ObjectMeta) : Claim where
  metadata := metadata
  spec := .nad

/-- `IsCNITypePresent`. -/
def isCNITypePresent (wc : WorkloadClusterSpec) (itfceCNIType : String) : Bool :=
  wc.cnis.any fun cni => cni = itfceCNIType

/-- `getAnnotationsWithvlanClaimName`. -/
def getAnnotationsWithvlanClaimName (wc : WorkloadClusterSpec) (annotations : List (String × String))
    (ni : ObjectReference) : List (String × String) :=
  Keyed.upsert Prod.fst (specializervlanClaimName, ni.name ++ "-" ++ wc.clusterName ++ "-bd")
    (getAnnotations annotations)

variable {V Q : Type}

/-- `itfceFn.desiredOwnedResourceList`. -/
def itfceFn.desiredOwnedResourceList (api : Api V Q) (workloadCluster : Option WorkloadClusterSpec)
    (o : KubeObject V) : Except Go.Panic (Except String (List Claim)) :=
  match workloadCluster with
  | none => .ok (.error "workload cluster is missing from the kpt package")
  | some wc =>
    match api.interface o with
    | .error err => .ok (.error err)
    | .ok (spec, _) =>
      match spec.networkInstance with
      | none => .error .nilPointer
      | some ni =>
        if ni.name = defaultPODNetwork then .ok (.ok [])
        else
          let afs := getAddressFamilies spec.ipFamilyPolicy
          let purpose := o.getAnnotation nephioNetworkNameKey
          let ipClaim (kind : PrefixKind) (af : IPFamily) : Claim :=
            getIPClaim wc
              { name := getForName o.annotations ++ "-" ++ o.name ++ "-" ++ af.string
                annotations := getAnnotations o.annotations }
              ni kind af purpose
          -- without a CNI type it is a loopback interface
          if spec.cniType ≠ "" then
            if !isCNITypePresent wc spec.cniType then
              .ok (.error ("cniType not supported in workload cluster; workload cluster CNI(s): [" ++
                " ".intercalate wc.cnis ++ "], interface cniType requested: " ++ spec.cniType))
            else
              .ok (.ok (afs.map (ipClaim .network) ++
                (if spec.attachmentType = .vlan then
                  [getVLANClaim wc
                    { name := getForName o.annotations ++ "-" ++ o.name
                      annotations := getAnnotationsWithvlanClaimName wc o.annotations ni }]
                else []) ++
                [getNAD
                  { name := getForName o.annotations ++ "-" ++ o.name
                    annotations := getAnnotations o.annotations }]))
          else .ok (.ok (afs.map (ipClaim .loopback)))

/-! ## dnn-fn -/

/-- The claim of dnn-fn for a pool. -/
def poolClaim (wc : WorkloadClusterSpec) (o : KubeObject V) (spec : DataNetworkSpec)
    (pool : Req.Pool) : Claim where
  metadata :=
    { name := getForName o.annotations ++ "-" ++ o.name ++ "-" ++ pool.name
      annotations := getAnnotations o.annotations }
  spec := .ipClaim .pool spec.networkInstance (some pool.prefixLength) (some true)
    [(nephioClusterNameKey, wc.clusterName), (nephioAddressFamilyKey, pool.ipFamily.string)]

/-- `dnnFn.desiredOwnedResourceList`. -/
def dnnFn.desiredOwnedResourceList (api : Api V Q) (workloadCluster : Option WorkloadClusterSpec)
    (o : KubeObject V) : Except String (List Claim) :=
  match workloadCluster with
  | none => .error "workload cluster is missing from the kpt package"
  | some wc =>
    match api.dataNetwork o with
    | .error err => .error err
    | .ok (spec, _) => .ok (spec.pools.map (poolClaim wc o spec))

end ClaimFns

end Nephio
