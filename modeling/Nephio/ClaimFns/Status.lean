import Nephio.ClaimFns.Desired
import Nephio.Go.Strings

/-!
# The status of a DataNetwork

`updateDnnResource` of dnn-fn: the pools that the IPClaims of a DataNetwork were given. A claim is
known for a pool by its name, which starts like every name that `dnnFn.desiredOwnedResourceList` makes
up for the DataNetwork.
-/

namespace Nephio

/-- `strings.CutPrefix`: what follows the given start, if the text has it. -/
def Go.cutPrefix (s start : String) : Option String :=
  if Go.hasPrefix s start then some (String.ofList (s.toList.drop start.toList.length)) else none

/-- `specializer.nephio.org/namespace`. -/
def specializerNamespace : String := "specializer.nephio.org/namespace"

namespace ClaimFns

open Req

/-- `ipamv1alpha1.PrefixKindPool`. -/
def prefixKindPool : String := "pool"

/-- What dnn-fn and nad-fn read of an `ipamv1alpha1.IPClaim`. -/
structure IPClaim where
  name : String
  kind : String
  networkInstance : ObjectReference
  status : IPClaimStatus := {}
deriving DecidableEq, Repr

/-- How an IPClaim is decoded, and `SetStatus` of a DataNetwork. -/
structure StatusApi (V Q : Type) extends Api V Q where
  ipClaim : KubeObject V → Except String IPClaim
  setStatus : KubeObject V → DataNetworkStatus → Except String (KubeObject V)

variable {V Q : Type}

/-- The object has the group, version and kind. -/
def isGVK (gvk : ObjectReference) (o : KubeObject V) : Bool :=
  o.apiVersion = gvk.apiVersion ∧ o.kind = gvk.kind

/-- `ko.FilterByType`: the objects of the kind, decoded, and the rest. -/
def filterByType {α : Type} (gvk : ObjectReference) (as : KubeObject V → Except String α)
    (objs : List (KubeObject V)) : Except String (List α × List (KubeObject V)) :=
  objs.foldlM (fun (result, rest) o =>
    if isGVK gvk o then do
      let x ← as o
      return (result ++ [x], rest)
    else return (result, rest ++ [o])) ([], [])

/-- How the name of a claim for a pool of the DataNetwork starts. -/
def poolNameStart (dnn : KubeObject V) : String :=
  getForName dnn.annotations ++ "-" ++ dnn.name ++ "-"

/-- A turn of the loop over the claims: the warnings, and the status. -/
def addPool (dnn : KubeObject V) (acc : List String × DataNetworkStatus) (ipclaim : IPClaim) :
    List String × DataNetworkStatus :=
  if ipclaim.kind = prefixKindPool then
    match Go.cutPrefix ipclaim.name (poolNameStart dnn) with
    | some poolName =>
      -- an append to nil makes a slice
      (acc.1, { acc.2 with
        pools := some (acc.2.pools.getD [] ++ [{ name := poolName, ipClaim := ipclaim.status }]) })
    | none =>
      (acc.1 ++ ["found an IPClaim owned by DNN " ++ dnn.name.quote ++ " with a suspicious name: " ++
        ipclaim.name], acc.2)
  else acc

/-- `dnnFn.updateDnnResource`, with the warnings that it reports. -/
def dnnFn.updateDnnResource (api : StatusApi V Q) (dnnObj : Option (KubeObject V))
    (owned : List (KubeObject V)) : List String × Except String (List (KubeObject V)) :=
  match dnnObj with
  | none => ([], .error "cannot initialize with a nil object")
  | some dnn =>
    match api.dataNetwork dnn with
    | .error err => ([], .error err)
    | .ok (_, status) =>
      match filterByType ipClaimGVK api.ipClaim owned with
      | .error err => ([], .error err)
      | .ok (ipclaims, _) =>
        let (warnings, status) := ipclaims.foldl (addPool dnn) ([], { status with pools := none })
        (warnings, do
          let dnn ← api.setStatus dnn status
          return [dnn])

end ClaimFns

end Nephio
