import Nephio.Controllers.Approval
import Nephio.Go.Strings
import Nephio.Kptfile.ConditionType

/-!
# The bootstrap controllers

`controllers/pkg/reconcilers/bootstrap-secret` installs a Secret on the clusters that its annotation
lists, `controllers/pkg/reconcilers/bootstrap-packages` the resources of a package on theirs. Both
look for the kubeconfig of a cluster among the Secrets, with the clients of `controllers/pkg/cluster`.
The Secrets do not change during a Reconcile. kyaml's reader and client-go's kubeconfig are
third-party.
-/

namespace Nephio.Controllers.Bootstrap

def clusterNameKey : String := "nephio.org/cluster-name"

def nephioAppKey : String := "nephio.org/app"

def remoteNamespaceKey : String := "nephio.org/remote-namespace"

def syncApp : String := "tobeinstalledonremotecluster"

def bootstrapApp : String := "bootstrap"

def kubeConfigSuffix : String := "-kubeconfig"

abbrev Annotations := List (String × String)

def Annotations.get? (annotations : Annotations) (name : String) : Option String :=
  (Keyed.lookup Prod.fst name annotations).map Prod.snd

/-- `annotations[name]`. -/
def Annotations.get (annotations : Annotations) (name : String) : String :=
  (annotations.get? name).getD ""

def Annotations.set (annotations : Annotations) (name value : String) : Annotations :=
  Keyed.upsert Prod.fst (name, value) annotations

/-- `corev1.Secret`; `value` is the entry of its data of this name. -/
structure Secret where
  key : ObjectKey
  type : String := ""
  annotations : Annotations := []
  value : String := ""
  resourceVersion : String := ""
  uid : String := ""
  deleting : Bool := false
deriving DecidableEq, Repr

/-! ## The clients of the clusters -/

/-- `capi.Capi`, whose Secret is never nil here. -/
structure Capi where
  secret : Secret
deriving DecidableEq, Repr

/-- `Cluster.GetClusterClient`. -/
def getClusterClient (secret : Secret) : Option Capi :=
  if secret.type = "cluster.x-k8s.io/secret" ∧ Go.contains secret.key.name "kubeconfig" then
    some { secret := secret }
  else none

namespace Capi

/-- `GetClusterName`. -/
def getClusterName (client : Capi) : String := Go.trimSuffix client.secret.key.name kubeConfigSuffix

end Capi

/-- The loop of both reconcilers over the Secrets: the first whose name contains that of the cluster
and that gives a client. -/
def findClusterClient (clusterName : String) : List Secret → Option Capi
  | [] => none
  | secret :: secrets =>
    if Go.contains secret.key.name clusterName then
      match getClusterClient secret with
      | some client => some client
      | none => findClusterClient clusterName secrets
    else findClusterClient clusterName secrets

/-- What the clients meet: the `Cluster` objects with their conditions, the API server that a
kubeconfig leads to, and the namespaces there. -/
structure Env where
  cluster : ObjectKey → Option (List StatusCondition)
  restConfig : String → Except String String
  hasNamespace : String → String → Bool

/-- How the calls for one cluster end. -/
structure Attempt where
  list : Option ApiError := none
  getCluster : Option ApiError := none
  newClient : Option ApiError := none
  getNamespace : Option ApiError := none
  apply : Option ApiError := none

/-- `isReady`. -/
def isReady (cs : List StatusCondition) : Bool := cs.any fun c => c.type = "Ready" && c.status = "True"

/-- `isCapiClusterReady`. -/
def Capi.isCapiClusterReady (client : Capi) (env : Env) (attempt : Attempt) : Bool :=
  match attempt.getCluster, env.cluster ⟨client.secret.key.namespace, client.getClusterName⟩ with
  | none, some cs => isReady cs
  | _, _ => false

/-- `getCapiClusterClient`. -/
def getCapiClusterClient (env : Env) (attempt : Attempt) (secret : Secret) : Except String String :=
  match env.restConfig secret.value with
  | .error err => .error err
  | .ok server =>
    match attempt.newClient with
    | some err => .error err.msg
    | none => .ok server

/-- `Capi.GetClusterClient`: the API server of the cluster, if it is ready. -/
def Capi.getClusterClient (client : Capi) (env : Env) (attempt : Attempt) :
    Except String (Option String) :=
  if client.isCapiClusterReady env attempt then
    (getCapiClusterClient env attempt client.secret).map some
  else .ok none

/-- An object that `Apply` is called with, and the client that it is called on. -/
structure Application (α : Type) where
  client : Capi
  object : α
deriving DecidableEq, Repr

/-- What a Reconcile returns, and its calls of `Apply`, those that fail included. -/
structure Outcome (α : Type) where
  result : Result := {}
  error : Option String := none
  applied : List (Application α) := []
deriving DecidableEq, Repr

/-- A Reconcile that the manager does not run again by itself. -/
def Outcome.Finished {α : Type} (out : Outcome α) : Prop := out.result = {} ∧ out.error = none

def seconds (n : Int) : Int := n * 10 ^ 9

/-! ## The bootstrap-secret reconciler -/

section Secrets

variable (env : Env)

/-- The copy of a Secret that is installed on a cluster. -/
def remoteSecret (cr : Secret) (clusterName : String) : Secret :=
  { cr with
    key := ⟨(cr.annotations.get? remoteNamespaceKey).getD cr.key.namespace, cr.key.name⟩
    annotations := (cr.annotations.set nephioAppKey bootstrapApp).set clusterNameKey clusterName
    resourceVersion := ""
    uid := "" }

/-- One listed cluster: the call of `Apply`, or what the Reconcile returns instead of going on. -/
def install (attempt : Attempt) (secrets : List Secret) (cr : Secret) (clusterName : String) :
    Except (Outcome Secret) (Application Secret) :=
  match attempt.list with
  | some err => .error { error := wrap (some err) "cannot list secrets" }
  | none =>
    match findClusterClient clusterName secrets with
    | none => .error { result := { requeueAfter := seconds 10 } }
    | some client =>
      match client.getClusterClient env attempt with
      | .error err =>
        .error { result := { requeueAfter := seconds 30 }, error := some ("cannot get clusterClient: " ++ err) }
      | .ok none => .error { result := { requeueAfter := seconds 10 } }
      | .ok (some server) =>
        let newcr := remoteSecret cr clusterName
        let missing := { result := { requeueAfter := seconds 10 } }
        match attempt.getNamespace with
        | some err =>
          .error <|
            if err.isNotFound then missing
            else
              { result := { requeueAfter := seconds 30 }
                error := wrap (some err) ("cannot get namespace: " ++ newcr.key.namespace) }
        | none =>
          if !env.hasNamespace server newcr.key.namespace then .error missing
          else
            match attempt.apply with
            | some err =>
              .error
                { error := wrap (some err) ("cannot apply secret to cluster " ++ clusterName)
                  applied := [{ client := client, object := newcr }] }
            | none => .ok { client := client, object := newcr }

/-- The loop over the listed clusters. -/
def installAll (attempts : Nat → Attempt) (secrets : List Secret) (cr : Secret) :
    List String → Outcome Secret
  | [] => {}
  | clusterName :: clusterNames =>
    match install env (attempts 0) secrets cr clusterName with
    | .error out => out
    | .ok application =>
      let rest := installAll (fun i => attempts (i + 1)) secrets cr clusterNames
      { rest with applied := application :: rest.applied }

/-- Whether a Secret is to be installed on other clusters. -/
def isRemote (cr : Secret) : Bool :=
  cr.annotations.get nephioAppKey = syncApp && cr.annotations.get clusterNameKey ≠ "" &&
    cr.annotations.get clusterNameKey ≠ "mgmt"

def clusterNames (cr : Secret) : List String := split (cr.annotations.get clusterNameKey) ','

/-- One Reconcile of a Secret, with the calls for each of its clusters in turn. -/
structure SecretCall where
  req : ObjectKey
  get : Option ApiError := none
  attempts : Nat → Attempt := fun _ => {}

/-- `Reconcile` of the bootstrap-secret reconciler. -/
def reconcileSecret (call : SecretCall) (secrets : List Secret) : Outcome Secret :=
  match call.get with
  | some err => { error := wrap (ignoreNotFound err) "cannot get resource" }
  | none =>
    match Keyed.lookup Secret.key call.req secrets with
    | none => {}
    | some cr =>
      if cr.deleting then {}
      else if isRemote cr then installAll env call.attempts secrets cr (clusterNames cr)
      else {}

end Secrets

/-! ## The bootstrap-packages reconciler -/

/-- An object of a package. -/
structure Manifest where
  apiVersion : String
  kind : String
  name : String
  annotations : Annotations := []
deriving DecidableEq, Repr

/-- A document that kyaml has read, and the object in it unless it cannot be unmarshalled. -/
structure Node where
  annotations : Annotations
  object : Option Manifest
deriving DecidableEq, Repr

/-- A repository of packages. -/
structure Repository where
  name : String
  annotations : Annotations := []
deriving DecidableEq, Repr

/-- One Reconcile of a PackageRevision. `listSecrets` is the call of `List` in `GetClusterClient`,
`cluster` has the other calls for the cluster, `apply` the answer for each resource. -/
structure PackageCall where
  req : ObjectKey
  get : Option ApiError := none
  listRepositories : Option ApiError := none
  getResources : Option ApiError := none
  listSecrets : Option ApiError := none
  cluster : Attempt := {}
  apply : Nat → Option ApiError := fun _ => none

/-- The objects that are read, with the files of the package revisions in the order of the range over
their map. -/
structure Packages where
  revisions : List Approval.PackageRevision
  repositories : List Repository
  resources : ObjectKey → Option (List (String × String))
  secrets : List Secret

section Packages

variable (env : Env) (read : String → Except String (List Node))

/-- `IsStagingPackageRevision`. -/
def isStagingPackageRevision (repositories : List Repository) (repositoryName : String) : Bool :=
  let stagingRepoNames := (repositories.filter fun repo =>
    (repo.annotations.get? "nephio.org/staging").isSome).map Repository.name
  stagingRepoNames.any fun stagingRepoName => repositoryName = stagingRepoName

/-- `filterNonLocalResources`. -/
def filterNonLocalResources (resources : List (String × String)) : Except String (List Manifest) := do
  let inputs := resources.filter fun file => Go.includeFile file.1 ["*.yaml", "*.yml", "Kptfile"]
  let nodes ← inputs.mapM fun file => read file.2
  return (nodes.flatten.filter fun node =>
    node.annotations.get? "config.kubernetes.io/local-config" ≠ some "true").filterMap Node.object

/-- `getPrResources`. -/
def getPrResources (call : PackageCall) (w : Packages) : Except String (List Manifest) :=
  match call.getResources, w.resources call.req with
  | some err, _ => .error err.msg
  | none, none => .error "not found"
  | none, some resources => filterNonLocalResources read resources

/-- `GetClusterClient` of the reconciler. -/
def getClusterClientFor (list : Option ApiError) (secrets : List Secret) (clusterName : String) :
    Except ApiError (Option Capi) :=
  match list with
  | some err => .error err
  | none => .ok (findClusterClient clusterName secrets)

/-- The loop that installs the resources. -/
def applyAll (apply : Nat → Option ApiError) (client : Capi) : List Manifest → Outcome Manifest
  | [] => {}
  | resource :: resources =>
    let application := { client := client, object := resource }
    match apply 0 with
    | some err =>
      { error := wrap (some err)
          ("cannot apply resource to cluster: resourceName: " ++ resource.name)
        applied := [application] }
    | none =>
      let rest := applyAll (fun i => apply (i + 1)) client resources
      { rest with applied := application :: rest.applied }

/-- `Reconcile` from the resources of the package on. -/
def installPackage (call : PackageCall) (secrets : List Secret) (resources : List Manifest) :
    Outcome Manifest :=
  match resources with
  | [] => {}
  | first :: _ =>
    match first.annotations.get? clusterNameKey with
    | none => {}
    | some clusterName =>
      match getClusterClientFor call.listSecrets secrets clusterName with
      | .error err =>
        { error := wrap (some err) ("failed to get cluster Secret for: " ++ clusterName) }
      | .ok none => { result := { requeueAfter := seconds 10 } }
      | .ok (some client) =>
        match client.getClusterClient env call.cluster with
        | .error err =>
          { result := { requeueAfter := seconds 30 }
            error := some ("cannot get clusterClient: " ++ err) }
        | .ok none => { result := { requeueAfter := seconds 10 } }
        | .ok (some _) => applyAll call.apply client resources

/-- `Reconcile` of the bootstrap-packages reconciler. -/
def reconcilePackage (call : PackageCall) (w : Packages) : Outcome Manifest :=
  match call.get with
  | some err => { error := wrap (ignoreNotFound err) "cannot get resource" }
  | none =>
    match Keyed.lookup Approval.PackageRevision.key call.req w.revisions with
    | none => {}
    | some cr =>
      match call.listRepositories with
      | some err => { error := wrap (some err) "cannot list repositories" }
      | none =>
        if isStagingPackageRevision w.repositories cr.repositoryName && cr.lifecycle.isPublished then
          match getPrResources read call w with
          | .error err => { error := some ("cannot get resources: " ++ err) }
          | .ok resources => installPackage env call w.secrets resources
        else {}

end Packages

end Nephio.Controllers.Bootstrap
