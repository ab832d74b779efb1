import Nephio.ClaimFns.Status
import Nephio.Controllers.Approval
import Nephio.Kptfile.Kptfile
import Nephio.Kptfile.ResourceList

/-!
# configinject-fn

`desiredOwnedResourceList` of configinject-fn: a Dependency on a package is resolved to the latest
published revision of that package in each deployment repository. The objects of these revisions that
the Dependency asks for are wrapped, one Config each. What is read of the API server is reported too:
the keys of the revisions whose resources were asked for, in order.
-/

namespace Nephio.ConfigInject

open Controllers ClaimFns

/-- What is read of a `PackageRevision`. -/
structure PackageRevision where
  key : ObjectKey
  repositoryName : String
  packageName : String
  revision : Int
  lifecycle : Approval.Lifecycle
deriving DecidableEq, Repr

/-- What is read of a `Repository`. -/
structure Repository where
  name : String
  deployment : Bool
deriving DecidableEq, Repr

/-- The spec of a `Dependency`. -/
structure DependencySpec where
  packageName : String
  injectors : List ObjectReference := []
deriving DecidableEq, Repr

/-- What the function calls: the decoder, the API server, `kptrl` and the constructor of a Config. -/
structure Env (V T : Type) where
  dependency : KubeObject V → Except String DependencySpec
  /-- The resources of a revision. -/
  get : ObjectKey → Except String (Files T)
  yaml : Yaml V T
  order : Go.MapOrder Unit String
  /-- `GetRootKptfile`. -/
  rootKptfile : List (KubeObject V) → Option KptFile
  /-- A Config with a name and a namespace, around an object. -/
  newConfig : String → String → KubeObject V → Except String (KubeObject V)

/-- `schema.GroupVersionKind`. -/
structure GroupVersionKind extends GroupVersion where
  kind : String
deriving DecidableEq

/-- `schema.FromAPIVersionAndKind`: what cannot be split has no group and no version. -/
def fromAPIVersionAndKind (apiVersion kind : String) : GroupVersionKind :=
  match parseGroupVersion apiVersion with
  | .ok gv => { gv with kind := kind }
  | .error _ => { group := "", version := "", kind := kind }

/-- `GroupVersionKind.String`. -/
def GroupVersionKind.string (gvk : GroupVersionKind) : String :=
  gvk.group ++ "/" ++ gvk.version ++ ", Kind=" ++ gvk.kind

/-! ## The revisions -/

/-- The repositories by their name. A later one takes the place of an earlier one. -/
def repoMap (repos : List Repository) : List (String × Repository) :=
  repos.foldl (fun m repo => Keyed.upsert Prod.fst (repo.name, repo) m) []

/-- `prName`. -/
def PackageRevision.prName (pr : PackageRevision) : String :=
  pr.repositoryName ++ "-" ++ pr.packageName

/-- A turn of the loop over the package revisions. -/
def addRevision (repomap : List (String × Repository)) (depPackageName : String)
    (prmap : List (String × PackageRevision)) (pr : PackageRevision) :
    Except String (List (String × PackageRevision)) :=
  match Keyed.lookup Prod.fst pr.repositoryName repomap with
  | none => .error ("configinject repo name not found: " ++ pr.repositoryName)
  | some (_, repo) =>
    if pr.packageName = depPackageName ∧ repo.deployment then
      if pr.lifecycle.isPublished then
        if pr.revision > 0 then
          match Keyed.lookup Prod.fst pr.prName prmap with
          | some (_, latestPR) =>
            if pr.revision > latestPR.revision then
              .ok (Keyed.upsert Prod.fst (pr.prName, pr) prmap)
            else .ok prmap
          | none => .ok (Keyed.upsert Prod.fst (pr.prName, pr) prmap)
        else .ok prmap
      else .ok prmap
    else .ok prmap

/-! ## The resources of a revision -/

section Resources

variable {V T : Type} (env : Env V T) (dep : DependencySpec) (forObj : KubeObject V)

/-- `GetConfigKubeObject`. -/
def getConfigKubeObject (o : KubeObject V) : Except String (KubeObject V) :=
  env.newConfig (getForName forObj.annotations ++ "-" ++ o.name)
    (forObj.getAnnotation specializerNamespace) o

/-- `pr.Spec.PackageName` and `pr.Spec.RepositoryName`, as the errors name them. -/
def PackageRevision.place (pr : PackageRevision) : String :=
  "the package " ++ pr.packageName ++ " in repo " ++ pr.repositoryName

/-- A turn of the loop over the objects of a kind. -/
def injectObject (pr : PackageRevision) (kf : KptFile) (resources : List (KubeObject V))
    (o : KubeObject V) : Except String (List (KubeObject V)) :=
  let ct := getConditionType o.ref
  match kf.getCondition ct with
  | none =>
    .error ("dependency not ready: " ++ pr.place ++ " does not contain a condition for " ++ ct)
  | some c =>
    if c.status ≠ .conditionTrue then
      .error ("dependency not ready: " ++ pr.place ++ " has a condition which is False for: " ++ c.type)
    else do
      let newObj ← getConfigKubeObject env forObj o
      return resources ++ [newObj]

/-- A turn of the loop over the injectors. -/
def injectKind (pr : PackageRevision) (kf : KptFile) (items : List (KubeObject V))
    (resources : List (KubeObject V)) (ref : ObjectReference) :
    Except String (List (KubeObject V)) :=
  let gvk := fromAPIVersionAndKind ref.apiVersion ref.kind
  let depObjs := items.filter fun o => fromAPIVersionAndKind o.apiVersion o.kind = gvk
  if depObjs.isEmpty then
    .error ("dependency not ready: " ++ pr.place ++ " does not contain a resource with " ++
      gvk.string)
  else depObjs.foldlM (injectObject env forObj pr kf) resources

/-- A turn of the loop over the latest revisions. -/
def injectRevision (pr : PackageRevision) (resources : List (KubeObject V)) :
    Except String (List (KubeObject V)) := do
  let prr ← env.get pr.key
  let items ← getResourceList env.yaml env.order prr
  match env.rootKptfile items with
  | none =>
    .error ("mandatory Kptfile is missing from the package " ++ pr.packageName ++ ", repo " ++
      pr.repositoryName)
  | some kf => dep.injectors.foldlM (injectKind env forObj pr kf items) resources

/-- The loop over the latest revisions: the keys that are asked for, and what comes of it. -/
def injectAll : List PackageRevision → List (KubeObject V) →
    List ObjectKey × Except String (List (KubeObject V))
  | [], resources => ([], .ok resources)
  | pr :: prs, resources =>
    match injectRevision env dep forObj pr resources with
    | .error err => ([pr.key], .error err)
    | .ok resources =>
      let (keys, out) := injectAll prs resources
      (pr.key :: keys, out)

end Resources

/-- `FnR.desiredOwnedResourceList`. `prl` and `repos` are the answers of the two lists, and `ord` is
the order of the range over the map of the latest revisions. The map holds no nil, so that the first
of the two loops over it has nothing to report. -/
def desiredOwnedResourceList {V T : Type} (env : Env V T) (ord : Go.MapOrder Unit String)
    (workloadCluster : Option WorkloadClusterSpec) (prl : Except String (List PackageRevision))
    (repos : Except String (List Repository)) (forObj : KubeObject V) :
    List ObjectKey × Except String (List (KubeObject V)) :=
  match workloadCluster with
  | none => ([], .error "workload cluster is missing from the kpt package")
  | some _ =>
    match env.dependency forObj with
    | .error err => ([], .error err)
    | .ok dep =>
      match prl with
      | .error err => ([], .error err)
      | .ok prl =>
        match repos with
        | .error err => ([], .error err)
        | .ok repos =>
          match prl.foldlM (addRevision (repoMap repos) dep.packageName) [] with
          | .error err => ([], .error err)
          | .ok prmap =>
            let (keys, out) := injectAll env dep forObj ((ord.range () prmap).map Prod.snd) []
            (keys, do
              let resources ← out
              if prmap.isEmpty then
                .error ("dependency not ready: expecting at least 1 package " ++ dep.packageName ++
                  " with the corresponding reference")
              else return resources)

end Nephio.ConfigInject
