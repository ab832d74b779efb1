import Nephio.ClaimFns.Desired
import Nephio.Controllers.Approval
import Nephio.Kptfile.ResourceList

/-!
# The specializers

`controllers/pkg/specializer-reconciler` and the reconcilers `ipam-specializer` and `vlan-specializer`
have one `Reconcile`, `specialize` here: the files of a package revision are read, a KRM function runs
on their objects, and each of these is written to the file that it was read from. The reconciler
`generic-specializer` runs three functions and writes the objects of the kinds that they act on.
-/

namespace Nephio.Controllers.Specializer

/-- The objects of the API server. -/
structure Server (T : Type) where
  revisions : List Approval.PackageRevision
  resources : ObjectKey → Option (Files T)

/-- How the calls of one Reconcile end. -/
structure Call where
  req : ObjectKey
  get : Option ApiError := none
  getVariant : String → Except ApiError Approval.PackageVariant :=
    fun _ => .error { msg := "not found", isNotFound := true }
  getResources : Option ApiError := none
  update : Option ApiError := none

/-- What a Reconcile returns, and the files that `Update` is called with. -/
structure Outcome (T : Type) where
  result : Result := {}
  error : Option String := none
  updated : Option (Files T) := none

/-- A KRM function: the objects that it leaves, and its error. -/
abbrev Function (V : Type) := List (KubeObject V) → List (KubeObject V) × Option String

/-- `HasSpecificTypeConditions`. -/
def hasSpecificTypeConditions (conditions : List StatusCondition) (conditionType : String) : Bool :=
  conditions.any fun c => Go.hasPrefix c.type (conditionType ++ ".")

section Reconcile

variable {V T : Type}

/-- `GetAnnotation(kioutil.PathAnnotation)`. -/
def pathOf (o : KubeObject V) : String := o.getAnnotation pathAnnotationKey

def isKind (gvk : ObjectReference) (o : KubeObject V) : Bool :=
  o.apiVersion = gvk.apiVersion && o.kind = gvk.kind

def kptfileGVK : ObjectReference := { apiVersion := "kpt.dev/v1", kind := "Kptfile" }

/-- `GetRootKptfile` is not nil. -/
def hasRootKptfile (items : List (KubeObject V)) : Bool := items.any (isKind kptfileGVK)

variable (yaml : Yaml V T) (order : Go.MapOrder Unit String) (call : Call)

/-- The files of the package revision. -/
def getResources (server : Server T) : Except String (Files T) :=
  match call.getResources, server.resources call.req with
  | some err, _ => .error err.msg
  | none, none => .error "not found"
  | none, some resources => .ok resources

/-- The objects are written to their files. -/
def writeBack (items : List (KubeObject V)) (resources : Files T) : Files T :=
  items.foldl (fun resources o => resources.write (pathOf o) (yaml.print o)) resources

/-- `Reconcile`, which goes on after an error of the function. -/
def specialize (forRef : ObjectReference) (krmfn : Function V) (server : Server T) : Outcome T :=
  match call.get with
  | some err => { error := wrap (ignoreNotFound err) "cannot get resource" }
  | none =>
    match Keyed.lookup Approval.PackageRevision.key call.req server.revisions with
    | none => {}
    | some pr =>
      if hasSpecificTypeConditions pr.conditions (getConditionType forRef) then
        match getResources call server with
        | .error err => { error := some ("cannot get package revision resources: " ++ err) }
        | .ok resources =>
          match getResourceList yaml order resources with
          | .error err => { error := some ("cannot get resourceList: " ++ err) }
          | .ok items =>
            let items := (krmfn items).1
            let resources := writeBack yaml items resources
            if !hasRootKptfile items then {}
            else { error := call.update.map ApiError.msg, updated := some resources }
      else {}

/-! ## The generic specializer -/

/-- The kinds that the config injector acts on and creates. -/
def dependencyGVK : ObjectReference :=
  { apiVersion := "req.nephio.org/v1alpha1", kind := "Dependency" }

@[inherit_doc dependencyGVK]
def configGVK : ObjectReference := { apiVersion := "ref.nephio.org/v1alpha1", kind := "Config" }

/-- The functions of the generic specializer, and what is read of a Kptfile: its conditions, none
where it has no status, or an error where it does not convert. -/
structure Generic (V : Type) where
  ipamkrmfn : Function V
  vlankrmfn : Function V
  configInjectkrmfn : Function V
  conditions : KubeObject V → Except String (Option (List StatusCondition))

/-- The file of an object that the config injector owns. -/
def ownedFile (own : ObjectReference) (o : KubeObject V) : String :=
  if pathOf o = "" then
    let filename := Go.toLower own.kind ++ "_" ++ o.name ++ ".yaml"
    if o.ns ≠ "" then o.ns ++ "/" ++ filename ++ ".yaml" else filename
  else pathOf o

/-- The files that an object is written to, in turn. An object is of one of the kinds at most, so that
the `continue` after a failed conversion passes over no other write. -/
def targets (o : KubeObject V) : List String :=
  (if isKind ClaimFns.ipClaimGVK o then [pathOf o] else []) ++
    (if isKind ClaimFns.vlanClaimGVK o then [pathOf o] else []) ++
    (if isKind dependencyGVK o then [pathOf o] else []) ++
    (if isKind configGVK o then [ownedFile configGVK o] else []) ++
    (if isKind kptfileGVK o then [pathOf o] else [])

variable (generic : Generic V)

/-- The loop over the objects. It ends the Reconcile at a Kptfile whose conditions meet the readiness
gates, and panics at one without a status. -/
def genericWriteBack (gates : List String) :
    List (KubeObject V) → Files T → Except Go.Panic (Option (Files T))
  | [], resources => .ok (some resources)
  | o :: items, resources =>
    let resources :=
      (targets o).foldl (fun resources path => resources.write path (yaml.print o)) resources
    if isKind kptfileGVK o then
      match generic.conditions o with
      | .error _ => genericWriteBack gates items resources
      | .ok none => .error .nilPointer
      | .ok (some conditions) =>
        if Approval.packageRevisionIsReady gates conditions then .ok none
        else genericWriteBack gates items resources
    else genericWriteBack gates items resources

/-- One of the functions, where the package revision has a condition for it. -/
def process (pr : Approval.PackageRevision) (forRef : ObjectReference) (krmfn : Function V)
    (items : List (KubeObject V)) : Except String (List (KubeObject V)) :=
  if hasSpecificTypeConditions pr.conditions (getConditionType forRef) then
    match (krmfn items).2 with
    | some err => .error err
    | none => .ok (krmfn items).1
  else .ok items

/-- The three functions. -/
def processAll (pr : Approval.PackageRevision) (items : List (KubeObject V)) :
    Except String (List (KubeObject V)) := do
  let items ← process pr ClaimFns.ipClaimGVK generic.ipamkrmfn items
  let items ← process pr ClaimFns.vlanClaimGVK generic.vlankrmfn items
  process pr dependencyGVK generic.configInjectkrmfn items

/-- `Reconcile` of the generic specializer, for a package revision with a condition for one of the
functions. -/
def genericSpecializeFor (pr : Approval.PackageRevision) (server : Server T) :
    Except Go.Panic (Outcome T) :=
  match getResources call server with
  | .error err => .ok { error := some ("cannot get package revision resources: " ++ err) }
  | .ok resources =>
    match getResourceList yaml order resources with
    | .error err => .ok { error := some ("cannot get resourceList: " ++ err) }
    | .ok items =>
      match processAll generic pr items with
      | .error _ => .ok {}
      | .ok items =>
        if pr.lifecycle.isPublished then .ok {}
        else
          match genericWriteBack yaml generic pr.readinessGates items resources with
          | .error panic => .error panic
          | .ok none => .ok {}
          | .ok (some resources) =>
            if !hasRootKptfile items then .ok {}
            else .ok { error := call.update.map ApiError.msg, updated := some resources }

/-- `Reconcile` of the generic specializer. -/
def genericSpecialize (server : Server T) : Except Go.Panic (Outcome T) :=
  match call.get with
  | some err => .ok { error := wrap (ignoreNotFound err) "cannot get resource" }
  | none =>
    match Keyed.lookup Approval.PackageRevision.key call.req server.revisions with
    | none => .ok {}
    | some pr =>
      match Approval.packageVariantReady call.getVariant false pr.ownerReferences with
      | .error err => .ok { error := some err.msg }
      | .ok false => .ok { result := { requeueAfter := 10 * 10 ^ 9 } }
      | .ok true =>
        if [ClaimFns.ipClaimGVK, ClaimFns.vlanClaimGVK, dependencyGVK].any fun forRef =>
            hasSpecificTypeConditions pr.conditions (getConditionType forRef) then
          genericSpecializeFor yaml order call generic pr server
        else .ok {}

end Reconcile

end Nephio.Controllers.Specializer
