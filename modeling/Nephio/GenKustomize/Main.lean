import Nephio.Kptfile.ConditionType
import Nephio.Kptfile.ResourceList

/-!
# gen-kustomize-res

`main.go` of gen-kustomize-res: the paths of the objects that are not local are entered in the
`resources` of the first Kustomization of the package. Without one a new Kustomization is added. The
existing object is changed in place there; here it is returned, and the upsert puts it where it was.
-/

namespace Nephio.GenKustomize

def kustomizeGroup : String := "kustomize.config.k8s.io"

def kustomizeKind : String := "Kustomization"

def kustomizeName : String := "kustomization"

/-- `config.kubernetes.io/local-config`. -/
def localConfigKey : String := "config.kubernetes.io/local-config"

/-- A field that is read and written as a list of texts, which is third-party. `emptySlice` is the
field of the template of a new Kustomization. -/
structure SliceApi (V : Type) where
  read : V → Except String (List String)
  write : List String → Except String V
  emptySlice : V
  read_write : ∀ l v, write l = .ok v → read v = .ok l

/-- What is read and written of a `ResourceList`. -/
structure ResourceList (V : Type) where
  items : List (KubeObject V)
  results : List String := []

section Run

variable {V : Type}

/-- `LogResult`. -/
def ResourceList.logResult (rl : ResourceList V) (err : String) : ResourceList V :=
  { rl with results := rl.results ++ [err] }

/-- `IsGroupKind`. -/
def isGroupKind (group kind : String) (o : KubeObject V) : Bool :=
  ((parseGroupVersion o.apiVersion).toOption.map GroupVersion.group).getD "" = group ∧ o.kind = kind

def isKustomization (o : KubeObject V) : Bool := isGroupKind kustomizeGroup kustomizeKind o

/-- `IsLocalConfig`. -/
def isLocalConfig (o : KubeObject V) : Bool :=
  o.getAnnotation localConfigKey ≠ "" ∧ o.getAnnotation localConfigKey ≠ "false"

/-- `PathAnnotation`. -/
def pathOf (o : KubeObject V) : String := o.getAnnotation pathAnnotationKey

/-- `getExistingKustomization`. -/
def getExistingKustomization (items : List (KubeObject V)) : Option (KubeObject V) :=
  items.find? isKustomization

/-- `getNonLocalConfig`. -/
def getNonLocalConfig (items : List (KubeObject V)) : List String :=
  items.foldl (fun resources item =>
    if !isLocalConfig item && !isKustomization item then resources ++ [pathOf item]
    else resources) []

/-- A turn of the inner loop of `mergeAndRemoveDuplicates`: the map of what was seen, and the
result. -/
def addUnique (acc : List (String × Bool) × List String) (item : String) :
    List (String × Bool) × List String :=
  if !((Keyed.lookup Prod.fst item acc.1).map Prod.snd).getD false then
    (Keyed.upsert Prod.fst (item, true) acc.1, acc.2 ++ [item])
  else acc

/-- `mergeAndRemoveDuplicates`. -/
def mergeAndRemoveDuplicates (slices : List (List String)) : List String :=
  (slices.foldl (fun acc slice => slice.foldl addUnique acc) ([], [])).2

variable (api : SliceApi V)

/-- `NestedStringSlice` of `resources`, without its error: then the list is nil. -/
def nestedStringSlice (o : KubeObject V) : List String :=
  match Keyed.lookup Prod.fst "resources" o.rest with
  | none => []
  | some (_, v) =>
    match api.read v with
    | .ok l => l
    | .error _ => []

/-- `SetNestedStringSlice` of `resources`. -/
def setNestedStringSlice (l : List String) (o : KubeObject V) : Except String (KubeObject V) := do
  let v ← api.write l
  return { o with rest := Keyed.upsert Prod.fst ("resources", v) o.rest }

/-- `getNewKustObject`. -/
def getNewKustObject : KubeObject V :=
  { apiVersion := "kustomize.config.k8s.io/v1beta1", kind := "Kustomization"
    name := "upsert-kustomize-res", rest := [("resources", api.emptySlice)] }

/-- The Kustomization that is written, and its new resources list. -/
def target (items : List (KubeObject V)) : KubeObject V × List String :=
  match getExistingKustomization items with
  | some existingKustObj =>
    let existingKustResources := nestedStringSlice api existingKustObj
    if existingKustResources.length ≠ 0 then
      (existingKustObj, mergeAndRemoveDuplicates [existingKustResources, getNonLocalConfig items])
    else (existingKustObj, getNonLocalConfig items)
  | none =>
    let newKustObj := getNewKustObject api
    (newKustObj.setAnnotation pathAnnotationKey (kustomizeName ++ ".yaml"),
      getNonLocalConfig items)

/-- `Run`: the success flag, and the resource list. -/
def run (rl : ResourceList V) : Bool × ResourceList V :=
  let (targetKustObj, targetKustResList) := target api rl.items
  match setNestedStringSlice api targetKustResList targetKustObj with
  | .error err => (false, rl.logResult err)
  | .ok kust => (true, { rl with items := upsertObjectToItems kust rl.items })

end Run

end Nephio.GenKustomize
