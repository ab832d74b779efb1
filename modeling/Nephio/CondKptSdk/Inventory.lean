import Nephio.Kptfile.Kptfile
import Nephio.Kptfile.KubeObject

/-!
# The inventory

`inventory.go` and `inventory_resources.go`: what a function is configured with, and the tree it
files the package in. The tree has a level of for-instances and global watches, and under each
for-instance its own children and specific watches.

Left out: the mutex (a Run is one goroutine) and the debug flag (it only logs).
-/

namespace Nephio.CondKptSdk

/-- `ResourceKind`: the kinds of children. Go's zero value, the empty text, is `Option.none`. -/
inductive ResourceKind where
  | childRemoteCondition
  | childRemote
  | childLocal
  | childInitial
deriving DecidableEq, Repr

/-- `gvkKind`. -/
inductive GvkKind where
  | forGVKKind
  | ownGVKKind
  | watchGVKKind
deriving DecidableEq, Repr

/-- The text of a `gvkKind`, as error messages print it. -/
def GvkKind.string : GvkKind → String
  | .forGVKKind => "for"
  | .ownGVKKind => "own"
  | .watchGVKKind => "watch"

/-- `sdkObjectReference`: the keys of the tree. -/
structure SdkObjectReference where
  gvkKind : GvkKind
  ref : ObjectReference
deriving DecidableEq, Repr

/-! ## Configuration

A callback is a Go closure with a state of its own. A Run hands it each reference at most once, so
its answers in one Run are a function of the reference and of the objects it is given. -/

/-- `WatchCallbackFn`. -/
abbrev WatchCallbackFn (V : Type) :=
  ObjectReference → Option (KubeObject V) → Except String Unit

/-- `PopulateOwnResourcesFn`. -/
abbrev PopulateOwnResourcesFn (V : Type) :=
  ObjectReference → KubeObject V → Except String (List (KubeObject V))

/-- `UpdateResourceFn`: it is given the for object, if there is one, and the own and watch objects. -/
abbrev UpdateResourceFn (V : Type) :=
  ObjectReference → Option (KubeObject V) → List (KubeObject V) →
    Except String (List (KubeObject V))

/-- `Config`. -/
structure Config (V : Type) where
  root : Bool := false
  forRef : ObjectReference
  owns : List (ObjectReference × ResourceKind) := []
  watch : List (ObjectReference × Option (WatchCallbackFn V)) := []
  populateOwnResourcesFn : Option (PopulateOwnResourcesFn V) := none
  updateResourceFn : Option (UpdateResourceFn V)

/-! ## The tree -/

/-- `gvkKindCtx`. -/
structure GvkKindCtx (V : Type) where
  gvkKind : GvkKind
  ownKind : Option ResourceKind := none
  callbackFn : Option (WatchCallbackFn V) := none

/-- `resourceCtx`. The embedded `gvkKindCtx` is `none` until an object is filed: a condition leaves
Go's zero value there. -/
structure ResourceCtx (V : Type) where
  kindCtx : Option (GvkKindCtx V) := none
  existingCondition : Option Condition := none
  existingResource : Option (KubeObject V) := none
  newResource : Option (KubeObject V) := none
  failed : Bool := false

/-- The own kind read from the embedded `gvkKindCtx`. -/
def ResourceCtx.ownKind {V : Type} (ctx : ResourceCtx V) : Option ResourceKind :=
  ctx.kindCtx.bind GvkKindCtx.ownKind

/-- The callback read from the embedded `gvkKindCtx`. -/
def ResourceCtx.callbackFn {V : Type} (ctx : ResourceCtx V) : Option (WatchCallbackFn V) :=
  ctx.kindCtx.bind GvkKindCtx.callbackFn

/-- What is filed: the two types `set` accepts. -/
inductive Filed (V : Type) where
  | condition (c : Condition)
  | object (o : KubeObject V)

/-- `resources`: a node of the tree with its map of children. -/
inductive Resources (V : Type) where
  | node (ctx : ResourceCtx V) (resources : List (SdkObjectReference × Resources V))

section Tree

variable {V : Type}

namespace Resources

def ctx : Resources V → ResourceCtx V
  | .node ctx _ => ctx

def resources : Resources V → List (SdkObjectReference × Resources V)
  | .node _ rs => rs

/-- What `init` makes of a missing node. -/
def empty : Resources V := .node {} []

/-- The child under a key. -/
def child (r : Resources V) (ref : SdkObjectReference) : Option (Resources V) :=
  (Keyed.lookup Prod.fst ref r.resources).map Prod.snd

end Resources

/-- The write at the end of a path. A condition leaves the kind as it is. -/
def ResourceCtx.write (ctx : ResourceCtx V) (kc : GvkKindCtx V) (x : Filed V)
    (newResource failed : Bool) : ResourceCtx V :=
  match x with
  | .condition c => { ctx with failed := failed, existingCondition := some c }
  | .object o =>
    if newResource then { ctx with failed := failed, kindCtx := some kc, newResource := some o }
    else { ctx with failed := failed, kindCtx := some kc, existingResource := some o }

/-- `resources.set`: missing nodes on the way are initialised. -/
def Resources.set (kc : GvkKindCtx V) (x : Filed V) (newResource failed : Bool) :
    List SdkObjectReference → Resources V → Resources V
  | [], .node ctx rs => .node (ctx.write kc x newResource failed) rs
  | ref :: refs, .node ctx rs =>
    let next := ((Resources.node ctx rs).child ref).getD .empty
    .node ctx (Keyed.upsert Prod.fst (ref, Resources.set kc x newResource failed refs next) rs)

/-- `resources.delete`: only the condition goes. -/
def Resources.delete : List SdkObjectReference → Resources V → Except String (Resources V)
  | [], .node ctx rs => .ok (.node { ctx with existingCondition := none } rs)
  | ref :: refs, .node ctx rs =>
    match (Resources.node ctx rs).child ref with
    | none => .error "not found"
    | some next => do
      let next ← Resources.delete refs next
      return .node ctx (Keyed.upsert Prod.fst (ref, next) rs)

/-- `resources.get`: the map it returns, as the list of its entries. The empty reference is the
wildcard. -/
def Resources.get : List SdkObjectReference → Resources V → List (ObjectReference × ResourceCtx V)
  | [], .node ctx rs =>
    if rs.isEmpty then [({}, ctx)] else rs.map fun e => (e.1.ref, e.2.ctx)
  | ref :: refs, .node ctx rs =>
    if ref.ref = {} then
      (rs.filter fun e => e.1.gvkKind = ref.gvkKind).map fun e => (e.1.ref, e.2.ctx)
    else
      match (Resources.node ctx rs).child ref with
      | none => []
      | some next => Resources.get refs next

/-- `getSdkRefs`: the path of one or two references. -/
def getSdkRefs (k : GvkKind) (refs : List ObjectReference) :
    Except String (List SdkObjectReference) :=
  match refs with
  | [] => .error "cannot walk resource tree with empty ref"
  | [a] =>
    if k = .ownGVKKind then .error "refs with len 1 only allowed for for/watch"
    else .ok [⟨k, a⟩]
  | [a, b] =>
    if k = .forGVKKind then .error "refs with len 2 only allowed for own/watch"
    else .ok [⟨.forGVKKind, a⟩, ⟨k, b⟩]
  | _ => .error ("refs with len > 2, got " ++ toString refs.length)

/-- `inv`. -/
structure Inv (V : Type) where
  gvkResources : List (ObjectReference × GvkKindCtx V)
  resources : Resources V := .empty
  ready : Bool := true

namespace Inv

def set (r : Inv V) (kc : GvkKindCtx V) (refs : List ObjectReference) (x : Filed V)
    (newResource failed : Bool) : Except String (Inv V) := do
  let sdkRefs ← getSdkRefs kc.gvkKind refs
  return { r with resources := r.resources.set kc x newResource failed sdkRefs }

def delete (r : Inv V) (kc : GvkKindCtx V) (refs : List ObjectReference) :
    Except String (Inv V) := do
  let sdkRefs ← getSdkRefs kc.gvkKind refs
  return { r with resources := ← r.resources.delete sdkRefs }

/-- `inv.get`: no entries where the path is refused. -/
def get (r : Inv V) (k : GvkKind) (refs : List ObjectReference) :
    List (ObjectReference × ResourceCtx V) :=
  match getSdkRefs k refs with
  | .error _ => []
  | .ok sdkRefs => r.resources.get sdkRefs

/-- `isGVKMatch`: the context of the exact GVK, else the wildcard's. -/
def isGVKMatch (r : Inv V) (ref : ObjectReference) : Option (GvkKindCtx V) :=
  match Keyed.lookup Prod.fst ref.gvk r.gvkResources with
  | some e => some e.2
  | none =>
    (Keyed.lookup Prod.fst { apiVersion := "*", kind := "*" } r.gvkResources).map Prod.snd

/-- `addGVKObjectReference`: a GVK has one role. -/
def addGVKObjectReference (r : Inv V) (kc : GvkKindCtx V) (ref : ObjectReference) :
    Except String (Inv V) :=
  match Keyed.lookup Prod.fst ref.gvk r.gvkResources with
  | some e =>
    .error ("another resource with a different kind " ++ e.2.gvkKind.string ++ " already exists")
  | none => .ok { r with gvkResources := r.gvkResources ++ [(ref.gvk, kc)] }

/-- `initializeGVKInventory`. -/
def initializeGVKInventory (r : Inv V) (cfg : Config V) : Except String (Inv V) := do
  validateGVKRef cfg.forRef
  if isWildCardRef cfg.forRef then
    throw "no wildcard refs allowed in for reference"
  let r ← r.addGVKObjectReference { gvkKind := .forGVKKind } cfg.forRef
  let r ← cfg.owns.foldlM (fun r e => do
    validateGVKRef e.1
    if isWildCardRef e.1 ∧ e.2 ≠ .childInitial then
      throw "only childLocal wildcard refs allowed in own reference"
    r.addGVKObjectReference { gvkKind := .ownGVKKind, ownKind := some e.2 } e.1) r
  let r ← cfg.watch.foldlM (fun r e => do
    validateGVKRef e.1
    if isWildCardRef e.1 then
      throw "no wildcard refs allowed in watch resource reference"
    r.addGVKObjectReference { gvkKind := .watchGVKKind, callbackFn := e.2 } e.1) r
  if cfg.updateResourceFn.isNone then
    throw "a function always needs a GenerateResource function"
  return r

end Inv

/-- `newInventory`: nothing filed yet, and ready. -/
def newInventory (cfg : Config V) : Except String (Inv V) :=
  Inv.initializeGVKInventory { gvkResources := [] } cfg

end Tree

end Nephio.CondKptSdk
