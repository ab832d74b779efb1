import Nephio.Controllers.Client

/-!
# Resources of the git server

The token and the repository reconciler have one `Reconcile`: a finalizer guards a custom resource,
whose object on the git server is ensured, or deleted when the resource has a deletion timestamp.
`reconcile` is this, with what the two do at the git server as parameters. The finalizer is that of
`resource.APIFinalizer`.
-/

namespace Nephio.Controllers.GitResource

/-- `DeletionPolicy`. -/
inductive DeletionPolicy where
  | delete
  | orphan
deriving DecidableEq, Repr

/-- The Ready condition: `Ready()` or `Failed(msg)`. -/
inductive ReadyCondition where
  | ready
  | failed (msg : String)
deriving DecidableEq, Repr

def finalizer : String := "infra.nephio.org/finalizer"

/-- The custom resource, with a spec `S`. Finalizers are a set. -/
structure Resource (S : Type) where
  key : ObjectKey
  spec : S
  deletionPolicy : DeletionPolicy := .delete
  finalizers : List String := []
  deleting : Bool := false
  condition : Option ReadyCondition := none
  url : Option String := none
  nodup : finalizers.Nodup := by decide
deriving DecidableEq, Repr

section Resource

variable {S : Type}

/-- `SetConditions`. -/
def Resource.setCondition (cr : Resource S) (condition : ReadyCondition) : Resource S :=
  { cr with condition := some condition }

/-- `FinalizerExists`. -/
def finalizerExists (cr : Resource S) : Bool := cr.finalizers.contains finalizer

/-- `AddFinalizer` of the metadata. -/
def Resource.addFinalizer (cr : Resource S) (h : finalizerExists cr = false) : Resource S :=
  { cr with
    finalizers := cr.finalizers ++ [finalizer]
    nodup := by
      have hnot : finalizer ∉ cr.finalizers := by
        simpa only [finalizerExists, List.contains_eq_mem, decide_eq_false_iff_not] using h
      refine List.nodup_append.mpr ⟨cr.nodup, List.nodup_singleton _, fun a ha b hb heq => ?_⟩
      rw [heq, List.mem_singleton.mp hb] at ha
      exact hnot ha }

/-- `RemoveFinalizer` of the metadata: the finalizer is there once, so that the loop splices it
out. -/
def Resource.removeFinalizer (cr : Resource S) : Resource S :=
  { cr with
    finalizers := cr.finalizers.filter (· ≠ finalizer)
    nodup := cr.nodup.filter _ }

end Resource

/-- The API server with the custom resources, and everything else, `G`. -/
structure World (S G : Type) where
  resources : List (Resource S) := []
  rest : G
  nodup : (Keyed.keys Resource.key resources).Nodup := by decide

/-- How the calls of one Reconcile end; `K` are those of the parameters. -/
structure Call (K : Type) where
  req : ObjectKey
  get : Option ApiError := none
  isInitialized : Bool := true
  update : Reply := .done
  updateStatus : Reply := .done
  calls : K

/-- What a Reconcile returns, whether it has set the condition to Ready, and the servers after it. -/
structure Outcome (S G : Type) where
  result : Result := {}
  error : Option String := none
  ready : Bool := false
  world : World S G

section Server

variable {S G : Type}

def World.get (w : World S G) (key : ObjectKey) : Option (Resource S) :=
  Keyed.lookup Resource.key key w.resources

/-- The custom resources after a write. -/
def World.put (w : World S G) (cr : Resource S) : World S G :=
  { w with
    resources := Keyed.upsert Resource.key cr w.resources
    nodup := Keyed.nodup_keys_upsert _ w.nodup _ }

/-- The API server deletes a resource with a deletion timestamp and no finalizer. -/
def World.remove (w : World S G) (key : ObjectKey) : World S G :=
  { w with
    resources := Keyed.drop Resource.key key w.resources
    nodup := Keyed.nodup_keys_drop _ w.nodup _ }

def notFound : ApiError := { msg := "not found", isNotFound := true }

/-- `client.Update` of the finalizers. -/
def World.update (w : World S G) (reply : Reply) (cr : Resource S) : Option ApiError × World S G :=
  match w.get cr.key with
  | none => (some notFound, w)
  | some _ =>
    (reply.error,
      if reply.applied then
        if cr.deleting && cr.finalizers.isEmpty then w.remove cr.key else w.put cr
      else w)

/-- `Status().Update`: it writes the status only. -/
def World.updateStatus (w : World S G) (reply : Reply) (cr : Resource S) :
    Option ApiError × World S G :=
  match w.get cr.key with
  | none => (some notFound, w)
  | some stored =>
    (reply.error,
      if reply.applied then w.put { stored with condition := cr.condition, url := cr.url } else w)

end Server

section Reconcile

variable {S G K : Type}

/-- `APIFinalizer.AddFinalizer`. -/
def addFinalizer (reply : Reply) (cr : Resource S) (w : World S G) :
    Option String × Resource S × World S G :=
  match h : finalizerExists cr with
  | true => (none, cr, w)
  | false =>
    let updated := w.update reply (cr.addFinalizer h)
    (wrap updated.1 "cannot update object", cr.addFinalizer h, updated.2)

/-- `APIFinalizer.RemoveFinalizer`. -/
def removeFinalizer (reply : Reply) (cr : Resource S) (w : World S G) :
    Option String × Resource S × World S G :=
  if !finalizerExists cr then (none, cr, w)
  else
    let updated := w.update reply cr.removeFinalizer
    (wrap (updated.1.bind ignoreNotFound) "cannot update object", cr.removeFinalizer, updated.2)

/-- A Reconcile that ends with an update of the status. -/
def finish (call : Call K) (result : Result) (cr : Resource S) (w : World S G) : Outcome S G :=
  let updated := w.updateStatus call.updateStatus cr
  { result := result
    error := wrap updated.1 "cannot update status"
    ready := cr.condition = some .ready
    world := updated.2 }

/-- What a reconciler does at the git server: `delete` deletes the object of a resource, `ensure`
creates or updates it. An error comes with the message for the condition. -/
structure Actions (S G K : Type) where
  delete : K → Resource S → G → Option String × G
  ensure : K → Resource S → G → Except String (Resource S) × G
  cannotGet : Result

variable (actions : Actions S G K) (call : Call K)

/-- `Reconcile` of a resource with a deletion timestamp. -/
def reconcileDeleted (cr : Resource S) (w : World S G) : Outcome S G :=
  let deleted :=
    if cr.deletionPolicy = .delete then actions.delete call.calls cr w.rest else (none, w.rest)
  let w := { w with rest := deleted.2 }
  match deleted.1 with
  | some err => finish call { requeue := true } (cr.setCondition (.failed err)) w
  | none =>
    let removed := removeFinalizer call.update cr w
    match removed.1 with
    | some err =>
      finish call { requeue := true } (removed.2.1.setCondition (.failed err)) removed.2.2
    | none => { world := removed.2.2 }

/-- `Reconcile` of a resource without one. -/
def reconcilePresent (cr : Resource S) (w : World S G) : Outcome S G :=
  let added := addFinalizer call.update cr w
  let cr := added.2.1
  let w := added.2.2
  match added.1 with
  | some err => finish call { requeue := true } (cr.setCondition (.failed err)) w
  | none =>
    let ensured := actions.ensure call.calls cr w.rest
    let w := { w with rest := ensured.2 }
    match ensured.1 with
    | .error err => finish call { requeue := true } (cr.setCondition (.failed err)) w
    | .ok cr => finish call {} (cr.setCondition .ready) w

/-- `Reconcile`. -/
def reconcile (w : World S G) : Outcome S G :=
  match call.get with
  | some err =>
    { result := if err.isNotFound then {} else actions.cannotGet
      error := wrap (ignoreNotFound err) "cannot get resource"
      world := w }
  | none =>
    match w.get call.req with
    | none => { world := w }
    | some cr =>
      if !call.isInitialized then
        finish call { requeue := true } (cr.setCondition (.failed "gitea server unreachable")) w
      else if cr.deleting then reconcileDeleted actions call cr w
      else reconcilePresent actions call cr w

end Reconcile

end Nephio.Controllers.GitResource
