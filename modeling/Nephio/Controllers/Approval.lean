import Nephio.Controllers.Client

/-!
# The approval controller

`controllers/pkg/reconcilers/approval/reconciler.go`, with `PackageVariantReady` of `porch/util` and
`UpdatePackageRevisionApproval` of `porch/client`. The API server holds PackageRevisions and
PackageVariants. `LifecycleIsPublished` and `PackageRevisionIsReady` are Porch's.
-/

namespace Nephio.Controllers.Approval

/-- `PackageRevisionLifecycle`. -/
inductive Lifecycle where
  | draft
  | proposed
  | published
  | deletionProposed
  | other (text : String)
deriving DecidableEq, Repr

namespace Lifecycle

def string : Lifecycle → String
  | draft => "Draft"
  | proposed => "Proposed"
  | published => "Published"
  | deletionProposed => "DeletionProposed"
  | other text => text

/-- `LifecycleIsPublished`. -/
def isPublished : Lifecycle → Bool
  | published => true
  | deletionProposed => true
  | _ => false

end Lifecycle

/-- `metav1.OwnerReference`. -/
structure OwnerReference where
  apiVersion : String
  kind : String
  name : String
  controller : Option Bool := none
deriving DecidableEq, Repr

/-- `PackageRevision`. The API server admits one controller among the owner references. -/
structure PackageRevision where
  key : ObjectKey
  repositoryName : String
  packageName : String
  lifecycle : Lifecycle
  creationTimestamp : Int
  annotations : List (String × String) := []
  ownerReferences : List OwnerReference := []
  readinessGates : List String := []
  conditions : List StatusCondition := []
  one_controller :
    (ownerReferences.filter fun owner => owner.controller = some true).length ≤ 1 := by decide
deriving DecidableEq, Repr

/-- `PackageVariant`. -/
structure PackageVariant where
  key : ObjectKey
  conditions : List StatusCondition := []
deriving DecidableEq, Repr

/-- The objects of the API server. No two revisions have the same key. -/
structure Store where
  revisions : List PackageRevision := []
  variants : List PackageVariant := []
  nodup : (Keyed.keys PackageRevision.key revisions).Nodup := by decide
deriving DecidableEq, Repr

/-- What the controller is given: its requeue time and Go's `time.ParseDuration` and
`strconv.Quote`. -/
structure Env where
  requeueDuration : Int
  parseDuration : String → Except String Int
  quote : String → String

/-- One Reconcile: its request, its time, and how its calls end. -/
structure Call where
  req : ObjectKey
  now : Int
  get : Option ApiError := none
  getVariant : String → Option ApiError := fun _ => none
  list : Option ApiError := none
  update : Reply := .done
  getApproval : Option ApiError := none
  putApproval : Reply := .done

/-- An event that is recorded for the PackageRevision. -/
structure Event where
  warning : Bool
  reason : String
  message : String
deriving DecidableEq, Repr

/-- What a Reconcile returns, and the API server after it. -/
structure Outcome where
  result : Result := {}
  error : Option String := none
  events : List Event := []
  store : Store
deriving DecidableEq, Repr

def delayAnnotationName : String := "approval.nephio.org/delay"

def policyAnnotationName : String := "approval.nephio.org/policy"

def initialPolicyAnnotationValue : String := "initial"

def alwaysPolicyAnnotationValue : String := "always"

def PackageRevision.getAnnotations (pr : PackageRevision) (name : String) : Option String :=
  (Keyed.lookup Prod.fst name pr.annotations).map Prod.snd

def Store.getRevision (s : Store) (key : ObjectKey) : Option PackageRevision :=
  Keyed.lookup PackageRevision.key key s.revisions

def Store.getVariant (s : Store) (key : ObjectKey) : Option PackageVariant :=
  Keyed.lookup PackageVariant.key key s.variants

/-- The API server after an update of a PackageRevision. -/
def Store.update (s : Store) (pr : PackageRevision) : Store :=
  { s with
    revisions := Keyed.upsert PackageRevision.key pr s.revisions
    nodup := Keyed.nodup_keys_upsert _ s.nodup _ }

/-- `PackageRevisionIsReady`: of the conditions of one type the last counts. -/
def packageRevisionIsReady (gates : List String) (conditions : List StatusCondition) : Bool :=
  gates.all fun gate =>
    ((conditions.filter fun c => c.type = gate).getLast?.map StatusCondition.status) = some "True"

/-- `PackageVariantReady`, from the owner references on; `owned` says that a PackageVariant without a
Ready condition came before. -/
def packageVariantReady (getPV : String → Except ApiError PackageVariant) :
    Bool → List OwnerReference → Except ApiError Bool
  | owned, [] => .ok !owned
  | owned, ownerRef :: ownerRefs =>
    if ownerRef.controller ≠ some true then packageVariantReady getPV owned ownerRefs
    else if "config.porch.kpt.dev/v1alpha1" ≠ ownerRef.apiVersion then
      packageVariantReady getPV owned ownerRefs
    else if ownerRef.kind ≠ "PackageVariant" then packageVariantReady getPV owned ownerRefs
    else
      match getPV ownerRef.name with
      | .error err => .error err
      | .ok pv =>
        match pv.conditions.find? fun cond => cond.type = "Ready" with
        | some cond => .ok (cond.status = "True")
        | none => packageVariantReady getPV true ownerRefs

/-- `shouldProcess`. -/
def shouldProcess (pr : PackageRevision) : String × Bool :=
  let policy := pr.getAnnotations policyAnnotationName
  (policy.getD "", !pr.lifecycle.isPublished && policy.isSome)

/-- `time.Since`: the difference saturates. -/
def since (now t : Int) : Int := max (-2 ^ 63) (min (2 ^ 63 - 1) (now - t))

/-- `manageDelay`. -/
def manageDelay (env : Env) (now : Int) (pr : PackageRevision) : Except String Int :=
  match pr.getAnnotations delayAnnotationName with
  | none => .ok 0
  | some delay =>
    match env.parseDuration delay with
    | .error err => .error err
    | .ok d =>
      if d < 0 then .error ("invalid delay " ++ env.quote delay ++ "; delay must be 0 or more")
      else if since now pr.creationTimestamp > d then .ok 0
      else .ok d

/-- `policyInitial`. -/
def policyInitial (s : Store) (call : Call) (pr : PackageRevision) : Except ApiError Bool :=
  match call.list with
  | some err => .error err
  | none =>
    .ok !(s.revisions.any fun pr2 =>
      pr2.lifecycle.isPublished && (pr2.repositoryName = pr.repositoryName &&
        pr2.packageName = pr.packageName))

/-- `UpdatePackageRevisionApproval`. -/
def updatePackageRevisionApproval (s : Store) (call : Call) (key : ObjectKey) (new : Lifecycle) :
    Option String × Store :=
  match call.getApproval with
  | some err => (some err.msg, s)
  | none =>
    match s.getRevision key with
    | none => (some "not found", s)
    | some pr =>
      if pr.lifecycle = .proposed then
        (call.putApproval.error.map ApiError.msg,
          if call.putApproval.applied then s.update { pr with lifecycle := new } else s)
      else if pr.lifecycle = new then (none, s)
      else
        (some ("cannot change approval from " ++ pr.lifecycle.string ++ " to " ++ new.string), s)

/-- The last part of `Reconcile`: all policies are met. -/
def approve (call : Call) (s : Store) (pr : PackageRevision) : Outcome :=
  let finish (action reason : String) (err : Option String) (s : Store) : Outcome :=
    { error := err
      events := [match err with
        | some err => ⟨true, "Error", "error " ++ action ++ ": " ++ err⟩
        | none => ⟨false, reason, "all approval policies met for " ++ pr.packageName ++ ": " ++
            reason⟩]
      store := s }
  if pr.lifecycle = .draft then
    finish "proposing" "Proposed" (call.update.error.map ApiError.msg)
      (if call.update.applied then s.update { pr with lifecycle := .proposed } else s)
  else
    let done := updatePackageRevisionApproval s call pr.key .published
    finish "approving" "Approved" done.1 done.2

/-- `Reconcile` from the point where the PackageRevision is known to be ready. -/
def evaluate (env : Env) (call : Call) (s : Store) (policy : String) (pr : PackageRevision) :
    Outcome :=
  let approved : Option (Except ApiError Bool) :=
    if policy = initialPolicyAnnotationValue then some (policyInitial s call pr)
    else if policy = alwaysPolicyAnnotationValue then some (.ok true)
    else none
  match approved with
  | none =>
    { events := [⟨true, "InvalidPolicy", "invalid " ++ env.quote policyAnnotationName ++
        " annotation value: " ++ env.quote policy⟩], store := s }
  | some (.error err) =>
    { events := [⟨true, "Error", "error evaluating approval policy " ++ env.quote policy ++ ": " ++
        err.msg⟩], store := s }
  | some (.ok false) =>
    { result := { requeueAfter := env.requeueDuration }
      events := [⟨false, "NotApproved", "approval policy " ++ env.quote policy ++ " not met for " ++
        pr.packageName⟩]
      store := s }
  | some (.ok true) =>
    match manageDelay env call.now pr with
    | .error err =>
      { events := [⟨true, "Error", "error processing " ++ env.quote delayAnnotationName ++ ": " ++
          err⟩], store := s }
    | .ok requeue =>
      if requeue > 0 then
        { result := { requeueAfter := requeue }
          events := [⟨false, "NotApproved", "delay time not met"⟩], store := s }
      else approve call s pr

/-- How the PackageVariant of an owner reference is read. -/
def getPV (call : Call) (s : Store) (pr : PackageRevision) (name : String) :
    Except ApiError PackageVariant :=
  match call.getVariant name with
  | some err => .error err
  | none =>
    match s.getVariant ⟨pr.key.namespace, name⟩ with
    | some pv => .ok pv
    | none => .error { msg := "not found", isNotFound := true }

/-- `Reconcile`. -/
def reconcile (env : Env) (call : Call) (s : Store) : Outcome :=
  match call.get with
  | some err => { error := wrap (ignoreNotFound err) "cannot get resource", store := s }
  | none =>
    match s.getRevision call.req with
    | none => { store := s }
    | some pr =>
      if !(shouldProcess pr).2 then { store := s }
      else
        match packageVariantReady (getPV call s pr) false pr.ownerReferences with
        | .error err =>
          { events := [⟨true, "Error", "could not get owning PackageVariant: " ++ err.msg⟩]
            store := s }
        | .ok false =>
          { result := { requeueAfter := env.requeueDuration }
            events := [⟨false, "NotApproved", "owning PackageVariant for " ++ pr.packageName ++
              " not Ready"⟩]
            store := s }
        | .ok true =>
          if !packageRevisionIsReady pr.readinessGates pr.conditions then
            { result := { requeueAfter := env.requeueDuration }
              events := [⟨false, "NotApproved", "readiness gates not met for " ++ pr.packageName ++
                ", in repo " ++ pr.repositoryName⟩]
              store := s }
          else evaluate env call s (shouldProcess pr).1 pr

end Nephio.Controllers.Approval
