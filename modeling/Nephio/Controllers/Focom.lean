import Nephio.Controllers.Client

/-!
# The FOCOM operator

`operators/focom-operator/internal/controller`: a FocomProvisioningRequest is provisioned by a
ProvisioningRequest on a remote cloud. The name of the remote object is kept in the status of the
request. `P` stands for decoded template parameters. What is read from the local cluster besides the
requests (TemplateInfos, OClouds, Secrets) does not change here.
-/

namespace Nephio.Controllers.Focom

def focomFinalizer : String := "focom.nephio.org/finalizer"

/-- `FocomProvisioningRequestSpec`, with the parameters as raw JSON. -/
structure Spec where
  oCloudId : String
  oCloudNamespace : String
  name : String := ""
  description : String := ""
  templateName : String
  templateVersion : String
  templateParameters : String := ""
deriving DecidableEq, Repr

/-- `FocomProvisioningRequestStatus`. -/
structure Status where
  phase : String := ""
  message : String := ""
  lastUpdated : Option Int := none
  remoteName : String := ""
deriving DecidableEq, Repr

/-- `FocomProvisioningRequest`. -/
structure Request where
  key : ObjectKey
  uid : Nat
  finalizers : List String := []
  deleting : Bool := false
  spec : Spec
  status : Status := {}
  named : key.name ≠ "" := by decide
deriving DecidableEq, Repr

/-- The spec of a remote ProvisioningRequest. -/
structure RemoteSpec (P : Type) where
  name : String
  description : String
  templateName : String
  templateVersion : String
  templateParameters : P
deriving DecidableEq, Repr

/-- A ProvisioningRequest on a cloud. `provisioningStatus` is its state and message. `creator` is the
request on whose behalf it was created, if any; no code reads it. -/
structure Remote (P : Type) where
  cloud : String
  name : String
  spec : RemoteSpec P
  provisioningStatus : Option (String × String) := none
  creator : Option Nat := none
  named : name ≠ "" := by decide
deriving DecidableEq, Repr

def Remote.key {P : Type} (o : Remote P) : String × String := (o.cloud, o.name)

/-- The requests and the objects of the clouds. `nextUid` is the next uid that the API server gives. -/
structure World (P : Type) where
  requests : List Request := []
  remotes : List (Remote P) := []
  nextUid : Nat := 0
  nodup : (Keyed.keys Request.key requests).Nodup := by decide

/-- What does not change: the objects that are read, and third-party functions. -/
structure Env (P : Type) where
  templateInfo : ObjectKey → Option (String × String)
  oCloud : ObjectKey → Option ObjectKey
  kubeconfig : ObjectKey → Option String
  parseKubeconfig : String → Except String String
  unmarshal : String → Except String P
  emptyParameters : P
  quote : String → String

/-- A call that is refused does not say NotFound. -/
def Reply.honest : Reply → Bool
  | .refused err => !err.isNotFound
  | _ => true

/-- One Reconcile: its request, its time, and how its calls end. -/
structure Call where
  req : ObjectKey
  now : Int := 0
  uuid : String := "00000000-0000-0000-0000-000000000000"
  get : Option ApiError := none
  update : Reply := .done
  updateStatus : Reply := .done
  getTemplateInfo : Option ApiError := none
  getOCloud : Option ApiError := none
  getSecret : Option ApiError := none
  newCluster : Option ApiError := none
  createRemote : Reply := .done
  getRemote : Option ApiError := none
  deleteRemote : Reply := .done
  uuid_ne : uuid ≠ "" := by decide
  honest : Reply.honest deleteRemote = true := by rfl

/-- What a Reconcile returns, and the world after it. -/
structure Outcome (P : Type) where
  result : Result := {}
  error : Option ApiError := none
  world : World P

/-! ## The API servers -/

section Server

variable {P : Type}

def notFound : ApiError := { msg := "not found", isNotFound := true }

def alreadyExists : ApiError := { msg := "already exists" }

def World.get (w : World P) (key : ObjectKey) : Option Request :=
  Keyed.lookup Request.key key w.requests

def World.put (w : World P) (fpr : Request) : World P :=
  { w with
    requests := Keyed.upsert Request.key fpr w.requests
    nodup := Keyed.nodup_keys_upsert _ w.nodup _ }

def World.remove (w : World P) (key : ObjectKey) : World P :=
  { w with
    requests := Keyed.drop Request.key key w.requests
    nodup := Keyed.nodup_keys_drop _ w.nodup _ }

/-- `Update`, here of the finalizers. A request that is being deleted goes with its last one. -/
def World.update (w : World P) (reply : Reply) (fpr : Request) : Option ApiError × World P :=
  match w.get fpr.key with
  | none => (some notFound, w)
  | some stored =>
    (reply.error,
      if reply.applied then
        if stored.deleting && fpr.finalizers.isEmpty then w.remove fpr.key
        else w.put { stored with finalizers := fpr.finalizers }
      else w)

/-- `Status().Update`. -/
def World.updateStatus (w : World P) (reply : Reply) (fpr : Request) : Option ApiError × World P :=
  match w.get fpr.key with
  | none => (some notFound, w)
  | some stored =>
    (reply.error, if reply.applied then w.put { stored with status := fpr.status } else w)

def World.getRemote (w : World P) (cloud name : String) : Option (Remote P) :=
  Keyed.lookup Remote.key (cloud, name) w.remotes

/-- `Create` on a cloud. -/
def World.createRemote (w : World P) (reply : Reply) (o : Remote P) : Option ApiError × World P :=
  match w.getRemote o.cloud o.name with
  | some _ => (some (reply.error.getD alreadyExists), w)
  | none =>
    (reply.error, if reply.applied then { w with remotes := w.remotes ++ [o] } else w)

/-- `Delete` on a cloud. -/
def World.deleteRemote (w : World P) (reply : Reply) (cloud name : String) :
    Option ApiError × World P :=
  match w.getRemote cloud name with
  | none => (some (reply.error.getD notFound), w)
  | some _ =>
    (reply.error,
      if reply.applied then
        { w with remotes := Keyed.drop Remote.key (cloud, name) w.remotes }
      else w)

end Server

/-! ## The controller -/

section Reconcile

variable {P : Type} (env : Env P) (call : Call)

/-- `updateStatus`. -/
def updateStatus (fpr : Request) (phase msg : String) : Request :=
  { fpr with status :=
    { fpr.status with phase := phase, message := msg, lastUpdated := some call.now } }

/-- `controllerutil.ContainsFinalizer`. -/
def containsFinalizer (fpr : Request) : Bool := fpr.finalizers.contains focomFinalizer

/-- `controllerutil.RemoveFinalizer`. -/
def removeFinalizer (fpr : Request) : Request :=
  { fpr with finalizers := fpr.finalizers.filter (· ≠ focomFinalizer) }

/-- `controllerutil.AddFinalizer` of a finalizer that is not there. -/
def addFinalizer (fpr : Request) : Request :=
  { fpr with finalizers := fpr.finalizers ++ [focomFinalizer] }

/-- `validateTemplateAlignment`. -/
def validateTemplateAlignment (fpr : Request) : Option String :=
  let tplInfoName := fpr.spec.templateName ++ "-" ++ fpr.spec.templateVersion
  let missing := "TemplateInfo " ++ env.quote tplInfoName ++ " not found"
  match call.getTemplateInfo with
  | some err =>
    some (if err.isNotFound then missing else "failed to get TemplateInfo: " ++ err.msg)
  | none =>
    match env.templateInfo ⟨fpr.key.namespace, tplInfoName⟩ with
    | none => some missing
    | some (templateName, templateVersion) =>
      if templateName ≠ fpr.spec.templateName ∨ templateVersion ≠ fpr.spec.templateVersion then
        some ("mismatch: TemplateInfo has (" ++ templateName ++ "/" ++ templateVersion ++
          "), request has (" ++ fpr.spec.templateName ++ "/" ++ fpr.spec.templateVersion ++ ")")
      else none

/-- `buildRemoteClient`: the cloud that the OCloud's kubeconfig leads to. -/
def buildRemoteClient (spec : Spec) : Except String String :=
  let missing := "OCloud " ++ spec.oCloudId ++ " not found in namespace " ++ spec.oCloudNamespace
  match call.getOCloud with
  | some err => .error (if err.isNotFound then missing else "failed to fetch OCloud: " ++ err.msg)
  | none =>
    match env.oCloud ⟨spec.oCloudNamespace, spec.oCloudId⟩ with
    | none => .error missing
    | some secretRef =>
      let secret := secretRef.namespace ++ "/" ++ secretRef.name
      if secretRef.name = "" ∨ secretRef.namespace = "" then
        .error ("OCloud " ++ spec.oCloudNamespace ++ "/" ++ spec.oCloudId ++
          " references an empty secretRef")
      else
        match call.getSecret, env.kubeconfig secretRef with
        | some err, _ => .error ("cannot read secretRef " ++ secret ++ ": " ++ err.msg)
        | none, none => .error ("cannot read secretRef " ++ secret ++ ": " ++ notFound.msg)
        | none, some kubeconfig =>
          if kubeconfig = "" then .error ("secret " ++ secret ++ " missing 'kubeconfig' key")
          else
            match env.parseKubeconfig kubeconfig with
            | .error err =>
              .error ("failed to parse kubeconfig from secret " ++ secret ++ ": " ++ err)
            | .ok cloud =>
              match call.newCluster with
              | some err => .error ("failed to create remote cluster: " ++ err.msg)
              | none => .ok cloud

/-- `deleteRemoteResource`. -/
def deleteRemoteResource (fpr : Request) (w : World P) : Option String × World P :=
  if fpr.status.remoteName = "" then (none, w)
  else
    match buildRemoteClient env call fpr.spec with
    | .error err => (some ("buildRemoteClient error: " ++ err), w)
    | .ok cloud =>
      let deleted := w.deleteRemote call.deleteRemote cloud fpr.status.remoteName
      (match deleted.1 with
        | none => none
        | some err => if err.isNotFound then none else some ("delete remote CR: " ++ err.msg),
        deleted.2)

/-- `handleDeletion`. -/
def handleDeletion (fpr : Request) (w : World P) : Outcome P :=
  if containsFinalizer fpr then
    let deleted := deleteRemoteResource env call fpr w
    match deleted.1 with
    | some _ => { result := { requeueAfter := 15 * 10 ^ 9 }, world := deleted.2 }
    | none =>
      let updated := deleted.2.update call.update (removeFinalizer fpr)
      { error := updated.1, world := updated.2 }
  else { world := w }

/-- `decodeRawParameters`. -/
def decodeRawParameters (raw : String) : Except String P :=
  if raw = "" then .ok env.emptyParameters else env.unmarshal raw

/-- The name of the remote object: that of the request, or a new UUID. -/
def remoteName (fpr : Request) : String := if fpr.key.name = "" then call.uuid else fpr.key.name

theorem remoteName_ne (fpr : Request) : remoteName call fpr ≠ "" := by
  unfold remoteName
  split_ifs with h
  · exact call.uuid_ne
  · exact h

/-- The remote object that is created for a request. -/
def remoteObj (cloud : String) (fpr : Request) (parameters : P) : Remote P where
  cloud := cloud
  name := remoteName call fpr
  spec :=
    { name := fpr.spec.name
      description := fpr.spec.description
      templateName := fpr.spec.templateName
      templateVersion := fpr.spec.templateVersion
      templateParameters := parameters }
  creator := some fpr.uid
  named := remoteName_ne call fpr

/-- `createRemoteProvisioningRequest`. -/
def createRemoteProvisioningRequest (cloud : String) (fpr : Request) (w : World P) :
    Except String String × World P :=
  match decodeRawParameters env fpr.spec.templateParameters with
  | .error err => (.error ("failed to parse templateParameters: " ++ err), w)
  | .ok parameters =>
    let created := w.createRemote call.createRemote (remoteObj call cloud fpr parameters)
    (match created.1 with
      | some err => .error err.msg
      | none => .ok (remoteName call fpr),
      created.2)

/-- `pollRemoteProvisioningRequest`: done, phase and message. -/
def pollRemoteProvisioningRequest (cloud : String) (fpr : Request) (w : World P) :
    Except String (Bool × String × String) :=
  let missing := (true, "failed", "Remote resource not found")
  match call.getRemote, w.getRemote cloud fpr.status.remoteName with
  | some err, _ =>
    if err.isNotFound then .ok missing else .error ("error fetching remote CR: " ++ err.msg)
  | none, none => .ok missing
  | none, some o =>
    match o.provisioningStatus with
    | none => .ok (false, "provisioning", "Remote CR has no status yet")
    | some (state, message) =>
      if state = "fulfilled" then .ok (true, "Fulfilled", message)
      else if state = "failed" then .ok (true, "Failed", message)
      else if state = "deleting" ∨ state = "progressing" then .ok (false, state, message)
      else .ok (false, "provisioning", "Unknown remote state: " ++ state)

/-- The status is updated, and an error of this is not looked at. -/
def fail (fpr : Request) (msg : String) (w : World P) : World P :=
  (w.updateStatus call.updateStatus (updateStatus call fpr "failed" msg)).2

/-- `ensureRemoteResource`, with the result of `Reconcile`: an error makes it end without a
requeue. -/
def ensureRemoteResource (cloud : String) (fpr : Request) (w : World P) : Outcome P :=
  if fpr.status.remoteName = "" then
    let created := createRemoteProvisioningRequest env call cloud fpr w
    match created.1 with
    | .error err => { world := fail call fpr err created.2 }
    | .ok name =>
      let fpr := { fpr with status := { fpr.status with remoteName := name } }
      let updated := created.2.updateStatus call.updateStatus
        (updateStatus call fpr "provisioning" "Remote CR created, waiting for fulfillment")
      { result := if updated.1.isSome then {} else { requeueAfter := 20 * 10 ^ 9 }
        world := updated.2 }
  else
    match pollRemoteProvisioningRequest call cloud fpr w with
    | .error err => { world := fail call fpr ("poll error: " ++ err) w }
    | .ok (done, phase, msg) =>
      let updated := w.updateStatus call.updateStatus (updateStatus call fpr phase msg)
      { result := if updated.1.isSome || done then {} else { requeueAfter := 30 * 10 ^ 9 }
        world := updated.2 }

/-- `Reconcile`. -/
def reconcile (w : World P) : Outcome P :=
  match call.get with
  | some err => { error := if err.isNotFound then none else some err, world := w }
  | none =>
    match w.get call.req with
    | none => { world := w }
    | some fpr =>
      if fpr.deleting then handleDeletion env call fpr w
      else if !containsFinalizer fpr then
        let updated := w.update call.update (addFinalizer fpr)
        { result := { requeue := updated.1.isNone }, error := updated.1, world := updated.2 }
      else
        match validateTemplateAlignment env call fpr with
        | some err => { world := fail call fpr err w }
        | none =>
          match buildRemoteClient env call fpr.spec with
          | .error err => { world := fail call fpr err w }
          | .ok cloud => ensureRemoteResource env call cloud fpr w

end Reconcile

end Nephio.Controllers.Focom
