import Nephio.Python.Json

/-!
# Provisioning requests

`operators/o2ims-operator/controllers`: `cluster_creation_request` creates a PackageVariant through the
Kubernetes API and polls it for some seconds. `create_package_variant` and `get_package_variant` are of
`utils.py`. The replies of the API are given, one for each call.
-/

namespace Nephio.O2ims

open Python (Exn Json)

/-! ## The Kubernetes API -/

/-- `requests.Response`. `json` is what `r.json()` returns or raises. -/
structure Response where
  statusCode : Nat
  json : Except Exn Json

/-- How a call of `requests` ends: it raises, or returns a response. -/
inductive Reply where
  | raised (e : String)
  | response (r : Response)

/-- The replies: to the first get, to the post of a PackageVariant, and to the gets of the polls. -/
structure Api where
  get : Reply
  post : Json → Reply
  polls : Nat → Reply

/-- What `get_package_variant` returns: `{"status": True, "name": .., "body": ..}` or
`{"status": False, "reason": ..}`. -/
inductive Got where
  | found (name : String) (body : Json)
  | failed (reason : Json)

/-- What `create_package_variant` returns: `{"status": True, "name": ..}` or
`{"status": False, "reason": ..}`. -/
inductive Creation where
  | created (name : String)
  | refused (reason : Json)

/-- The debug message has `r.json()`, which may raise. -/
def debugJson (logger : Bool) (r : Response) : Except Exn Unit :=
  if logger then r.json.map fun _ => () else .ok ()

/-- `get_package_variant`. -/
def getPackageVariant (logger : Bool) (name : String) : Reply → Except Exn Got
  | .raised e => .ok (.failed (.str ("NotAbleToCommunicateWithTheCluster " ++ e)))
  | .response r => do
    debugJson logger r
    if r.statusCode ∈ [200] then return .found name (← r.json)
    else if r.statusCode ∈ [401, 403] then return .failed (.str "unauthorized")
    else if r.statusCode = 404 then return .failed (.str "notFound")
    else if r.statusCode = 500 then return .failed (.str "k8sApi server is not reachable")
    else return .failed (← r.json)

/-- The dictionary `package_variant_body`. -/
structure PackageVariantBody where
  name : String
  repoLocation : String
  templateName : String
  templateVersion : String
  clusterName : Json
  mutators : List Json
  create : Bool

/-- `str(LABEL)`. -/
def label : String := "\x7b'owner': 'o2ims.provisioning.oran.org.provisioningrequests'\x7d"

section Create

variable (format : Json → String) (logger : Bool)

/-- `pv_body`. `format` is Python's `str`. -/
def pvBody (param : PackageVariantBody) : Json :=
  .obj [
    ("apiVersion", .str "config.porch.kpt.dev/v1alpha1"),
    ("kind", .str "PackageVariant"),
    ("metadata", .obj [("name", .str param.name), ("label", .str label)]),
    ("spec", .obj [
      ("upstream", .obj [
        ("repo", .str param.repoLocation),
        ("package", .str param.templateName),
        ("workspaceName", .str param.templateVersion)]),
      ("downstream", .obj [
        ("repo", .str "mgmt"),
        ("package", .str (format param.clusterName))]),
      ("annotations", .obj [("approval.nephio.org/policy", .str "initial")]),
      ("pipeline", .obj [("mutators", .arr param.mutators)])])]

/-- The response of the post in `create_package_variant`. -/
def postPackageVariant (name : String) : Reply → Except Exn Creation
  | .raised e => .error (.raised e)
  | .response r => do
    debugJson logger r
    if r.statusCode ∈ [200, 201] then return .created name
    else if r.statusCode ∈ [401, 403] then return .refused (.str "unauthorized")
    else if r.statusCode = 404 then return .refused (.str "notFound")
    else if r.statusCode = 400 then return .refused (← (← r.json).getItem "message")
    else if r.statusCode = 500 then return .refused (.str "k8sApi server is not reachable")
    else return .refused (← r.json)

/-- `create_package_variant`. -/
def createPackageVariant (name : String) (param : PackageVariantBody) (api : Api) :
    Except Exn Creation := do
  match ← getPackageVariant logger name api.get with
  | .failed reason =>
    if reason.isText "notFound" && param.create then
      postPackageVariant logger name (api.post (pvBody format param))
    else return .refused reason
  | .found name _ => return .created name

end Create

/-! ## The request -/

/-- `provisioningState`. -/
inductive ProvisioningState where
  | progressing
  | failed
deriving DecidableEq, Repr

/-- What `cluster_creation_request` returns. -/
structure Output where
  provisioningMessage : String
  provisioningState : ProvisioningState
deriving DecidableEq, Repr

def timeout : Nat := 30

section Request

variable (format : Json → String) (logger : Bool) (name : String)

/-- One turn of the loop, up to the timer: what it breaks with, if it does. -/
def turn : Got → Except Exn (Option Output)
  | .found _ body => do
    if ← body.hasKey "status" then
      let conditions ← (← body.getItem "status").getItem "conditions"
      if conditions.isNone then return none
      if (← conditions.len) = 0 then return none
      let latest ← conditions.last
      let status ← latest.getItem "status"
      let reason ← latest.getItem "reason"
      if status.isText "True" then
        return some ⟨"Cluster instance rendering completed", .progressing⟩
      else if status.isText "False" then
        return some ⟨"Cluster instance rendering failed " ++ format reason, .failed⟩
      else return none
    else return none
  | .failed _ => return some ⟨"Cluster instance rendering failed", .failed⟩

/-- The get of a turn, and the turn. -/
def pollOnce (reply : Reply) : Except Exn (Option Output) := do
  turn format (← getPackageVariant logger name reply)

/-- The loop from `timer` on, with the replies that it takes. -/
def poll (polls : Nat → Reply) (timer : Nat) : Except Exn Output × List Reply :=
  match pollOnce format logger name (polls timer) with
  | .error e => (.error e, [polls timer])
  | .ok (some output) => (.ok output, [polls timer])
  | .ok none =>
    if timer ≥ timeout then
      (.ok ⟨"Cluster resource creation failed reached timeout", .failed⟩, [polls timer])
    else
      let rest := poll polls (timer + 1)
      (rest.1, polls timer :: rest.2)
termination_by timeout - timer

/-- The `try` block. The state is set to `progressing` before it, and the loop is not entered where the
creation is refused. -/
def attempt (param : PackageVariantBody) (api : Api) : Except Exn Output × List Reply :=
  match createPackageVariant format logger name param api with
  | .error e => (.error e, [])
  | .ok (.refused _) => (.ok ⟨"Cluster instance rendering ongoing", .progressing⟩, [])
  | .ok (.created _) => poll format logger name api.polls 0

/-- The mutator of a parameter with `labels` in its name, which reads the one named so. -/
def labelsMutator (params : List (String × Json)) : Except Exn Json := do
  let labels ← (Json.obj params).getItem "labels"
  return .obj [("image", .str "gcr.io/kpt-fn/set-labels:v0.2.0"), ("configMap", labels)]

/-- `package_variant_body`, from the parameters of the template. -/
def packageVariantBody (repoLocation templateName templateVersion : String)
    (params : List (String × Json)) : Except Exn PackageVariantBody := do
  let clusterName ← (Json.obj params).getItem "clusterName"
  let params := params.filter fun param => param.1 ≠ "clusterName"
  let mutators ← (params.filter fun param => Python.textIn "labels" param.1).mapM fun _ =>
    labelsMutator params
  return {
    name := name
    repoLocation := repoLocation
    templateName := templateName
    templateVersion := templateVersion
    clusterName := clusterName
    mutators := mutators
    create := true }

/-- `cluster_creation_request`, with the replies to its polls. Without a logger the handler of the
exceptions raises in turn. -/
def clusterCreationRequest (repoLocation templateName templateVersion : String)
    (params : List (String × Json)) (api : Api) : Except Exn Output × List Reply :=
  match packageVariantBody name repoLocation templateName templateVersion params with
  | .error e => (.error e, [])
  | .ok param =>
    match attempt format logger name param api with
    | (.ok output, polls) => (.ok output, polls)
    | (.error _, polls) =>
      if logger then (.ok ⟨"Cluster instance rendering failed", .failed⟩, polls)
      else (.error .attributeError, polls)

/-- `create_fn` from the request on: it raises where the request failed, and otherwise `sub_creation`
sets the status of the provisioning request. -/
def createFn (output : Output) : Except Exn Output :=
  if output.provisioningState = .failed then
    .error (.raised "Cluster creation permanently failed")
  else .ok ⟨"Cluster instance rendering completed", .progressing⟩

end Request

end Nephio.O2ims
