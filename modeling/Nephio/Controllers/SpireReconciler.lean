import Nephio.Controllers.Bootstrap
import Nephio.Controllers.SpireBootstrap

/-!
# The Reconcile of the SPIRE bootstrap controller

`controllers/pkg/reconcilers/spire-bootstrap`: a Cluster of the management cluster is made known to
the SPIRE server there, with a kubeconfig and an entry in the list of clusters, and the trust bundle
and the configuration of the agent are applied to the cluster itself. The YAML and the base64
encoder and client-go's kubeconfig are third-party.
-/

namespace Nephio.Controllers.SpireBootstrap

open Bootstrap (Secret Capi getClusterClient seconds)

def spirekubeconfig : String := "spire-kubeconfig"

/-- `KubernetesConfig`, whose lists have one element each. -/
structure KubernetesConfig where
  clusterName : String
  certificateAuthorityData : String
  server : String
  contextName : String
  contextCluster : String
  contextNamespace : String
  contextUser : String
  userName : String
  token : String
  currentContext : String
deriving DecidableEq, Repr

/-- `corev1.ConfigMap`. -/
structure ConfigMap where
  key : ObjectKey
  data : Data := []
  resourceVersion : String := ""
  uid : String := ""
deriving DecidableEq, Repr

/-- `corev1.Service`: the ingress points of its status, with IP and host name, its external IPs, and
its ports. -/
structure Service where
  ingress : List (String × String) := []
  externalIPs : List String := []
  ports : List Nat := []

/-- What the clients meet: the clusters, and on each API server the token of the agent's service
account and the certificate of the CA. -/
structure Env extends Bootstrap.Env where
  token : String → String
  caCert : String → String
  url : String → String
  encode : String → String
  marshal : KubernetesConfig → Except String String

/-- `createSpireAgentConfigMap`; it does not fail. -/
def createSpireAgentConfigMap (name «namespace» cluster serverAddress serverPort : String) :
    ConfigMap where
  key := ⟨«namespace», name⟩
  data := [("agent.conf", "\nagent \x7b\n  data_dir = \"/run/spire\"\n  log_level = \"DEBUG\"\n" ++
    "  server_address = \"" ++ serverAddress ++ "\"\n  server_port = \"" ++ serverPort ++ "\"\n" ++
    "  socket_path = \"/run/spire/sockets/spire-agent.sock\"\n" ++
    "  trust_bundle_path = \"/run/spire/bundle/bundle.crt\"\n  trust_domain = \"example.org\"\n\x7d\n" ++
    "\nplugins \x7b\n  NodeAttestor \"k8s_psat\" \x7b\n    plugin_data \x7b\n      cluster = \"" ++
    cluster ++ "\"\n    \x7d\n  \x7d\n\n  KeyManager \"memory\" \x7b\n    plugin_data \x7b\n    \x7d\n" ++
    "  \x7d\n\n  WorkloadAttestor \"k8s\" \x7b\n    plugin_data \x7b\n" ++
    "      skip_kubelet_verification = true\n    \x7d\n  \x7d\n\x7d\n")]

/-- `getServiceExternalIP`: of the ingress points only the first is looked at, and there may be no
address at all. -/
def getServiceExternalIP (service : Service) : String :=
  match service.ingress with
  | (ip, hostname) :: _ =>
    if ip ≠ "" then ip
    else if hostname ≠ "" then hostname
    else service.externalIPs.headD ""
  | [] => service.externalIPs.headD ""

/-- How the calls for one Secret end. -/
structure Attempt extends Bootstrap.Attempt where
  newClientset : Option ApiError := none
  getKubeconfigs : Option ApiError := none
  getToken : Option ApiError := none
  getCA : Option ApiError := none
  updateKubeconfigs : Reply := .done
  getList : Option ApiError := none
  updateList : Reply := .done
  applyBundle : Reply := .done
  applyAgent : Reply := .done

/-- A ConfigMap that was applied to a cluster, and the Cluster in whose Reconcile. -/
structure Applied where
  client : Capi
  clusterName : String
  object : ConfigMap
deriving DecidableEq, Repr

/-- The ConfigMaps `kubeconfigs` and `clusters` of the management cluster, and what has been applied
to others. -/
structure World where
  kubeconfigs : Data := []
  clusters : Data := []
  applied : List Applied := []
deriving DecidableEq, Repr

/-- What a Reconcile returns. -/
structure Returned where
  result : Result := {}
  error : Option String := none
deriving DecidableEq, Repr

def kubeconfigKey (clusterName : String) : String := "kubeconfig-" ++ clusterName

/-- The kubeconfig of a cluster that is reached on an API server. -/
def kubernetesConfig (env : Env) (clusterName server : String) : KubernetesConfig where
  clusterName := clusterName
  certificateAuthorityData := Go.trimSpace (env.encode (env.caCert server))
  server := env.url server
  contextName := "spire-kubeconfig@" ++ clusterName
  contextCluster := clusterName
  contextNamespace := "spire"
  contextUser := spirekubeconfig
  userName := spirekubeconfig
  token := env.token server
  currentContext := "spire-kubeconfig@" ++ clusterName

/-- `createKubeconfigConfigMap`: the data of `kubeconfigs` with the entry of the cluster. -/
def createKubeconfigConfigMap (env : Env) (attempt : Attempt) (server clusterName : String)
    (kubeconfigs : Data) : Except String Data :=
  match attempt.getKubeconfigs, attempt.getToken, attempt.getCA with
  | some err, _, _ => .error ("failed to get existing ConfigMap: " ++ err.msg)
  | none, some err, _ => .error ("failed to get Service Account token: " ++ err.msg)
  | none, none, some err => .error ("failed to get cluster CA: " ++ err.msg)
  | none, none, none =>
    match env.marshal (kubernetesConfig env clusterName server) with
    | .error err => .error ("failed to create kubeconfig CM: " ++ err)
    | .ok yamlData => .ok (Keyed.upsert Prod.fst (kubeconfigKey clusterName, yamlData) kubeconfigs)

/-- A write to the server, `w'` where it takes place. -/
def written {σ : Type} (reply : Reply) (w w' : σ) : σ := if reply.applied then w' else w

/-- `updateClusterListConfigMap` on the world. -/
def updateList (attempt : Attempt) (clusterName : String) (w : World) : World × Option String :=
  let call : Call := { clusterName := clusterName, get := attempt.getList }
  match updateClusterListConfigMap w.clusters call with
  | .error err => (w, some err)
  | .ok clusters =>
    let w' := { w with clusters := clusters }
    match updateClusterListConfigMap w.clusters { call with update := attempt.updateList.error } with
    | .ok _ => (w', none)
    | .error err => (written attempt.updateList w w', some err)

/-- A failed step of the loop, with the message it is wrapped in. -/
def failed (w : World) (msg err : String) : World × Option Returned :=
  (w, some { error := some (msg ++ ": " ++ err) })

/-- `Apply` of one ConfigMap, and what comes after it. -/
def applyConfigMap (reply : Reply) (applied : Applied) (what : String)
    (next : World → World × Option Returned) (w : World) : World × Option Returned :=
  let w' := written reply w { w with applied := w.applied ++ [applied] }
  match reply.error with
  | some err => failed w' ("cannot apply " ++ what ++ " configMap to cluster " ++ applied.clusterName) err.msg
  | none => next w'

/-- The part of the loop that writes to the cluster. -/
def applyAll (env : Env) (attempt : Attempt) (clusterName server : String) (client : Capi)
    (bundle agent : ConfigMap) (w : World) : World × Option Returned :=
  let remoteNamespace := bundle.key.namespace
  let missing : Option Returned := some { result := { requeueAfter := seconds 10 } }
  let remote (cm : ConfigMap) : Applied :=
    { client, clusterName
      object := { cm with key := ⟨remoteNamespace, cm.key.name⟩, resourceVersion := "", uid := "" } }
  match attempt.getNamespace with
  | some err =>
    if err.isNotFound then (w, missing)
    else
      (w, some
        { result := { requeueAfter := seconds 30 }
          error := wrap (some err) ("cannot get namespace: " ++ remoteNamespace) })
  | none =>
    if !env.hasNamespace server remoteNamespace then (w, missing)
    else
      applyConfigMap attempt.applyBundle (remote bundle) "spire-bundle"
        (applyConfigMap attempt.applyAgent (remote agent) "spire-agent" fun w => (w, none)) w

/-- The body of the loop for a Secret that gives a client: the world, and what the Reconcile returns
if it does not go on. -/
def handleSecret (env : Env) (attempt : Attempt) (clusterName : String) (bundle agent : ConfigMap)
    (client : Capi) (w : World) : World × Option Returned :=
  match client.getClusterClient env.toEnv attempt.toAttempt with
  | .error err =>
    (w, some
      { result := { requeueAfter := seconds 30 }, error := some ("cannot get clusterClient: " ++ err) })
  | .ok none => (w, some { result := { requeueAfter := seconds 10 } })
  | .ok (some _) =>
    match env.restConfig client.secret.value with
    | .error err => failed w "failed to get kubeconfig" err
    | .ok server =>
      match attempt.newClientset with
      | some err => failed w "failed to create rest config" err.msg
      | none =>
        match createKubeconfigConfigMap env attempt server clusterName w.kubeconfigs with
        | .error err => failed w "Error creating Kubeconfig configmap" err
        | .ok kubeconfigs =>
          let w := written attempt.updateKubeconfigs w { w with kubeconfigs := kubeconfigs }
          match attempt.updateKubeconfigs.error with
          | some err => failed w "failed to Update Kubeconfig list configmap" err.msg
          | none =>
            match updateList attempt clusterName w with
            | (w, some err) => failed w "Cluster List could not be updated" err
            | (w, none) => applyAll env attempt clusterName server client bundle agent w

/-- The loop over the Secrets. -/
def handleSecrets (env : Env) (clusterName : String) (bundle agent : ConfigMap) :
    (Nat → Attempt) → List Secret → World → World × Returned
  | _, [], w => (w, {})
  | attempts, secret :: secrets, w =>
    let rest := handleSecrets env clusterName bundle agent (fun i => attempts (i + 1)) secrets
    if Go.contains secret.key.name clusterName then
      match getClusterClient secret with
      | some client =>
        match handleSecret env (attempts 0) clusterName bundle agent client w with
        | (w, some returned) => (w, returned)
        | (w, none) => rest w
      | none => rest w
    else rest w

/-- One Reconcile: the Cluster of the request, what the management cluster holds at that time, and
how the calls end. -/
structure Reconciling where
  clusterName : String
  env : Env
  bundle : ConfigMap
  secrets : List Secret := []
  service : Service := {}
  getCluster : Option ApiError := none
  getBundle : Option ApiError := none
  list : Option ApiError := none
  getService : Option ApiError := none
  attempts : Nat → Attempt := fun _ => {}

/-- `Reconcile`. -/
def reconcile (w : World) (call : Reconciling) : World × Returned :=
  match call.getCluster, call.getBundle, call.list, call.getService with
  | some err, _, _, _ => (w, { error := (ignoreNotFound err).map ApiError.msg })
  | none, some err, _, _ => (w, { error := some err.msg })
  | none, none, some err, _ => (w, { error := wrap (some err) "cannot list secrets" })
  | none, none, none, some err => (w, { error := wrap (some err) "failed to get spire-server service" })
  | none, none, none, none =>
    let port := (call.service.ports.head?.map toString).getD ""
    let agent := createSpireAgentConfigMap "spire-agent" "spire" call.clusterName
      (getServiceExternalIP call.service) port
    handleSecrets call.env call.clusterName call.bundle agent call.attempts call.secrets w

end Nephio.Controllers.SpireBootstrap
