import Nephio.Api
import Nephio.ClaimFns.Status
import Nephio.Go.Slice

/-!
# ueransim-deploy-fn

`updateResource` of ueransim-deploy-fn: the interfaces of a gNB are entered in the annotations of its
Deployment, and its configuration is written to the ConfigMaps that the Deployment mounts. The name of
a ConfigMap is read from the first volume, in every turn of the loop.

Left out: the Service, which is commented out, and `desiredOwnedResourceList`, which wants nothing.
-/

namespace Nephio.Ueransim

open ClaimFns Req

/-- What is read of a volume: its name, and the name of its ConfigMap, if it has that source. -/
structure Volume where
  name : String
  configMap : Option String := none
deriving DecidableEq, Repr

/-- `appsv1.Deployment`. `P` is what is neither read nor written. -/
structure Deployment (P : Type) where
  name : String
  ns : String := ""
  annotations : List (String × String) := []
  volumes : List Volume := []
  rest : P

/-- `corev1.ConfigMap`. -/
structure ConfigMap where
  name : String
  ns : String
  labels : List (String × String)
  data : List (String × String)
deriving DecidableEq, Repr

/-- The reference of a ConfigMap. -/
def configMapRef (name : String) : ObjectReference :=
  { apiVersion := "v1", kind := "ConfigMap", name := name }

/-- The decoders and encoders, which are third-party, and `iputil`. -/
structure DeployApi (V P : Type) where
  deployment : KubeObject V → Except String (Deployment P)
  interface : KubeObject V → Except String InterfaceStatus
  ipClaim : KubeObject V → Except String IPClaimStatus
  /-- `iputil.New(..).Addr().String()`. -/
  address : String → Except String String
  fromDeployment : Deployment P → Except String (KubeObject V)
  fromConfigMap : ConfigMap → Except String (KubeObject V)
  fromDeployment_ok : ∀ d, ∃ o, fromDeployment d = .ok o
  fromConfigMap_ok : ∀ cm, ∃ o, fromConfigMap cm = .ok o ∧ o.ref = configMapRef cm.name

/-- `NetworksAnnotation`. -/
def networksKey : String := "k8s.v1.cni.cncf.io/networks"

/-- `getLabels`. -/
def getLabels : List (String × String) :=
  [("app.kubernetes.io/version", "v3.2.6"), ("app", "ueransim"), ("component", "gnb")]

/-! ## The templates -/

/-- `configurationTemplateValues`. -/
structure ConfigurationTemplateValues where
  n2 : String := ""
  n3 : String := ""
  amf : List String := []
deriving DecidableEq, Repr

/-- `renderConfigurationTemplate`. -/
def renderConfigurationTemplate (values : ConfigurationTemplateValues) : String :=
  "mcc: '208'          # Mobile Country Code value\n" ++
  "mnc: '93'           # Mobile Network Code value (2 or 3 digits)\n" ++
  "nci: '0x000000010'  # NR Cell Identity (36-bit)\n" ++
  "idLength: 32        # NR gNB ID length in bits [22...32]\n" ++
  "tac: 1              # Tracking Area Code\n" ++
  "# List of supported S-NSSAIs by this gNB\n" ++
  "slices:\n  - sst: 0x1\n    sd: 0x010203\n" ++
  "# Indicates whether or not SCTP stream number errors should be ignored.\n" ++
  "ignoreStreamIds: true\n\n" ++
  "linkIp: 0.0.0.0   # gNB's local IP address for Radio Link Simulation " ++
  "(Usually same with local IP)\n" ++
  "# gNB's local IP address for N2 Interface (Usually same with local IP)\n" ++
  "ngapIp: " ++ values.n2 ++ "\n" ++
  "gtpIp: " ++ values.n3 ++
  "    # gNB's local IP address for N3 Interface (Usually same with local IP)\n\n" ++
  "# List of AMF address information\namfConfigs:" ++
  String.join (values.amf.map fun amf => "\n  - address: " ++ amf ++ "\n    port: 38412") ++ "\n"

/-- `nadTemplateValues`. -/
structure NadTemplateValues where
  name : String
  interface : String
  ips : String
  gateways : String
deriving DecidableEq, Repr

def NadTemplateValues.render (nad : NadTemplateValues) : String :=
  "\n  \"name\": \"" ++ nad.name ++ "\",\n  \"interface\": \"" ++ nad.interface ++
  "\",\n  \"ips\": [\"" ++ nad.ips ++ "\"],\n  \"gateways\": [\"" ++ nad.gateways ++ "\"]"

/-- `renderNadTemplate`. -/
def renderNadTemplate (values : List NadTemplateValues) : String :=
  "[\n \x7b" ++ "\n \x7d,\n \x7b".intercalate (values.map NadTemplateValues.render) ++ "\n \x7d\n]\n"

/-! ## The function -/

section Update

variable {V P : Type} (api : DeployApi V P)

/-- `getAmfAddresses`. -/
def getAmfAddresses (ipClaimObjs : List (KubeObject V)) : Except String (List String) :=
  ipClaimObjs.foldlM (fun amfAddresses o => do
    let status ← api.ipClaim o
    match status.ipPrefix with
    | none => return amfAddresses
    | some ipPrefix => return amfAddresses ++ [← api.address ipPrefix]) []

/-- `getIPAddress`. -/
def getIPAddress (name : String) (status : InterfaceStatus) : Except String String :=
  match status.ipClaimStatus.getD [] with
  | [] => .error ("no ip status provided in interface: " ++ name)
  | ipStatus :: _ =>
    match ipStatus.ipPrefix with
    | none => .error ("no ip address provided in interface: " ++ name)
    | some ipPrefix => api.address ipPrefix

/-- A turn of the loop of `getConfiguration`. -/
def addInterface (values : ConfigurationTemplateValues) (o : KubeObject V) :
    Except String ConfigurationTemplateValues := do
  let status ← api.interface o
  if o.name = "n2" then return { values with n2 := ← getIPAddress api o.name status }
  else if o.name = "n3" then return { values with n3 := ← getIPAddress api o.name status }
  else return values

/-- `getConfiguration`. -/
def getConfiguration (itfceObjs : List (KubeObject V)) (amfs : List String) :
    Except String String := do
  let values ← itfceObjs.foldlM (addInterface api) { amf := amfs }
  if values.n2 = "" ∨ values.n3 = "" then
    .error ("cannot render config, expecting n2, got " ++ values.n2 ++ " and n3, got " ++ values.n3)
  else return renderConfigurationTemplate values

/-- `getNetworkAttachmentDefinitionObjects`. -/
def getNetworkAttachmentDefinitionObjects (deployName : String) (itfceObjs : List (KubeObject V)) :
    Except String String := do
  let values ← itfceObjs.foldlM (fun values o => do
    let status ← api.interface o
    return values ++ (status.ipClaimStatus.getD []).filterMap fun ipStatus =>
      match ipStatus.gateway, ipStatus.ipPrefix with
      | some gateway, some ipPrefix =>
        some { name := deployName ++ "-" ++ o.name, interface := o.name, ips := ipPrefix
               gateways := gateway }
      | _, _ => none) []
  return renderNadTemplate values

/-- The loop over the volumes. Every turn reads the ConfigMap of the first one. -/
def addConfigMaps (deploy : Deployment P) (configuration : String) :
    List Volume → List (KubeObject V) → Except Go.Panic (Except String (List (KubeObject V)))
  | [], resources => .ok (.ok resources)
  | volume :: volumes, resources =>
    match volume.configMap with
    | none => addConfigMaps deploy configuration volumes resources
    | some _ =>
      match deploy.volumes.head?.bind Volume.configMap with
      | none => .error .nilPointer
      | some name =>
        match api.fromConfigMap
          { name := name, ns := deploy.ns, labels := getLabels
            data := [("gnb-config.yaml", configuration)] } with
        | .error err => .ok (.error err)
        | .ok cmKo => addConfigMaps deploy configuration volumes (resources ++ [cmKo])

/-- The Deployment with the networks of the gNB. -/
def Deployment.withNetworks (deploy : Deployment P) (nadString : String) : Deployment P :=
  { deploy with annotations := Keyed.upsert Prod.fst (networksKey, nadString) deploy.annotations }

/-- `deployFn.updateResource`. -/
def updateResource (deployObj : Option (KubeObject V)) (objs : List (KubeObject V)) :
    Except Go.Panic (Except String (List (KubeObject V))) :=
  match deployObj with
  | none => .ok (.error "expected a for object but got nil")
  | some deployObj =>
    match getAmfAddresses api (objs.filter (isGVK ipClaimGVK)) with
    | .error err => .ok (.error err)
    | .ok amfs =>
      let itfceObjs := objs.filter
        (isGVK { apiVersion := groupVersion, kind := "Interface", name := "" })
      if itfceObjs.isEmpty then .ok (.ok [deployObj])
      else
        match api.deployment deployObj with
        | .error err => .ok (.error err)
        | .ok deploy =>
          match getNetworkAttachmentDefinitionObjects api deploy.name itfceObjs with
          | .error err => .ok (.error err)
          | .ok nadString =>
            let deploy := deploy.withNetworks nadString
            match api.fromDeployment deploy with
            | .error err => .ok (.error err)
            | .ok deployKo =>
              match getConfiguration api itfceObjs amfs with
              | .error err => .ok (.error err)
              | .ok configuration => addConfigMaps api deploy configuration deploy.volumes [deployKo]

end Update

end Nephio.Ueransim
