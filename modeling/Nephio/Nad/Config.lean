import Nephio.Kptfile.KubeObject

/-!
# The config of a network attachment definition (NAD)

`lib/nad/v1`: a NAD is a KRM object whose field `spec.config` holds a JSON text. Every getter decodes
that text, and every setter decodes it, edits the plugins and encodes it again. A config without
plugins is given the default ones for the type the NAD is specified with. The plugins of type
`tuning` are passed over, by getters and setters alike.

`S` stands for the texts. Go's `encoding/json` and the KRM object are not part of the repository: a
`NadApi` has what is called of them, and what is relied on.
-/

namespace Nephio.Nad

def cniVersion : String := "0.3.1"

def modeBridge : String := "bridge"

def modeL2 : String := "l2"

def staticNadType : String := "static"

def tuningType : String := "tuning"

@[ext]
structure Address where
  address : String := ""
  gateway : String := ""
deriving DecidableEq, Repr

@[ext]
structure Route where
  destination : String := ""
  gateway : String := ""
deriving DecidableEq, Repr

structure Ipam where
  type : String := ""
  addresses : List Address := []
  routes : List Route := []
deriving DecidableEq, Repr

structure Capabilities where
  ips : Bool := false
  mac : Bool := false
deriving DecidableEq, Repr

structure VlanTrunk where
  minID : Int := 0
  maxID : Int := 0
  id : Int := 0
deriving DecidableEq, Repr

structure PluginCniType where
  type : String := ""
  capabilities : Capabilities := {}
  master : String := ""
  mode : String := ""
  ipam : Ipam := {}
  vlanId : Int := 0
  linkInContainer : Bool := false
  bridge : String := ""
  vlan : Int := 0
  vlanTrunk : List VlanTrunk := []
  name : String := ""
deriving DecidableEq, Repr

structure NadConfig where
  cniVersion : String := ""
  vlan : Int := 0
  plugins : List PluginCniType := []
deriving DecidableEq, Repr

/-- `CniSpecType`. It is an `int64`, so that there are values without a name. -/
inductive CniSpecType where
  | otherType
  | vlanClaimOnly
  | ipVlanType
  | sriovType
  | macVlanType
  | vlanType
  | bridgeType
  | unnamed (value : Int)
deriving DecidableEq, Repr

/-- The codec, and the field `spec.config` of a KRM object. -/
structure NadApi (V S : Type) where
  /-- The text `""`. -/
  emptyText : S
  /-- The text `"{}"`, with braces. -/
  braces : S
  unmarshal : S → Except String NadConfig
  marshal : NadConfig → Except String S
  /-- `NestedString("spec", "config")`. -/
  nestedString : KubeObject V → Except String (Option S)
  /-- `SetNestedString(value, "spec", "config")`. -/
  setNestedString : KubeObject V → S → Except String (KubeObject V)
  /-- `kubeobject.NewFromGoStruct` of a NAD with a name, a namespace and nothing else. -/
  newFromGoStruct : String → String → Except String (KubeObject V)
  unmarshal_braces : unmarshal braces = .ok {}
  /-- A config is encoded, to a text that is not empty, and comes back. -/
  round_trip : ∀ config, ∃ s, marshal config = .ok s ∧ s ≠ emptyText ∧ unmarshal s = .ok config
  reads : ∀ {o o' s}, setNestedString o s = .ok o' → nestedString o' = .ok (some s)
  writes : ∀ {o o' s}, setNestedString o s = .ok o' → ∀ s', ∃ o'', setNestedString o' s' = .ok o''
  reads_new : ∀ {name ns o}, newFromGoStruct name ns = .ok o →
    nestedString o = .ok none ∨ nestedString o = .ok (some emptyText)
  writes_new : ∀ {name ns o}, newFromGoStruct name ns = .ok o →
    ∀ s, ∃ o', setNestedString o s = .ok o'

/-- `NadStruct`. -/
structure NadStruct (V : Type) where
  k : KubeObject V
  cniSpecType : CniSpecType := .otherType

/-- What `getNadConfig` gives a config without plugins. -/
def defaultPlugins : CniSpecType → List PluginCniType
  | .vlanClaimOnly => []
  | .ipVlanType =>
    [{ capabilities := { ips := true }, mode := modeL2, ipam := { type := staticNadType } }]
  | .macVlanType =>
    [{ capabilities := { ips := true }, mode := modeBridge, ipam := { type := staticNadType } },
      { capabilities := { mac := true }, type := tuningType }]
  | .sriovType =>
    [{ capabilities := { ips := true }, mode := modeBridge, ipam := { type := staticNadType } }]
  | .vlanType => [{ ipam := { type := staticNadType } }]
  | .bridgeType => [{ ipam := { type := staticNadType } }]
  | .otherType =>
    [{ capabilities := { ips := true }, mode := modeBridge, ipam := { type := staticNadType } }]
  | .unnamed _ => []

/-- The type that `SetCNIType` records for a CNI type; the other texts leave it as it is. -/
def specTypeOf (cniType : String) (cniSpecType : CniSpecType) : CniSpecType :=
  if cniType = "ipvlan" then .ipVlanType
  else if cniType = "macvlan" then .macVlanType
  else if cniType = "sriov" then .sriovType
  else if cniType = "vlan" then .vlanType
  else if cniType = "bridge" then .bridgeType
  else cniSpecType

/-- The loop of the setters over the plugins. -/
def NadConfig.editPlugins (edit : PluginCniType → PluginCniType) (config : NadConfig) : NadConfig :=
  { config with
    plugins := config.plugins.map fun plugin => if plugin.type = tuningType then plugin else edit plugin }

/-- The loop of the getters over the plugins: the first one that is not of type `tuning`. -/
def NadConfig.plugin? (config : NadConfig) : Option PluginCniType :=
  config.plugins.find? fun plugin => plugin.type ≠ tuningType

namespace NadStruct

variable {V S : Type} [DecidableEq S]

/-- `GetConfigSpec`. -/
def getConfigSpec (api : NadApi V S) (r : NadStruct V) : S :=
  match api.nestedString r.k with
  | .ok (some s) => s
  | .ok none => api.emptyText
  | .error _ => api.emptyText

/-- `getNadConfig`. -/
def getNadConfig (api : NadApi V S) (r : NadStruct V) : Except String NadConfig :=
  let configSpec := r.getConfigSpec api
  let configSpec := if configSpec = api.emptyText then api.braces else configSpec
  match api.unmarshal configSpec with
  | .error err => .error ("invalid NAD Config, " ++ err)
  | .ok config =>
    .ok { config with
      cniVersion := cniVersion
      plugins := if config.plugins = [] then defaultPlugins r.cniSpecType else config.plugins }

/-! ## The getters -/

/-- `GetCNIType`. -/
def getCNIType (api : NadApi V S) (r : NadStruct V) : Except String String := do
  let config ← r.getNadConfig api
  return (config.plugin?.map PluginCniType.type).getD ""

/-- `GetVlan`. -/
def getVlan (api : NadApi V S) (r : NadStruct V) : Except String Int := do
  let config ← r.getNadConfig api
  return config.vlan

/-- `GetNadMaster`. -/
def getNadMaster (api : NadApi V S) (r : NadStruct V) : Except String String := do
  let config ← r.getNadConfig api
  return (config.plugin?.map PluginCniType.master).getD ""

/-- `GetIpamAddress`. -/
def getIpamAddress (api : NadApi V S) (r : NadStruct V) : Except String (List Address) := do
  let config ← r.getNadConfig api
  return (config.plugin?.map fun plugin => plugin.ipam.addresses).getD []

/-! ## The setters

The receiver as it is after a call that returns nil. `SetCNIType` may have changed it before it
returns an error; nothing reads it then. -/

/-- `setNadConfig`. -/
def setNadConfig (api : NadApi V S) (r : NadStruct V) (config : NadConfig) :
    Except String (NadStruct V) := do
  let b ← api.marshal config
  let k ← api.setNestedString r.k b
  return { r with k }

/-- The body that the setters of the plugins share. -/
def updatePlugins (api : NadApi V S) (r : NadStruct V) (edit : PluginCniType → PluginCniType) :
    Except String (NadStruct V) := do
  let nadConfigStruct ← r.getNadConfig api
  r.setNadConfig api (nadConfigStruct.editPlugins edit)

/-- `SetCNIType`. -/
def setCNIType (api : NadApi V S) (r : NadStruct V) (cniType : String) :
    Except String (NadStruct V) :=
  if cniType = "" then .error "unknown cniType"
  else
    let r := { r with cniSpecType := specTypeOf cniType r.cniSpecType }
    r.updatePlugins api fun plugin => { plugin with type := cniType }

/-- `SetVlan`. -/
def setVlan (api : NadApi V S) (r : NadStruct V) (vlanType : Int) : Except String (NadStruct V) :=
  if vlanType = 0 then .error "unknown vlanType"
  else do
    let nadConfigStruct ← r.getNadConfig api
    r.setNadConfig api { nadConfigStruct with vlan := vlanType }

/-- The setters that take the id of a VLAN. -/
def updateVlan (api : NadApi V S) (r : NadStruct V) (vlanID : Int)
    (edit : PluginCniType → PluginCniType) : Except String (NadStruct V) :=
  if vlanID = 0 then .error "unknown vlanID" else r.updatePlugins api edit

/-- `SetVlanID`. -/
def setVlanID (api : NadApi V S) (r : NadStruct V) (vlanID : Int) : Except String (NadStruct V) :=
  r.updateVlan api vlanID fun plugin => { plugin with vlanId := vlanID }

/-- `SetBridgeVlan`. -/
def setBridgeVlan (api : NadApi V S) (r : NadStruct V) (vlanID : Int) :
    Except String (NadStruct V) :=
  r.updateVlan api vlanID fun plugin => { plugin with vlan := vlanID }

/-- `SetBridgeTrunk`. -/
def setBridgeTrunk (api : NadApi V S) (r : NadStruct V) (vlanID : Int) :
    Except String (NadStruct V) :=
  r.updateVlan api vlanID fun plugin => { plugin with vlanTrunk := [{ id := vlanID }] }

/-- `SetBridgeName`. -/
def setBridgeName (api : NadApi V S) (r : NadStruct V) (vlanID : Int) :
    Except String (NadStruct V) :=
  r.updateVlan api vlanID fun plugin =>
    { plugin with bridge := "cni" ++ toString vlanID, name := "cni" ++ toString vlanID }

/-- `SetNadMaster`. -/
def setNadMaster (api : NadApi V S) (r : NadStruct V) (nadMaster : String) :
    Except String (NadStruct V) :=
  if nadMaster = "" then .error "unknown nad master interface"
  else r.updatePlugins api fun plugin => { plugin with master := nadMaster }

/-- `SetIpamAddress`. The slice may be nil. -/
def setIpamAddress (api : NadApi V S) (r : NadStruct V) (addresses : Option (List Address)) :
    Except String (NadStruct V) :=
  match addresses with
  | none => .error "unknown IPAM addresses"
  | some addresses =>
    r.updatePlugins api fun plugin => { plugin with ipam := { plugin.ipam with addresses } }

/-- `SetIpamRoutes`. Where the slice is nil, the call returns nil. -/
def setIpamRoutes (api : NadApi V S) (r : NadStruct V) (routes : Option (List Route)) :
    Except String (NadStruct V) :=
  match routes with
  | none => .ok r
  | some routes =>
    r.updatePlugins api fun plugin => { plugin with ipam := { plugin.ipam with routes } }

end NadStruct

end Nephio.Nad
