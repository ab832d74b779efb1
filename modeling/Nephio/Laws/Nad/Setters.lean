import Nephio.Data.Fallible
import Nephio.Nad.Config

/-!
# Laws.Nad.Setters: what the getters read after the setters

The four getters read four fields of a config (`Fields`), and a call that returns nil is meant to
assign one of them, or none. `Call.run_fields_iff` says for which calls it does: there has to be a
plugin that is not of type `tuning`, and after `SetCNIType("tuning")` there is none. Whether there is
one when a setter is called depends on the type the NAD is specified with, since that type decides
the default plugins. `getters_agree_iff` is the law for sequences of calls.
-/

namespace Nephio.Nad

variable {V S : Type}

/-! ## Configs -/

/-- The defaults have been filled in. -/
structure Filled (cniSpecType : CniSpecType) (config : NadConfig) : Prop where
  version : config.cniVersion = cniVersion
  plugins : config.plugins = [] → defaultPlugins cniSpecType = []

theorem Filled.editPlugins {t : CniSpecType} {config : NadConfig} (h : Filled t config)
    (edit : PluginCniType → PluginCniType) : Filled t (config.editPlugins edit) where
  version := h.version
  plugins hnil := h.plugins (List.map_eq_nil_iff.mp hnil)

/-- The object holds the config. -/
def Stored (api : NadApi V S) (k : KubeObject V) (config : NadConfig) : Prop :=
  ∃ s, api.nestedString k = .ok (some s) ∧ s ≠ api.emptyText ∧ api.unmarshal s = .ok config

theorem plugin?_eq_none_iff {config : NadConfig} :
    config.plugin? = none ↔ ∀ plugin ∈ config.plugins, plugin.type = tuningType := by
  simp [NadConfig.plugin?]

/-- Where all plugins are of type `tuning`, nothing is edited. -/
theorem editPlugins_of_plugin?_none {config : NadConfig} (h : config.plugin? = none)
    (edit : PluginCniType → PluginCniType) : config.editPlugins edit = config := by
  unfold NadConfig.editPlugins
  congr 1
  conv_rhs => rw [← List.map_id config.plugins]
  refine List.map_congr_left fun plugin hmem => ?_
  rw [if_pos (plugin?_eq_none_iff.mp h plugin hmem), id]

theorem plugin?_editPlugins {edit : PluginCniType → PluginCniType}
    (hedit : ∀ plugin, plugin.type ≠ tuningType → (edit plugin).type ≠ tuningType)
    (config : NadConfig) : (config.editPlugins edit).plugin? = config.plugin?.map edit := by
  unfold NadConfig.editPlugins NadConfig.plugin?
  simp only
  induction config.plugins with
  | nil => rfl
  | cons plugin plugins ih =>
    rw [List.map_cons, List.find?_cons, List.find?_cons]
    by_cases h : plugin.type = tuningType
    · simp only [h, if_true, ne_eq, not_true, decide_false]
      exact ih
    · simp only [h, hedit plugin h, if_false, ne_eq, not_false_eq_true, decide_true, Option.map_some]

/-- The edit of `SetCNIType("tuning")` leaves no plugin to read. -/
theorem plugin?_tuned (config : NadConfig) :
    (config.editPlugins fun plugin => { plugin with type := tuningType }).plugin? = none := by
  refine plugin?_eq_none_iff.mpr fun plugin hmem => ?_
  obtain ⟨plugin', -, rfl⟩ := List.mem_map.mp hmem
  split_ifs with htype
  · exact htype
  · rfl

/-- An edit that does not make a plugin `tuning` leaves a plugin to write to. -/
theorem plugin?_editPlugins_ne_none {edit : PluginCniType → PluginCniType} {config : NadConfig}
    (h : config.plugin? ≠ none)
    (hedit : ∀ plugin, plugin.type ≠ tuningType → (edit plugin).type ≠ tuningType) :
    (config.editPlugins edit).plugin? ≠ none := by
  rw [plugin?_editPlugins hedit, ne_eq, Option.map_eq_none_iff]
  exact h

namespace NadStruct

variable [DecidableEq S] {api : NadApi V S} {r r' : NadStruct V}

theorem getNadConfig_of_stored {config : NadConfig} (h : Stored api r.k config) :
    r.getNadConfig api = .ok
      { config with
        cniVersion := cniVersion
        plugins := if config.plugins = [] then defaultPlugins r.cniSpecType else config.plugins } := by
  obtain ⟨s, hread, hs, hdecode⟩ := h
  simp only [getNadConfig, getConfigSpec, hread, if_neg hs, hdecode]

theorem filled_of_getNadConfig {config : NadConfig} (h : r.getNadConfig api = .ok config) :
    Filled r.cniSpecType config := by
  unfold getNadConfig at h
  simp only at h
  split at h
  next => cases h
  next stored hstored =>
    cases h
    refine ⟨rfl, fun hnil => ?_⟩
    simp only at hnil
    split_ifs at hnil with hplugins
    · exact hnil
    · exact absurd hnil hplugins

/-- A config that is written is stored, and read the same. -/
theorem getNadConfig_of_set {config : NadConfig} (hconfig : Filled r.cniSpecType config)
    (h : r.setNadConfig api config = .ok r') :
    r'.cniSpecType = r.cniSpecType ∧ Stored api r'.k config ∧ r'.getNadConfig api = .ok config := by
  unfold setNadConfig at h
  obtain ⟨s, hs, h⟩ := Fallible.bind_eq_ok.mp h
  obtain ⟨k, hk, h⟩ := Fallible.bind_eq_ok.mp h
  cases h
  obtain ⟨s', hs', hne, hdecode⟩ := api.round_trip config
  cases hs.symm.trans hs'
  have hstored : Stored api k config := ⟨s, api.reads hk, hne, hdecode⟩
  refine ⟨rfl, hstored, ?_⟩
  rw [getNadConfig_of_stored hstored]
  refine congrArg Except.ok ?_
  have hplugins : (if config.plugins = [] then defaultPlugins r.cniSpecType else config.plugins) =
      config.plugins := by
    split_ifs with hnil
    · rw [hconfig.plugins hnil, hnil]
    · rfl
  rw [hplugins, ← hconfig.version]

/-- What the setters of the plugins do. -/
theorem getNadConfig_of_updatePlugins {edit : PluginCniType → PluginCniType}
    (h : r.updatePlugins api edit = .ok r') :
    ∃ config, r.getNadConfig api = .ok config ∧ r'.cniSpecType = r.cniSpecType ∧
      Stored api r'.k (config.editPlugins edit) ∧
      r'.getNadConfig api = .ok (config.editPlugins edit) := by
  obtain ⟨config, hconfig, h⟩ := Fallible.bind_eq_ok.mp h
  exact ⟨config, hconfig, getNadConfig_of_set ((filled_of_getNadConfig hconfig).editPlugins edit) h⟩

end NadStruct

/-! ## The fields that the getters read -/

structure Fields where
  cniType : String
  vlan : Int
  nadMaster : String
  ipamAddress : List Address
deriving DecidableEq

/-- What the four getters return. -/
def NadStruct.fields [DecidableEq S] (api : NadApi V S) (r : NadStruct V) : Except String Fields := do
  let cniType ← r.getCNIType api
  let vlan ← r.getVlan api
  let nadMaster ← r.getNadMaster api
  let ipamAddress ← r.getIpamAddress api
  return { cniType, vlan, nadMaster, ipamAddress }

/-- A plugin, as the getters read it. -/
def fieldsOf (vlan : Int) (plugin : Option PluginCniType) : Fields where
  cniType := (plugin.map PluginCniType.type).getD ""
  vlan := vlan
  nadMaster := (plugin.map PluginCniType.master).getD ""
  ipamAddress := (plugin.map fun plugin => plugin.ipam.addresses).getD []

section Getters

variable [DecidableEq S] {api : NadApi V S} {r r' : NadStruct V}

theorem fields_of_getNadConfig {config : NadConfig} (h : r.getNadConfig api = .ok config) :
    r.fields api = .ok (fieldsOf config.vlan config.plugin?) := by
  simp only [NadStruct.fields, NadStruct.getCNIType, NadStruct.getVlan, NadStruct.getNadMaster,
    NadStruct.getIpamAddress, h]
  rfl

theorem exists_of_fields {f : Fields} (h : r.fields api = .ok f) :
    ∃ config, r.getNadConfig api = .ok config ∧ f = fieldsOf config.vlan config.plugin? := by
  cases hconfig : r.getNadConfig api with
  | error err =>
    simp only [NadStruct.fields, NadStruct.getCNIType, hconfig] at h
    cases h
  | ok config =>
    rw [fields_of_getNadConfig hconfig] at h
    exact ⟨config, rfl, (Except.ok.inj h).symm⟩

/-- The getters read nothing off a default plugin. -/
theorem fieldsOf_defaultPlugins (vlan : Int) (t : CniSpecType) :
    fieldsOf vlan ((defaultPlugins t).find? fun plugin => plugin.type ≠ tuningType) =
      fieldsOf vlan none := by
  cases t <;> rfl

/-- The type that the NAD is specified with shows in the default plugins only. -/
theorem getNadConfig_retype (api : NadApi V S) (r : NadStruct V) :
    (∃ err, ∀ t, NadStruct.getNadConfig api { r with cniSpecType := t } = .error err) ∨
    ∃ stored : NadConfig, ∀ t, NadStruct.getNadConfig api { r with cniSpecType := t } = .ok
      { stored with
        cniVersion := cniVersion
        plugins := if stored.plugins = [] then defaultPlugins t else stored.plugins } := by
  have hspec : ∀ t, NadStruct.getConfigSpec api { r with cniSpecType := t } = r.getConfigSpec api :=
    fun _ => rfl
  simp only [NadStruct.getNadConfig, hspec]
  cases api.unmarshal (if r.getConfigSpec api = api.emptyText then api.braces
      else r.getConfigSpec api) with
  | error err => exact .inl ⟨_, fun _ => rfl⟩
  | ok stored => exact .inr ⟨stored, fun _ => rfl⟩

/-- The getters do not read the type that the NAD is specified with. -/
theorem fields_retype (r : NadStruct V) (t : CniSpecType) :
    NadStruct.fields api { r with cniSpecType := t } = r.fields api := by
  rcases getNadConfig_retype api r with ⟨err, hread⟩ | ⟨stored, hread⟩
  · have hr : r.getNadConfig api = .error err := hread r.cniSpecType
    simp only [NadStruct.fields, NadStruct.getCNIType, hread t, hr]
    rfl
  · rw [fields_of_getNadConfig (hread t), fields_of_getNadConfig (hread r.cniSpecType)]
    refine congrArg Except.ok ?_
    unfold NadConfig.plugin?
    split_ifs
    · rw [fieldsOf_defaultPlugins, fieldsOf_defaultPlugins]
    · rfl

end Getters

/-! ## One call -/

/-- A call of a setter. -/
inductive Call where
  | setCNIType (cniType : String)
  | setVlan (vlanType : Int)
  | setNadMaster (nadMaster : String)
  | setIpamAddress (addresses : Option (List Address))
  | setVlanID (vlanID : Int)
  | setBridgeVlan (vlanID : Int)
  | setBridgeTrunk (vlanID : Int)
  | setBridgeName (vlanID : Int)
  | setIpamRoutes (routes : Option (List Route))
deriving DecidableEq

namespace Call

variable [DecidableEq S]

def run (api : NadApi V S) (r : NadStruct V) : Call → Except String (NadStruct V)
  | setCNIType cniType => r.setCNIType api cniType
  | setVlan vlanType => r.setVlan api vlanType
  | setNadMaster nadMaster => r.setNadMaster api nadMaster
  | setIpamAddress addresses => r.setIpamAddress api addresses
  | setVlanID vlanID => r.setVlanID api vlanID
  | setBridgeVlan vlanID => r.setBridgeVlan api vlanID
  | setBridgeTrunk vlanID => r.setBridgeTrunk api vlanID
  | setBridgeName vlanID => r.setBridgeName api vlanID
  | setIpamRoutes routes => r.setIpamRoutes api routes

/-- What the call is meant to do to the fields: the value that is passed replaces its own. -/
def assign (f : Fields) : Call → Fields
  | setCNIType cniType => { f with cniType }
  | setVlan vlan => { f with vlan }
  | setNadMaster nadMaster => { f with nadMaster }
  | setIpamAddress addresses => { f with ipamAddress := addresses.getD [] }
  | _ => f

end Call

section Step

variable [DecidableEq S] {api : NadApi V S} {r r' : NadStruct V}

/-- There is a plugin to write to. -/
def NadStruct.Writable (api : NadApi V S) (r : NadStruct V) : Prop :=
  ∃ config, r.getNadConfig api = .ok config ∧ config.plugin? ≠ none

/-- The call finds what it is meant to assign. -/
def Call.Takes (api : NadApi V S) (r : NadStruct V) : Call → Prop
  | setCNIType cniType => cniType ≠ tuningType ∧
    NadStruct.Writable api { r with cniSpecType := specTypeOf cniType r.cniSpecType }
  | setNadMaster _ => r.Writable api
  | setIpamAddress addresses => addresses.getD [] = [] ∨ r.Writable api
  | _ => True

theorem writable_iff {config : NadConfig} (h : r.getNadConfig api = .ok config) :
    r.Writable api ↔ config.plugin? ≠ none := by
  constructor
  · rintro ⟨config', h', hne⟩
    cases h.symm.trans h'
    exact hne
  · intro hne
    exact ⟨config, h, hne⟩

/-- The fields after an edit of the plugins that keeps the type of a plugin, or keeps it from being
`tuning`. -/
theorem fields_of_updatePlugins {edit : PluginCniType → PluginCniType} {f : Fields}
    (hf : r.fields api = .ok f) (h : r.updatePlugins api edit = .ok r')
    (hedit : ∀ plugin, plugin.type ≠ tuningType → (edit plugin).type ≠ tuningType) :
    ∃ vlan plugin, f = fieldsOf vlan plugin ∧ (r.Writable api ↔ plugin ≠ none) ∧
      r'.fields api = .ok (fieldsOf vlan (plugin.map edit)) := by
  obtain ⟨config, hconfig, rfl⟩ := exists_of_fields hf
  obtain ⟨config', hconfig', -, -, hread⟩ := NadStruct.getNadConfig_of_updatePlugins h
  cases hconfig.symm.trans hconfig'
  refine ⟨config.vlan, config.plugin?, rfl, writable_iff hconfig, ?_⟩
  rw [fields_of_getNadConfig hread, plugin?_editPlugins hedit]
  rfl

/-- After `SetCNIType("tuning")` there is no plugin to read. -/
theorem fields_of_tuning {f : Fields} (hf : r.fields api = .ok f)
    (h : r.updatePlugins api (fun plugin => { plugin with type := tuningType }) = .ok r') :
    r'.fields api = .ok (fieldsOf f.vlan none) := by
  obtain ⟨config, hconfig, rfl⟩ := exists_of_fields hf
  obtain ⟨config', hconfig', -, -, hread⟩ := NadStruct.getNadConfig_of_updatePlugins h
  cases hconfig.symm.trans hconfig'
  rw [fields_of_getNadConfig hread, plugin?_tuned]
  rfl

theorem fields_of_setVlan {vlanType : Int} {f : Fields} (hf : r.fields api = .ok f)
    (h : r.setVlan api vlanType = .ok r') : r'.fields api = .ok { f with vlan := vlanType } := by
  unfold NadStruct.setVlan at h
  split_ifs at h
  obtain ⟨config, hconfig, h⟩ := Fallible.bind_eq_ok.mp h
  have hfilled := NadStruct.filled_of_getNadConfig hconfig
  obtain ⟨-, -, hread⟩ :=
    @NadStruct.getNadConfig_of_set V S _ api r r' { config with vlan := vlanType }
      ⟨hfilled.version, hfilled.plugins⟩ h
  rw [fields_of_getNadConfig hconfig] at hf
  cases hf
  rw [fields_of_getNadConfig hread]
  rfl

/-- A setter of what the getters do not read leaves the fields as they are. -/
theorem fields_of_unread {edit : PluginCniType → PluginCniType} {f : Fields}
    (hf : r.fields api = .ok f) (h : r.updatePlugins api edit = .ok r')
    (hedit : ∀ plugin, (edit plugin).type = plugin.type ∧ (edit plugin).master = plugin.master ∧
      (edit plugin).ipam.addresses = plugin.ipam.addresses) : r'.fields api = .ok f := by
  obtain ⟨vlan, plugin, rfl, -, hread⟩ := fields_of_updatePlugins hf h
    fun plugin hne => (hedit plugin).1 ▸ hne
  rw [hread]
  cases plugin with
  | none => rfl
  | some plugin =>
    obtain ⟨htype, hmaster, haddresses⟩ := hedit plugin
    simp only [fieldsOf, Option.map_some, Option.getD_some, htype, hmaster, haddresses]

theorem fields_of_updateVlan {vlanID : Int} {edit : PluginCniType → PluginCniType} {f : Fields}
    (hf : r.fields api = .ok f) (h : r.updateVlan api vlanID edit = .ok r')
    (hedit : ∀ plugin, (edit plugin).type = plugin.type ∧ (edit plugin).master = plugin.master ∧
      (edit plugin).ipam.addresses = plugin.ipam.addresses) : r'.fields api = .ok f := by
  unfold NadStruct.updateVlan at h
  split_ifs at h
  exact fields_of_unread hf h hedit

/-- **One call**: it assigns its field and no other, exactly when it takes. -/
theorem Call.run_fields_iff {call : Call} {f : Fields} (hf : r.fields api = .ok f)
    (h : call.run api r = .ok r') : r'.fields api = .ok (call.assign f) ↔ call.Takes api r := by
  cases call with
  | setCNIType cniType =>
    simp only [Call.run, NadStruct.setCNIType] at h
    split_ifs at h with hempty
    have hf₁ : NadStruct.fields api { r with cniSpecType := specTypeOf cniType r.cniSpecType } =
        .ok f := (fields_retype r _).trans hf
    show _ ↔ cniType ≠ tuningType ∧ _
    by_cases htuning : cniType = tuningType
    · subst htuning
      rw [fields_of_tuning hf₁ h]
      refine iff_of_false (fun heq => hempty ?_) fun hne => hne.1 rfl
      exact (congrArg Fields.cniType (Except.ok.inj heq)).symm
    · rw [and_iff_right htuning]
      obtain ⟨vlan, plugin, rfl, hwritable, hread⟩ := fields_of_updatePlugins hf₁ h
        fun _ _ => htuning
      rw [hwritable, hread]
      cases plugin with
      | none =>
        refine iff_of_false (fun heq => hempty ?_) fun hne => hne rfl
        exact (congrArg Fields.cniType (Except.ok.inj heq)).symm
      | some plugin => exact iff_of_true rfl (Option.some_ne_none plugin)
  | setVlan vlanType => exact iff_of_true (fields_of_setVlan hf h) trivial
  | setNadMaster nadMaster =>
    simp only [Call.run, NadStruct.setNadMaster] at h
    split_ifs at h with hempty
    obtain ⟨vlan, plugin, rfl, hwritable, hread⟩ := fields_of_updatePlugins hf h fun _ hne => hne
    show _ ↔ r.Writable api
    rw [hwritable, hread]
    cases plugin with
    | none =>
      refine iff_of_false (fun heq => hempty ?_) fun hne => hne rfl
      exact (congrArg Fields.nadMaster (Except.ok.inj heq)).symm
    | some plugin => exact iff_of_true rfl (Option.some_ne_none plugin)
  | setIpamAddress addresses =>
    cases addresses with
    | none => cases h
    | some addresses =>
      obtain ⟨vlan, plugin, rfl, hwritable, hread⟩ := fields_of_updatePlugins hf h fun _ hne => hne
      show _ ↔ addresses = [] ∨ r.Writable api
      rw [hwritable, hread]
      cases plugin with
      | none =>
        rw [or_iff_left fun hne => hne rfl]
        constructor
        · intro heq
          exact (congrArg Fields.ipamAddress (Except.ok.inj heq)).symm
        · rintro rfl
          rfl
      | some plugin => exact iff_of_true rfl (.inr (Option.some_ne_none plugin))
  | setVlanID vlanID => exact iff_of_true (fields_of_updateVlan hf h fun _ => ⟨rfl, rfl, rfl⟩) trivial
  | setBridgeVlan vlanID =>
    exact iff_of_true (fields_of_updateVlan hf h fun _ => ⟨rfl, rfl, rfl⟩) trivial
  | setBridgeTrunk vlanID =>
    exact iff_of_true (fields_of_updateVlan hf h fun _ => ⟨rfl, rfl, rfl⟩) trivial
  | setBridgeName vlanID =>
    exact iff_of_true (fields_of_updateVlan hf h fun _ => ⟨rfl, rfl, rfl⟩) trivial
  | setIpamRoutes routes =>
    refine iff_of_true ?_ trivial
    cases routes with
    | none =>
      cases h
      exact hf
    | some routes => exact fields_of_unread hf h fun _ => ⟨rfl, rfl, rfl⟩

/-! ## Where there stays a plugin to write to -/

theorem writable_of_updatePlugins {edit : PluginCniType → PluginCniType} (hw : r.Writable api)
    (h : r.updatePlugins api edit = .ok r')
    (hedit : ∀ plugin, plugin.type ≠ tuningType → (edit plugin).type ≠ tuningType) :
    r'.Writable api := by
  obtain ⟨config, hconfig, -, -, hread⟩ := NadStruct.getNadConfig_of_updatePlugins h
  exact ⟨_, hread, plugin?_editPlugins_ne_none ((writable_iff hconfig).mp hw) hedit⟩

/-- A CNI type that is recorded brings a plugin of its own. -/
theorem plugin?_specTypeOf {cniType : String} {t : CniSpecType}
    (h : (defaultPlugins t).find? (fun plugin => plugin.type ≠ tuningType) ≠ none) :
    (defaultPlugins (specTypeOf cniType t)).find? (fun plugin => plugin.type ≠ tuningType) ≠
      none := by
  unfold specTypeOf
  split_ifs
  · exact Option.some_ne_none _
  · exact Option.some_ne_none _
  · exact Option.some_ne_none _
  · exact Option.some_ne_none _
  · exact Option.some_ne_none _
  · exact h

theorem writable_retype (hw : r.Writable api) (cniType : String) :
    NadStruct.Writable api { r with cniSpecType := specTypeOf cniType r.cniSpecType } := by
  obtain ⟨config, hconfig, hne⟩ := hw
  rcases getNadConfig_retype api r with ⟨err, hread⟩ | ⟨stored, hread⟩
  · cases hconfig.symm.trans (hread r.cniSpecType)
  · cases hconfig.symm.trans (hread r.cniSpecType)
    refine ⟨_, hread _, ?_⟩
    unfold NadConfig.plugin? at hne ⊢
    simp only at hne ⊢
    split_ifs at hne ⊢ with hplugins
    · exact plugin?_specTypeOf hne
    · exact hne

theorem Call.takes_of_writable {call : Call} (hw : r.Writable api)
    (htuning : call ≠ setCNIType tuningType) : call.Takes api r := by
  cases call with
  | setCNIType cniType => exact ⟨fun h => htuning (h ▸ rfl), writable_retype hw cniType⟩
  | setNadMaster nadMaster => exact hw
  | setIpamAddress addresses => exact .inr hw
  | _ => trivial

theorem writable_of_updateVlan {vlanID : Int} {edit : PluginCniType → PluginCniType}
    (hw : r.Writable api) (h : r.updateVlan api vlanID edit = .ok r')
    (hedit : ∀ plugin, plugin.type ≠ tuningType → (edit plugin).type ≠ tuningType) :
    r'.Writable api := by
  unfold NadStruct.updateVlan at h
  split_ifs at h
  exact writable_of_updatePlugins hw h hedit

theorem Call.writable_of_run {call : Call} (hw : r.Writable api)
    (htuning : call ≠ setCNIType tuningType) (h : call.run api r = .ok r') : r'.Writable api := by
  cases call with
  | setCNIType cniType =>
    simp only [Call.run, NadStruct.setCNIType] at h
    split_ifs at h
    exact writable_of_updatePlugins (writable_retype hw cniType) h
      fun _ _ heq => htuning (congrArg setCNIType heq)
  | setVlan vlanType =>
    simp only [Call.run, NadStruct.setVlan] at h
    split_ifs at h
    obtain ⟨config, hconfig, h⟩ := Fallible.bind_eq_ok.mp h
    have hfilled := NadStruct.filled_of_getNadConfig hconfig
    obtain ⟨-, -, hread⟩ :=
      @NadStruct.getNadConfig_of_set V S _ api r r' { config with vlan := vlanType }
        ⟨hfilled.version, hfilled.plugins⟩ h
    exact ⟨_, hread, (writable_iff hconfig).mp hw⟩
  | setNadMaster nadMaster =>
    simp only [Call.run, NadStruct.setNadMaster] at h
    split_ifs at h
    exact writable_of_updatePlugins hw h fun _ hne => hne
  | setIpamAddress addresses =>
    cases addresses with
    | none => cases h
    | some addresses => exact writable_of_updatePlugins hw h fun _ hne => hne
  | setVlanID vlanID => exact writable_of_updateVlan hw h fun _ hne => hne
  | setBridgeVlan vlanID => exact writable_of_updateVlan hw h fun _ hne => hne
  | setBridgeTrunk vlanID => exact writable_of_updateVlan hw h fun _ hne => hne
  | setBridgeName vlanID => exact writable_of_updateVlan hw h fun _ hne => hne
  | setIpamRoutes routes =>
    cases routes with
    | none =>
      cases h
      exact hw
    | some routes => exact writable_of_updatePlugins hw h fun _ hne => hne

/-! ## Sequences of calls -/

/-- A sequence of calls that all return nil. -/
def runAll (api : NadApi V S) (r : NadStruct V) (calls : List Call) : Except String (NadStruct V) :=
  calls.foldlM (Call.run api) r

theorem runAll_append {pre post : List Call} (h : runAll api r (pre ++ post) = .ok r') :
    ∃ s, runAll api r pre = .ok s ∧ runAll api s post = .ok r' := by
  rw [runAll, List.foldlM_append] at h
  exact Fallible.bind_eq_ok.mp h

theorem runAll_concat {calls : List Call} {call : Call} :
    runAll api r (calls ++ [call]) = .ok r' ↔
      ∃ s, runAll api r calls = .ok s ∧ call.run api s = .ok r' := by
  rw [runAll, List.foldlM_append, Fallible.bind_eq_ok]
  refine exists_congr fun s => and_congr_right fun _ => ?_
  rw [List.foldlM_cons]
  cases call.run api s <;> rfl

/-- The getters agree with the calls, after each of them. -/
def Agrees (api : NadApi V S) (r : NadStruct V) (f : Fields) (calls : List Call) : Prop :=
  ∀ pre, pre <+: calls → ∀ s, runAll api r pre = .ok s → s.fields api = .ok (pre.foldl Call.assign f)

/-- Each of the calls finds what it is meant to assign. -/
def AllTake (api : NadApi V S) (r : NadStruct V) (calls : List Call) : Prop :=
  ∀ pre call, pre ++ [call] <+: calls → ∀ s, runAll api r pre = .ok s → call.Takes api s

theorem agrees_iff_allTake {calls : List Call} {f : Fields} (hf : r.fields api = .ok f)
    (h : runAll api r calls = .ok r') : Agrees api r f calls ↔ AllTake api r calls := by
  constructor
  · intro hagrees pre call hpre s hs
    obtain ⟨post, rfl⟩ := hpre
    obtain ⟨s', hs', -⟩ := runAll_append h
    obtain ⟨s₀, hs₀, hcall⟩ := runAll_concat.mp hs'
    cases hs.symm.trans hs₀
    have hbefore := hagrees pre ⟨[call] ++ post, List.append_assoc pre [call] post ▸ rfl⟩ s hs
    have hafter := hagrees (pre ++ [call]) ⟨post, rfl⟩ s' hs'
    rw [List.foldl_append] at hafter
    exact (Call.run_fields_iff hbefore hcall).mp hafter
  · intro htakes pre
    induction pre using List.reverseRecOn with
    | nil =>
      intro _ s hs
      cases hs
      exact hf
    | append_singleton pre call ih =>
      intro hpre s hs
      obtain ⟨s₀, hs₀, hcall⟩ := runAll_concat.mp hs
      have hbefore := ih ((List.prefix_append pre [call]).trans hpre) s₀ hs₀
      rw [List.foldl_append]
      exact (Call.run_fields_iff hbefore hcall).mpr (htakes pre call hpre s₀ hs₀)

/-- From a NAD with a plugin to write to, only the type `tuning` is in the way. -/
theorem allTake_of_writable {calls : List Call} (hw : r.Writable api)
    (htuning : ∀ call ∈ calls, call ≠ .setCNIType tuningType) : AllTake api r calls := by
  intro pre call hpre s hs
  have hmem : ∀ c ∈ pre, c ≠ .setCNIType tuningType := fun c hc =>
    htuning c (hpre.subset (List.mem_append_left _ hc))
  have hws : s.Writable api :=
    Fallible.foldlM_invariant (fun r => r.Writable api)
      (fun _ _ c hc hw hrun => Call.writable_of_run hw (hmem c hc) hrun) hw hs
  exact Call.takes_of_writable hws
    (htuning call (hpre.subset (List.mem_append_right _ (List.mem_singleton_self _))))

/-- **The getters and the setters.** The getters agree with the calls, after each of them, exactly
when each call finds what it is meant to assign. That is so wherever the NAD has a plugin that is not
of type `tuning`, if no call asks for that type. -/
theorem getters_agree_iff {calls : List Call} {f : Fields} (hf : r.fields api = .ok f)
    (h : runAll api r calls = .ok r') :
    (Agrees api r f calls ↔ AllTake api r calls) ∧
    (r.Writable api → (∀ call ∈ calls, call ≠ .setCNIType tuningType) →
      r'.fields api = .ok (calls.foldl Call.assign f)) := by
  refine ⟨agrees_iff_allTake hf h, fun hw htuning => ?_⟩
  exact (agrees_iff_allTake hf h).mpr (allTake_of_writable hw htuning) calls List.prefix_rfl r' h

end Step

/-! ## Runs -/

/-- Texts that have been decoded already: the empty text, and configs. -/
def plainApi : NadApi (Option NadConfig) (Option NadConfig) where
  emptyText := none
  braces := some {}
  unmarshal
    | none => .error "unexpected end of JSON input"
    | some config => .ok config
  marshal config := .ok (some config)
  nestedString o := .ok o.spec
  setNestedString o s := .ok { o with spec := some s }
  newFromGoStruct name ns :=
    .ok { apiVersion := "k8s.cni.cncf.io/v1", kind := "NetworkAttachmentDefinition", ns, name }
  unmarshal_braces := rfl
  round_trip config := ⟨some config, rfl, Option.some_ne_none config, rfl⟩
  reads := by
    intro o o' s h
    cases h
    rfl
  writes _ _ := ⟨_, rfl⟩
  reads_new := by
    intro name ns o h
    cases h
    exact .inl rfl
  writes_new _ _ := ⟨_, rfl⟩

/-- A NAD without a config. -/
def newNad (cniSpecType : CniSpecType) : NadStruct (Option NadConfig) where
  k := { apiVersion := "k8s.cni.cncf.io/v1", kind := "NetworkAttachmentDefinition", name := "upf-n3" }
  cniSpecType := cniSpecType

/-- The type, the master and the VLAN of a new NAD are all set. -/
theorem getters_agree_on_new :
    ∃ r, runAll plainApi (newNad .otherType)
        [.setCNIType "macvlan", .setNadMaster "eth0", .setVlan 5, .setNadMaster "eth1"] = .ok r ∧
      r.fields plainApi =
        .ok { cniType := "macvlan", vlan := 5, nadMaster := "eth1", ipamAddress := [] } := by
  refine ⟨_, rfl, ?_⟩
  exact (@getters_agree_iff _ _ _ plainApi (newNad .otherType) _
    [.setCNIType "macvlan", .setNadMaster "eth0", .setVlan 5, .setNadMaster "eth1"] _ rfl rfl).2
    ⟨_, rfl, Option.some_ne_none _⟩ (by decide)

/-- A NAD for a VLAN claim only drops its master. With the type `tuning`, a NAD loses it. -/
theorem writes_are_dropped :
    (∃ r, runAll plainApi (newNad .vlanClaimOnly) [.setNadMaster "eth0"] = .ok r ∧
      r.getNadMaster plainApi = .ok "") ∧
    ∃ r, runAll plainApi (newNad .otherType) [.setNadMaster "eth0", .setCNIType "tuning"] = .ok r ∧
      r.getCNIType plainApi = .ok "" ∧ r.getNadMaster plainApi = .ok "" :=
  ⟨⟨_, rfl, rfl⟩, _, rfl, rfl, rfl⟩

end Nephio.Nad
