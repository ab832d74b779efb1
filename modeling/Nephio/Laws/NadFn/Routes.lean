import Nephio.Laws.NadFn.Gather
import Nephio.Laws.Nad.Setters

/-!
# Laws.NadFn.Routes: the addresses and the routes of a NAD

`returns_iff` takes a call on one Interface apart: what comes before the IPClaims (`Begins`), which
does not look at them, and the IPClaims, which end it (`Ends`). `updateResourceFn_routes` then says
which addresses and which routes stand in each plugin of the NAD that is not of type `tuning`.
-/

namespace Nephio.NadFn

open Req Nad ClaimFns

variable {V S : Type} [DecidableEq S] {api : NadFnApi V S} {sort : Go.SliceSort}

/-! ## A call on one Interface -/

/-- How far a call gets before the IPClaims. -/
inductive Begun (V : Type) where
  /-- The Interface is on the default network. -/
  | nothing
  /-- There are no IPClaims. -/
  | vlanOnly (k : KubeObject V)
  | attached (nad : NadStruct V)

/-- The id of the last of the VLANClaims. -/
def lastVlanID (api : NadFnApi V S) (vlanClaimObjs : List (KubeObject V)) : Int :=
  vlanClaimObjs.foldl (fun _ vlanClaim => api.vlanID vlanClaim) 0

/-- The new NAD of the Interface. -/
def newNadFor (api : NadFnApi V S) (itfce : KubeObject V) : Except String (KubeObject V) :=
  api.newFromGoStruct (getForName itfce.annotations ++ "-" ++ itfce.name)
    (itfce.getAnnotation specializerNamespace)

/-- The call gets as far. `claims` says whether there are IPClaims. -/
def Begins (api : NadFnApi V S) (wc : WorkloadClusterSpec) (itfce : KubeObject V)
    (vlanClaimObjs : List (KubeObject V)) (claims : Bool) (b : Begun V) : Prop :=
  (getForName itfce.annotations ≠ "" ∧ itfce.getAnnotation specializerNamespace ≠ "") ∧
  ∃ spec status ni, api.interface itfce = .ok (spec, status) ∧ spec.networkInstance = some ni ∧
    match b with
    | .nothing => ni.name = defaultPODNetwork
    | .vlanOnly k => ni.name ≠ defaultPODNetwork ∧ claims = false ∧ vlanClaimObjs ≠ [] ∧
      newNadFor api itfce = .ok k
    | .attached nad => ni.name ≠ defaultPODNetwork ∧ claims = true ∧ ∃ k,
      newNadFor api itfce = .ok k ∧
        setInterface api wc (lastVlanID api vlanClaimObjs) { k } itfce = .ok (.ok nad)

/-- The call ends with the objects. -/
def Ends (api : NadFnApi V S) (sort : Go.SliceSort) (networkObjs : List Network)
    (ipClaimObjs : List (KubeObject V)) (out : List (KubeObject V)) : Begun V → Prop
  | .nothing => out = []
  | .vlanOnly k => out = [k]
  | .attached nad => ∃ nad', setIpam api sort networkObjs ipClaimObjs nad = .ok nad' ∧ out = [nad'.k]

/-- The call returns the objects. -/
def Returns (api : NadFnApi V S) (sort : Go.SliceSort) (f : Function) (objs out : List (KubeObject V)) :
    Prop :=
  ∃ f', f.updateResourceFn api sort objs = .ok (f', .ok out)

theorem untilError_singleton {σ α ε : Type} (step : σ → α → Except Go.Panic (Except ε σ)) (s : σ)
    (a : α) : Fallible.untilError step s [a] = (step s a).map fun
      | .ok s' => (s', none)
      | .error e => (s, some e) := by
  simp only [Fallible.untilError]
  rcases step s a with p | (e | s')
  · rfl
  · rfl
  · rfl

/-- The second half of the call. -/
theorem generate_iff {f : Function} {wc : WorkloadClusterSpec} {itfce : KubeObject V}
    {ips vlans out : List (KubeObject V)} :
    f.generate api sort wc itfce [itfce] ips vlans = .ok (.ok out) ↔
      ∃ k, api.newFromGoStruct (f.forName ++ "-" ++ itfce.name) f.forNamespace = .ok k ∧
        if ips.isEmpty ∧ !vlans.isEmpty then out = [k]
        else ∃ nad nad', setInterface api wc (lastVlanID api vlans) { k } itfce = .ok (.ok nad) ∧
          setIpam api sort f.networkObjs ips nad = .ok nad' ∧ out = [nad'.k] := by
  unfold Function.generate
  cases api.newFromGoStruct (f.forName ++ "-" ++ itfce.name) f.forNamespace with
  | error err => exact ⟨fun h => (by cases h), fun ⟨_, h, _⟩ => (by cases h)⟩
  | ok k =>
    simp only [Except.ok.injEq, exists_eq_left']
    split_ifs
    · simp only [Except.ok.injEq, eq_comm]
    · rw [untilError_singleton]
      show (Except.map _ (setInterface api wc (lastVlanID api vlans) { k } itfce) >>= _) = _ ↔ _
      rcases setInterface api wc (lastVlanID api vlans) { k } itfce with p | (err | nad)
      · exact ⟨fun h => (by cases h), fun ⟨_, _, h, _⟩ => (by cases h)⟩
      · exact ⟨fun h => (by cases h), fun ⟨_, _, h, _⟩ => (by cases h)⟩
      · constructor
        · intro h
          obtain ⟨nad', hipam, hout⟩ := Fallible.bind_eq_ok.mp (Except.ok.inj h)
          exact ⟨nad, nad', rfl, hipam, (Except.ok.inj hout).symm⟩
        · rintro ⟨nad₁, nad', hnad₁, hipam, rfl⟩
          cases hnad₁
          exact congrArg Except.ok (Fallible.bind_eq_ok.mpr ⟨nad', hipam, rfl⟩)

theorem begins_iff {wc : WorkloadClusterSpec} {itfce : KubeObject V} {vlans : List (KubeObject V)}
    {claims : Bool} {b : Begun V} {spec : InterfaceSpec} {status : InterfaceStatus}
    {ni : ObjectReference}
    (hnames : getForName itfce.annotations ≠ "" ∧ itfce.getAnnotation specializerNamespace ≠ "")
    (hread : api.interface itfce = .ok (spec, status)) (hni : spec.networkInstance = some ni) :
    Begins api wc itfce vlans claims b ↔
      match b with
      | .nothing => ni.name = defaultPODNetwork
      | .vlanOnly k => ni.name ≠ defaultPODNetwork ∧ claims = false ∧ vlans ≠ [] ∧
        newNadFor api itfce = .ok k
      | .attached nad => ni.name ≠ defaultPODNetwork ∧ claims = true ∧ ∃ k,
        newNadFor api itfce = .ok k ∧
          setInterface api wc (lastVlanID api vlans) { k } itfce = .ok (.ok nad) := by
  unfold Begins
  rw [and_iff_right hnames, hread]
  constructor
  · rintro ⟨_, _, _, hread', hni', h⟩
    cases hread'
    cases hni.symm.trans hni'
    exact h
  · intro h
    exact ⟨spec, status, ni, rfl, hni, h⟩

/-- The call after the names are known and the Interface is read. -/
theorem generate_begins_iff {f : Function} {wc : WorkloadClusterSpec} {itfce : KubeObject V}
    {ips vlans out : List (KubeObject V)} {spec : InterfaceSpec} {status : InterfaceStatus}
    {ni : ObjectReference} (hname : f.forName = getForName itfce.annotations)
    (hns : f.forNamespace = itfce.getAnnotation specializerNamespace)
    (hnames : getForName itfce.annotations ≠ "" ∧ itfce.getAnnotation specializerNamespace ≠ "")
    (hread : api.interface itfce = .ok (spec, status)) (hni : spec.networkInstance = some ni)
    (hdefault : ni.name ≠ defaultPODNetwork) (hsome : ¬ (ips.isEmpty ∧ vlans.isEmpty)) :
    f.generate api sort wc itfce [itfce] ips vlans = .ok (.ok out) ↔
      ∃ b, Begins api wc itfce vlans (!ips.isEmpty) b ∧ Ends api sort f.networkObjs ips out b := by
  rw [generate_iff, hname, hns]
  constructor
  · rintro ⟨k, hk, h⟩
    split_ifs at h with hvlan
    · refine ⟨.vlanOnly k, (begins_iff hnames hread hni).mpr ⟨hdefault, ?_, ?_, hk⟩, h⟩
      · rw [hvlan.1]
        rfl
      · rintro rfl
        exact absurd hvlan.2 Bool.false_ne_true
    · obtain ⟨nad, nad', hnad, hipam, rfl⟩ := h
      refine ⟨.attached nad, (begins_iff hnames hread hni).mpr ⟨hdefault, ?_, k, hk, hnad⟩,
        nad', hipam, rfl⟩
      cases hempty : ips.isEmpty with
      | false => rfl
      | true =>
        cases hvlans : vlans.isEmpty with
        | false => exact absurd ⟨hempty, by rw [hvlans]; rfl⟩ hvlan
        | true => exact absurd ⟨hempty, hvlans⟩ hsome
  · rintro ⟨b, hb, hends⟩
    have hb := (begins_iff hnames hread hni).mp hb
    cases b with
    | nothing => exact absurd hb hdefault
    | vlanOnly k =>
      obtain ⟨-, hempty, hvlans, hk⟩ := hb
      refine ⟨k, hk, ?_⟩
      rw [if_pos]
      · exact hends
      · refine ⟨by simpa using hempty, ?_⟩
        rw [Bool.not_eq_true', List.isEmpty_eq_false_iff]
        exact hvlans
    | attached nad =>
      obtain ⟨-, hempty, k, hk, hnad⟩ := hb
      obtain ⟨nad', hipam, hout⟩ := hends
      refine ⟨k, hk, ?_⟩
      rw [if_neg]
      · exact ⟨nad, nad', hnad, hipam, hout⟩
      · rintro ⟨h, -⟩
        rw [h] at hempty
        cases hempty

/-- **A call on one Interface**, taken apart. -/
theorem returns_iff {f : Function} {itfce : KubeObject V} {objs out : List (KubeObject V)}
    (hitfce : objs.filter (isGVK interfaceGVK) = [itfce]) :
    Returns api sort f objs out ↔
      ∃ wc, f.workloadCluster = some wc ∧
        ∃ b, Begins api wc itfce (objs.filter (isGVK vlanClaimGVK))
            (!(objs.filter (isGVK ipClaimGVK)).isEmpty) b ∧
          Ends api sort f.networkObjs (objs.filter (isGVK ipClaimGVK)) out b := by
  unfold Returns Function.updateResourceFn
  cases f.workloadCluster with
  | none => exact ⟨fun ⟨_, h⟩ => (by cases h), fun ⟨_, h, _⟩ => (by cases h)⟩
  | some wc =>
    simp only [hitfce, Option.some.injEq, exists_eq_left']
    have hname : (f.nameFor [itfce]).forName = getForName itfce.annotations := rfl
    have hns : (f.nameFor [itfce]).forNamespace = itfce.getAnnotation specializerNamespace := rfl
    have hnetworks : (f.nameFor [itfce]).networkObjs = f.networkObjs := rfl
    generalize f.nameFor [itfce] = f₁ at hname hns hnetworks
    generalize objs.filter (isGVK ipClaimGVK) = ips
    generalize objs.filter (isGVK vlanClaimGVK) = vlans
    by_cases hempty : f₁.forName = "" ∨ f₁.forNamespace = ""
    · rw [if_pos hempty]
      refine ⟨fun ⟨_, h⟩ => (by cases h), fun ⟨_, h, _⟩ => ?_⟩
      rw [hname, hns] at hempty
      exact absurd hempty (not_or.mpr h.1)
    · rw [if_neg hempty]
      rw [hname, hns] at hempty
      have hnames := not_or.mp hempty
      cases hread : api.interface itfce with
      | error err =>
        refine ⟨fun ⟨_, h⟩ => (by cases h), ?_⟩
        rintro ⟨_, ⟨_, _, _, _, h, _⟩, _⟩
        cases hread.symm.trans h
      | ok read =>
        obtain ⟨spec, status⟩ := read
        simp only
        cases hni : spec.networkInstance with
        | none =>
          refine ⟨fun ⟨_, h⟩ => (by cases h), ?_⟩
          rintro ⟨_, ⟨_, _, _, _, h, hni', _⟩, _⟩
          cases hread.symm.trans h
          cases hni.symm.trans hni'
        | some ni =>
          simp only
          split_ifs with hdefault hnone
          · constructor
            · rintro ⟨_, h⟩
              cases h
              exact ⟨.nothing, (begins_iff hnames hread hni).mpr hdefault, rfl⟩
            · rintro ⟨b, hb, hends⟩
              have hb := (begins_iff hnames hread hni).mp hb
              cases b with
              | nothing =>
                rw [show out = [] from hends]
                exact ⟨f₁, rfl⟩
              | vlanOnly k => exact absurd hdefault hb.1
              | attached nad => exact absurd hdefault hb.1
          · refine ⟨fun ⟨_, h⟩ => (by cases h), ?_⟩
            rintro ⟨b, hb, -⟩
            have hb := (begins_iff hnames hread hni).mp hb
            cases b with
            | nothing => exact absurd hb hdefault
            | vlanOnly k => exact absurd (List.isEmpty_iff.mp hnone.2) hb.2.2.1
            | attached nad =>
              rw [hnone.1] at hb
              cases hb.2.1
          · rw [← hnetworks, ← generate_begins_iff hname hns hnames hread hni hdefault hnone]
            cases f₁.generate api sort wc itfce [itfce] ips vlans with
            | error p => exact ⟨fun ⟨_, h⟩ => (by cases h), fun h => (by cases h)⟩
            | ok res =>
              constructor
              · rintro ⟨_, h⟩
                exact congrArg Except.ok (Prod.mk.inj (Except.ok.inj h)).2
              · intro h
                exact ⟨f₁, congrArg Except.ok (Prod.ext rfl (Except.ok.inj h))⟩

/-! ## The plugins of the NAD -/

theorem mem_editPlugins {edit : PluginCniType → PluginCniType} {config : NadConfig}
    {plugin : PluginCniType} (h : plugin ∈ (config.editPlugins edit).plugins)
    (htype : plugin.type ≠ tuningType) :
    ∃ plugin' ∈ config.plugins, plugin'.type ≠ tuningType ∧ plugin = edit plugin' := by
  obtain ⟨plugin', hmem, rfl⟩ := List.mem_map.mp h
  split_ifs at htype ⊢ with htuning
  · exact absurd htuning htype
  · exact ⟨plugin', hmem, htuning, rfl⟩

/-- Every plugin that is not of type `tuning` has the property. -/
def Plugins (api : NadApi V S) (r : NadStruct V) (P : PluginCniType → Prop) : Prop :=
  ∃ config, r.getNadConfig api = .ok config ∧
    ∀ plugin ∈ config.plugins, plugin.type ≠ tuningType → P plugin

/-- The rule for a setter of the plugins. -/
theorem plugins_of_updatePlugins {napi : NadApi V S} {r r' : NadStruct V}
    {P P' : PluginCniType → Prop} {edit : PluginCniType → PluginCniType} (hP : Plugins napi r P)
    (h : r.updatePlugins napi edit = .ok r') (hedit : ∀ plugin, P plugin → P' (edit plugin)) :
    Plugins napi r' P' := by
  obtain ⟨config, hconfig, hall⟩ := hP
  obtain ⟨config', hconfig', -, -, hread⟩ := NadStruct.getNadConfig_of_updatePlugins h
  cases hconfig.symm.trans hconfig'
  refine ⟨_, hread, fun plugin hmem htype => ?_⟩
  obtain ⟨plugin', hmem', htype', rfl⟩ := mem_editPlugins hmem htype
  exact hedit plugin' (hall plugin' hmem' htype')

/-- There is nothing yet for the IPAM to assign. -/
def Unassigned (plugin : PluginCniType) : Prop :=
  plugin.ipam.addresses = [] ∧ plugin.ipam.routes = []

theorem unassigned_of_mem_defaultPlugins {t : CniSpecType} {plugin : PluginCniType}
    (h : plugin ∈ defaultPlugins t) : Unassigned plugin := by
  cases t
  all_goals simp only [defaultPlugins, List.mem_cons, List.not_mem_nil, or_false] at h
  case macVlanType =>
    rcases h with rfl | rfl
    · exact ⟨rfl, rfl⟩
    · exact ⟨rfl, rfl⟩
  all_goals
    subst h
    exact ⟨rfl, rfl⟩

theorem getNadConfig_new {napi : NadApi V S} {name ns : String} {k : KubeObject V}
    (h : napi.newFromGoStruct name ns = .ok k) (t : CniSpecType) :
    NadStruct.getNadConfig napi { k, cniSpecType := t } =
      .ok { cniVersion := cniVersion, plugins := defaultPlugins t } := by
  have hempty : NadStruct.getConfigSpec napi { k, cniSpecType := t } = napi.emptyText := by
    rcases napi.reads_new h with hread | hread
    · simp only [NadStruct.getConfigSpec, hread]
    · simp only [NadStruct.getConfigSpec, hread]
  simp only [NadStruct.getNadConfig, hempty, if_true, napi.unmarshal_braces]

/-- The object takes another config. -/
def Settable (napi : NadApi V S) (k : KubeObject V) : Prop :=
  ∀ s, ∃ k', napi.setNestedString k s = .ok k'

omit [DecidableEq S] in
theorem settable_of_setNadConfig {napi : NadApi V S} {r r' : NadStruct V} {config : NadConfig}
    (h : r.setNadConfig napi config = .ok r') : Settable napi r'.k := by
  obtain ⟨s, -, h⟩ := Fallible.bind_eq_ok.mp h
  obtain ⟨k, hk, h⟩ := Fallible.bind_eq_ok.mp h
  cases h
  exact napi.writes hk

theorem settable_of_updatePlugins {napi : NadApi V S} {r r' : NadStruct V}
    {edit : PluginCniType → PluginCniType} (h : r.updatePlugins napi edit = .ok r') :
    Settable napi r'.k := by
  obtain ⟨config, -, h⟩ := Fallible.bind_eq_ok.mp h
  exact settable_of_setNadConfig h

/-- The NAD is ready for the addresses and the routes. -/
structure Ready (napi : NadApi V S) (cniType : String) (nad : NadStruct V) : Prop where
  settable : Settable napi nad.k
  plugins : Plugins napi nad Unassigned
  writable : cniType ≠ tuningType → nad.Writable napi
  tuned : cniType = tuningType → ¬ nad.Writable napi

theorem Ready.updatePlugins {napi : NadApi V S} {cniType : String} {nad nad' : NadStruct V}
    {edit : PluginCniType → PluginCniType} (hready : Ready napi cniType nad)
    (h : nad.updatePlugins napi edit = .ok nad')
    (hedit : ∀ plugin, (edit plugin).type = plugin.type ∧ (edit plugin).ipam = plugin.ipam) :
    Ready napi cniType nad' where
  settable := settable_of_updatePlugins h
  plugins := plugins_of_updatePlugins hready.plugins h fun plugin hP => by
    rw [Unassigned, (hedit plugin).2]
    exact hP
  writable htuning := writable_of_updatePlugins (hready.writable htuning) h
    fun plugin hne => (hedit plugin).1 ▸ hne
  tuned htuning hw := by
    obtain ⟨config, hconfig, -, -, hread⟩ := NadStruct.getNadConfig_of_updatePlugins h
    have hne := (writable_iff hread).mp hw
    rw [plugin?_editPlugins fun plugin hne => (hedit plugin).1 ▸ hne] at hne
    refine hready.tuned htuning ((writable_iff hconfig).mpr fun hnone => hne ?_)
    rw [hnone, Option.map_none]

theorem Ready.setNadMaster {napi : NadApi V S} {cniType nadMaster : String} {nad nad' : NadStruct V}
    (hready : Ready napi cniType nad) (h : nad.setNadMaster napi nadMaster = .ok nad') :
    Ready napi cniType nad' := by
  unfold NadStruct.setNadMaster at h
  split_ifs at h
  exact hready.updatePlugins h fun _ => ⟨rfl, rfl⟩

theorem Ready.setBridgeName {napi : NadApi V S} {cniType : String} {vlanID : Int}
    {nad nad' : NadStruct V} (hready : Ready napi cniType nad)
    (h : nad.setBridgeName napi vlanID = .ok nad') : Ready napi cniType nad' := by
  unfold NadStruct.setBridgeName NadStruct.updateVlan at h
  split_ifs at h
  exact hready.updatePlugins h fun _ => ⟨rfl, rfl⟩

/-- A new NAD is ready when its type is set. -/
theorem ready_of_setCNIType {napi : NadApi V S} {name ns cniType : String} {k : KubeObject V}
    {nad : NadStruct V} (hk : napi.newFromGoStruct name ns = .ok k)
    (h : NadStruct.setCNIType napi { k } cniType = .ok nad) : Ready napi cniType nad := by
  unfold NadStruct.setCNIType at h
  split_ifs at h
  have hnew := getNadConfig_new hk (specTypeOf cniType .otherType)
  refine ⟨settable_of_updatePlugins h, ?_, fun htuning => ?_, ?_⟩
  · exact plugins_of_updatePlugins
      ⟨_, hnew, fun plugin hmem _ => unassigned_of_mem_defaultPlugins hmem⟩ h fun _ hP => hP
  · refine writable_of_updatePlugins ⟨_, hnew, ?_⟩ h fun _ _ => htuning
    exact plugin?_specTypeOf (Option.some_ne_none _)
  · rintro rfl hw
    obtain ⟨config, -, -, -, hread⟩ := NadStruct.getNadConfig_of_updatePlugins h
    exact (writable_iff hread).mp hw (plugin?_tuned config)

theorem ready_of_setInterface {wc : WorkloadClusterSpec} {vlanID : Int} {name ns : String}
    {k itfce : KubeObject V} {nad : NadStruct V} (hk : api.newFromGoStruct name ns = .ok k)
    (h : setInterface api wc vlanID { k } itfce = .ok (.ok nad)) :
    ∃ spec status, api.interface itfce = .ok (spec, status) ∧
      Ready api.toNadApi spec.cniType nad := by
  unfold setInterface at h
  cases htype : setType api wc { k } itfce with
  | error err =>
    rw [htype] at h
    cases h
  | ok set =>
    obtain ⟨nad₁, cniType⟩ := set
    rw [htype] at h
    obtain ⟨⟨spec, status⟩, hread, htype⟩ := Fallible.bind_eq_ok.mp htype
    simp only at htype
    split_ifs at htype
    obtain ⟨nad₂, hset, hpair⟩ := Fallible.bind_eq_ok.mp htype
    obtain ⟨rfl, rfl⟩ := Prod.mk.inj (Except.ok.inj hpair)
    refine ⟨spec, status, hread, ?_⟩
    have hready := ready_of_setCNIType hk hset
    simp only at h
    cases hmaster : wc.masterInterface with
    | none =>
      rw [hmaster] at h
      cases h
    | some masterInterface =>
      rw [hmaster] at h
      have h := Except.ok.inj h
      by_cases hbridge : spec.cniType ≠ "bridge"
      · rw [if_pos hbridge] at h
        exact hready.setNadMaster h
      · rw [if_neg hbridge] at h
        exact hready.setBridgeName h

/-! ## The addresses and the routes -/

theorem setIpam_iff {networkObjs : List Network} {objs : List (KubeObject V)}
    {nad nad' : NadStruct V} :
    setIpam api sort networkObjs objs nad = .ok nad' ↔
      (∀ o ∈ objs, ∃ claim, api.ipClaim o = .ok claim ∧ Parses api networkObjs claim) ∧
      ∃ nad₁, nad.setIpamAddress api.toNadApi
          (Go.appended (addressesOf sort (claimsOf api objs))) = .ok nad₁ ∧
        nad₁.setIpamRoutes api.toNadApi
          (Go.appended (routesOf api sort networkObjs (claimsOf api objs))) = .ok nad' := by
  unfold setIpam
  rw [Fallible.bind_eq_ok]
  constructor
  · rintro ⟨acc, hacc, h⟩
    obtain ⟨hread, rfl⟩ := gather_iff.mp hacc
    exact ⟨hread, Fallible.bind_eq_ok.mp h⟩
  · rintro ⟨hread, h⟩
    exact ⟨_, gather_iff.mpr ⟨hread, rfl⟩, Fallible.bind_eq_ok.mpr h⟩

/-- What the plugins hold when the addresses and the routes are set. -/
theorem stored_of_setIpam {cniType : String} {networkObjs : List Network}
    {objs : List (KubeObject V)} {nad nad' : NadStruct V} (hready : Ready api.toNadApi cniType nad)
    (h : setIpam api sort networkObjs objs nad = .ok nad') :
    ∃ config, Stored api.toNadApi nad'.k config ∧
      (cniType ≠ tuningType → config.plugin? ≠ none) ∧
      ∀ plugin ∈ config.plugins, plugin.type ≠ tuningType →
        plugin.ipam.addresses = addressesOf sort (claimsOf api objs) ∧
        plugin.ipam.routes = routesOf api sort networkObjs (claimsOf api objs) := by
  obtain ⟨-, nad₁, haddresses, hroutes⟩ := setIpam_iff.mp h
  generalize addressesOf sort (claimsOf api objs) = addresses at haddresses ⊢
  generalize routesOf api sort networkObjs (claimsOf api objs) = routes at hroutes ⊢
  obtain ⟨config, hconfig, hall⟩ := hready.plugins
  cases addresses with
  | nil => cases haddresses
  | cons a as =>
    obtain ⟨config', hconfig', -, hstored₁, hread₁⟩ :=
      NadStruct.getNadConfig_of_updatePlugins haddresses
    cases hconfig.symm.trans hconfig'
    have hplugin₁ : cniType ≠ tuningType → (config.editPlugins fun plugin =>
        { plugin with ipam := { plugin.ipam with addresses := a :: as } }).plugin? ≠ none :=
      fun htuning => plugin?_editPlugins_ne_none
        ((writable_iff hconfig).mp (hready.writable htuning)) fun _ hne => hne
    cases routes with
    | nil =>
      cases hroutes
      refine ⟨_, hstored₁, hplugin₁, fun plugin hmem htype => ?_⟩
      obtain ⟨plugin', hmem', htype', rfl⟩ := mem_editPlugins hmem htype
      exact ⟨rfl, (hall plugin' hmem' htype').2⟩
    | cons route routes =>
      obtain ⟨config₁, hconfig₁, -, hstored, -⟩ := NadStruct.getNadConfig_of_updatePlugins hroutes
      cases hread₁.symm.trans hconfig₁
      refine ⟨_, hstored, fun htuning => ?_, fun plugin hmem htype => ?_⟩
      · exact plugin?_editPlugins_ne_none (hplugin₁ htuning) fun _ hne => hne
      · obtain ⟨plugin', hmem', htype', rfl⟩ := mem_editPlugins hmem htype
        obtain ⟨plugin'', -, -, rfl⟩ := mem_editPlugins hmem' htype'
        exact ⟨rfl, rfl⟩

/-- The claim reaches the destination: it has an address and a gateway, and the destination is a
prefix of its family, of a routing table named like its network instance. -/
def Reaches (api : NadFnApi V S) (networkObjs : List Network) (claim : IPClaim)
    (destination : String) : Prop :=
  Complete claim ∧
  (∃ networkObj ∈ networkObjs, ∃ rt ∈ networkObj.routingTables,
    rt.name = claim.networkInstance.name ∧ destination ∈ rt.prefixes) ∧
  ∃ family, api.addressFamily destination = .ok family ∧
    api.addressFamily (claimAddress claim).address = .ok family

omit [DecidableEq S] in
theorem mem_prefixesOf_iff {networkObjs : List Network} {networkInstance destination : String} :
    destination ∈ prefixesOf networkObjs networkInstance ↔
      ∃ networkObj ∈ networkObjs, ∃ rt ∈ networkObj.routingTables,
        rt.name = networkInstance ∧ destination ∈ rt.prefixes := by
  simp only [prefixesOf, List.mem_flatMap]
  refine exists_congr fun networkObj => and_congr_right fun _ => ?_
  refine exists_congr fun rt => and_congr_right fun _ => ?_
  split_ifs with hname
  · rw [and_iff_right hname]
  · exact iff_of_false List.not_mem_nil fun h => hname h.1

omit [DecidableEq S] in
theorem sameFamily_iff {address destination : String} :
    sameFamily api address destination = true ↔
      ∃ family, api.addressFamily destination = .ok family ∧
        api.addressFamily address = .ok family := by
  unfold sameFamily
  cases api.addressFamily destination with
  | error err => exact ⟨fun h => (by cases h), fun ⟨_, h, _⟩ => (by cases h)⟩
  | ok pi =>
    cases api.addressFamily address with
    | error err => exact ⟨fun h => (by cases h), fun ⟨_, _, h⟩ => (by cases h)⟩
    | ok pia => simp [eq_comm]

omit [DecidableEq S] in
theorem mem_claimRoutes_iff {networkObjs : List Network} {claim : IPClaim} {route : Route} :
    route ∈ claimRoutes api networkObjs claim ↔
      Reaches api networkObjs claim route.destination ∧
        (claimAddress claim).gateway = route.gateway := by
  unfold claimRoutes Reaches
  split_ifs with hc
  · rw [and_iff_right hc, ← mem_prefixesOf_iff, ← sameFamily_iff, ← List.mem_filter, List.mem_map]
    constructor
    · rintro ⟨destination, hmem, rfl⟩
      exact ⟨hmem, rfl⟩
    · rintro ⟨hmem, hgateway⟩
      exact ⟨route.destination, hmem, by rw [hgateway]⟩
  · exact iff_of_false List.not_mem_nil fun h => hc h.1.1

/-- What the IPAM of a plugin holds for the claims. -/
structure Assigned (api : NadFnApi V S) (networkObjs : List Network) (claims : List IPClaim)
    (ipam : Ipam) : Prop where
  addresses_sorted : ipam.addresses.Pairwise fun a b => a.address < b.address
  addresses_exact : ∀ address, address ∈ ipam.addresses.map Address.address ↔
    ∃ claim ∈ claims, claim.status.ipPrefix.getD "" = address
  routes_sorted : ipam.routes.Pairwise fun a b => a.destination < b.destination
  routes_exact : ∀ destination, destination ∈ ipam.routes.map Route.destination ↔
    ∃ claim ∈ claims, Reaches api networkObjs claim destination
  gateways : ∀ route ∈ ipam.routes, ∃ claim ∈ claims,
    Reaches api networkObjs claim route.destination ∧
      claim.status.gateway = some route.gateway

omit [DecidableEq S] in
theorem assigned_lists {networkObjs : List Network} {claims : List IPClaim} {ipam : Ipam}
    (haddresses : ipam.addresses = addressesOf sort claims)
    (hroutes : ipam.routes = routesOf api sort networkObjs claims) :
    Assigned api networkObjs claims ipam where
  addresses_sorted := haddresses ▸ pairwise_addressesOf claims
  addresses_exact address := by
    rw [haddresses, addressesOf, ((sort.perm _ _).map _).mem_iff, Loops.mem_map_firsts_iff]
    constructor
    · rintro ⟨a, hmem, rfl⟩
      obtain ⟨claim, hclaim, rfl⟩ := List.mem_map.mp hmem
      exact ⟨claim, hclaim, rfl⟩
    · rintro ⟨claim, hclaim, rfl⟩
      exact ⟨claimAddress claim, List.mem_map_of_mem hclaim, rfl⟩
  routes_sorted := hroutes ▸ pairwise_routesOf networkObjs claims
  routes_exact destination := by
    rw [hroutes, routesOf, ((sort.perm _ _).map _).mem_iff, Loops.mem_map_firsts_iff]
    constructor
    · rintro ⟨route, hmem, rfl⟩
      obtain ⟨claim, hclaim, hroute⟩ := List.mem_flatMap.mp hmem
      exact ⟨claim, hclaim, (mem_claimRoutes_iff.mp hroute).1⟩
    · rintro ⟨claim, hclaim, hreaches⟩
      refine ⟨{ destination, gateway := (claimAddress claim).gateway }, ?_, rfl⟩
      exact List.mem_flatMap.mpr ⟨claim, hclaim, mem_claimRoutes_iff.mpr ⟨hreaches, rfl⟩⟩
  gateways route hmem := by
    rw [hroutes, mem_routesOf_iff] at hmem
    obtain ⟨claim, hclaim, hroute⟩ := List.mem_flatMap.mp (Loops.mem_of_mem_firsts hmem)
    obtain ⟨hreaches, hgateway⟩ := mem_claimRoutes_iff.mp hroute
    refine ⟨claim, hclaim, hreaches, ?_⟩
    have hne : claim.status.gateway.getD "" ≠ "" := hreaches.1.2
    cases hstatus : claim.status.gateway with
    | none =>
      rw [hstatus] at hne
      exact absurd rfl hne
    | some gateway =>
      rw [← hgateway, claimAddress, hstatus]
      rfl

omit [DecidableEq S] in
theorem mapM_ipClaim {objs : List (KubeObject V)}
    (h : ∀ o ∈ objs, ∃ claim, api.ipClaim o = .ok claim) :
    objs.mapM api.ipClaim = .ok (claimsOf api objs) := by
  induction objs with
  | nil => rfl
  | cons o objs ih =>
    obtain ⟨claim, hclaim⟩ := h o List.mem_cons_self
    rw [List.mapM_cons, hclaim, ih fun o' ho' => h o' (List.mem_cons_of_mem _ ho'),
      claimsOf_cons hclaim]
    rfl

/-- **The addresses and the routes of a NAD**, for one Interface outside the default network and any
IPClaims and Networks. -/
theorem updateResourceFn_routes {f f' : Function} {objs out : List (KubeObject V)}
    {itfce : KubeObject V} {spec : InterfaceSpec} {status : InterfaceStatus} {ni : ObjectReference}
    (h : f.updateResourceFn api sort objs = .ok (f', .ok out))
    (hitfce : objs.filter (isGVK interfaceGVK) = [itfce])
    (hread : api.interface itfce = .ok (spec, status)) (hni : spec.networkInstance = some ni)
    (hdefault : ni.name ≠ defaultPODNetwork) (htuning : spec.cniType ≠ tuningType)
    (hclaims : objs.filter (isGVK ipClaimGVK) ≠ []) :
    ∃ claims nad config, (objs.filter (isGVK ipClaimGVK)).mapM api.ipClaim = .ok claims ∧
      out = [nad] ∧ Stored api.toNadApi nad config ∧
      (∃ plugin ∈ config.plugins, plugin.type ≠ tuningType) ∧
      ∀ plugin ∈ config.plugins, plugin.type ≠ tuningType →
        Assigned api f.networkObjs claims plugin.ipam := by
  obtain ⟨wc, -, b, hb, hends⟩ := (returns_iff hitfce).mp ⟨f', h⟩
  have hb := (begins_iff hb.1 hread hni).mp hb
  cases b with
  | nothing => exact absurd hb hdefault
  | vlanOnly k =>
    have hempty := hb.2.1
    rw [Bool.not_eq_false', List.isEmpty_iff] at hempty
    exact absurd hempty hclaims
  | attached nad =>
    obtain ⟨-, -, k, hk, hnad⟩ := hb
    obtain ⟨nad', hipam, rfl⟩ := hends
    obtain ⟨spec', status', hread', hready⟩ := ready_of_setInterface hk hnad
    cases hread.symm.trans hread'
    obtain ⟨config, hstored, hplugin, hall⟩ := stored_of_setIpam hready hipam
    refine ⟨_, nad'.k, config, mapM_ipClaim fun o ho => ?_, rfl, hstored, ?_, fun plugin hmem htype => ?_⟩
    · obtain ⟨claim, hclaim, -⟩ := (setIpam_iff.mp hipam).1 o ho
      exact ⟨claim, hclaim⟩
    · by_contra hnone
      refine hplugin htuning (plugin?_eq_none_iff.mpr fun plugin hmem => ?_)
      exact not_not.mp fun htype => hnone ⟨plugin, hmem, htype⟩
    · obtain ⟨haddresses, hroutes⟩ := hall plugin hmem htype
      exact assigned_lists haddresses hroutes

/-! ## Runs -/

/-- The content of an object that has been decoded already. -/
inductive NadPayload where
  | text (config : Option NadConfig)
  | interface (spec : InterfaceSpec) (status : InterfaceStatus)
  | ipClaim (claim : IPClaim)
  | network (networkObj : Network)

/-- Objects that hold their content, where a prefix with a colon is one of IPv6. -/
def nadPayloadApi : NadFnApi NadPayload (Option NadConfig) where
  emptyText := none
  braces := some {}
  unmarshal := plainApi.unmarshal
  marshal := plainApi.marshal
  nestedString o := match o.spec with
    | some (.text config) => .ok (some config)
    | _ => .ok none
  setNestedString o s := .ok { o with spec := some (.text s) }
  newFromGoStruct name ns :=
    .ok { apiVersion := nadGVK.apiVersion, kind := nadGVK.kind, ns, name }
  unmarshal_braces := plainApi.unmarshal_braces
  round_trip := plainApi.round_trip
  reads := by
    intro o o' s h
    cases h
    rfl
  writes _ _ := ⟨_, rfl⟩
  reads_new := by
    intro name ns o h
    cases h
    exact .inl rfl
  writes_new _ _ := ⟨_, rfl⟩
  interface o := match o.spec with
    | some (.interface spec status) => .ok (spec, status)
    | _ => .error "not an Interface"
  ipClaim o := match o.spec with
    | some (.ipClaim claim) => .ok claim
    | _ => .error "not an IPClaim"
  network o := match o.spec with
    | some (.network networkObj) => .ok networkObj
    | _ => .error "not a Network"
  vlanID _ := 0
  addressFamily p := .ok (if ':' ∈ p.toList then .ipv6 else .ipv4)

def networkRef (name : String) : ObjectReference := { apiVersion := "", kind := "", name }

/-- The Interface `n3` of the NFDeployment `upf`, on the network instance `ran`. -/
def interfaceN3 : KubeObject NadPayload :=
  { apiVersion := Req.groupVersion, kind := "Interface", name := "n3"
    annotations := [(specializerOwner, "workload.nephio.org/v1alpha1.NFDeployment.upf"),
      (specializerNamespace, "default")]
    spec := some (.interface
      { networkInstance := some (networkRef "ran"), cniType := "macvlan" } {}) }

/-- A claim on the network instance `ran`. -/
def ranClaim (name address gateway : String) : KubeObject NadPayload :=
  { apiVersion := ipClaimGVK.apiVersion, kind := "IPClaim", name
    spec := some (.ipClaim
      { name, kind := "network", networkInstance := networkRef "ran"
        status := { ipPrefix := some address, gateway := some gateway } }) }

/-- nad-fn for a cluster with one CNI type, and a network with a route for each family. -/
def ranFunction : Function where
  workloadCluster := some { clusterName := "edge", cnis := ["macvlan"], masterInterface := some "eth0" }
  networkObjs := [{ routingTables := [{ name := "ran", prefixes := ["10.1.0.0/16", "fd00::/64"] }] }]

/-- Two claims of one family. -/
theorem routes_of_two_claims :
    ∃ f' claims nad config,
      ranFunction.updateResourceFn nadPayloadApi .insertion
        [ranClaim "n3-a" "10.0.0.3/24" "10.0.0.1", interfaceN3,
          ranClaim "n3-b" "10.0.0.4/24" "10.0.0.1"] = .ok (f', .ok [nad]) ∧
      [ranClaim "n3-a" "10.0.0.3/24" "10.0.0.1", ranClaim "n3-b" "10.0.0.4/24" "10.0.0.1"].mapM
        nadPayloadApi.ipClaim = .ok claims ∧
      Stored nadPayloadApi.toNadApi nad config ∧
      (∃ plugin ∈ config.plugins, plugin.type ≠ tuningType) ∧
      ∀ plugin ∈ config.plugins, plugin.type ≠ tuningType →
        Assigned nadPayloadApi ranFunction.networkObjs claims plugin.ipam := by
  obtain ⟨f', out, hrun⟩ : ∃ f' out, ranFunction.updateResourceFn nadPayloadApi .insertion
      [ranClaim "n3-a" "10.0.0.3/24" "10.0.0.1", interfaceN3,
        ranClaim "n3-b" "10.0.0.4/24" "10.0.0.1"] = .ok (f', .ok out) := ⟨_, _, rfl⟩
  obtain ⟨claims, nad, config, hclaims, rfl, hstored, hplugin, hall⟩ :=
    updateResourceFn_routes hrun (rfl : _ = [interfaceN3]) rfl rfl (by decide) (by decide)
      (List.cons_ne_nil _ _)
  exact ⟨f', claims, nad, config, hrun, hclaims, hstored, hplugin, hall⟩

end Nephio.NadFn
