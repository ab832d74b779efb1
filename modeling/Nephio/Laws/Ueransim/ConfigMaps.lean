import Nephio.Data.Fallible
import Nephio.Ueransim.Function

/-!
# The ConfigMaps of a gNB

The loop over the volumes writes a ConfigMap for each volume that has one, but always under the name
of the first volume's (`addConfigMaps_iff`). So the ConfigMaps follow the volumes exactly if these
all name the ConfigMap of the first one, and the loop panics exactly if the first volume has none
and another one has (`updateResource_iff`).
-/

namespace Nephio.Ueransim

open ClaimFns Req

variable {V P : Type} {api : DeployApi V P}

/-- The ConfigMaps that volumes name. -/
def mounted (volumes : List Volume) : List String := volumes.filterMap Volume.configMap

theorem mounted_cons_none {volume : Volume} (h : volume.configMap = none) (volumes : List Volume) :
    mounted (volume :: volumes) = mounted volumes := List.filterMap_cons_none h

theorem mounted_cons_some {volume : Volume} {name : String} (h : volume.configMap = some name)
    (volumes : List Volume) : mounted (volume :: volumes) = name :: mounted volumes :=
  List.filterMap_cons_some h

/-! ## The loop -/

section Loop

variable {deploy : Deployment P} {configuration : String}

theorem addConfigMaps_of_none (h : deploy.volumes.head?.bind Volume.configMap = none)
    {volumes : List Volume} (hmounted : mounted volumes ≠ []) (resources : List (KubeObject V)) :
    addConfigMaps api deploy configuration volumes resources = .error .nilPointer := by
  induction volumes with
  | nil => exact absurd rfl hmounted
  | cons volume volumes ih =>
    rw [addConfigMaps]
    cases hcm : volume.configMap with
    | none =>
      rw [mounted_cons_none hcm] at hmounted
      exact ih hmounted
    | some _ => simp only [h]

theorem addConfigMaps_of_nil {volumes : List Volume} (hmounted : mounted volumes = [])
    (resources : List (KubeObject V)) :
    addConfigMaps api deploy configuration volumes resources = .ok (.ok resources) := by
  induction volumes with
  | nil => rfl
  | cons volume volumes ih =>
    rw [addConfigMaps]
    cases hcm : volume.configMap with
    | none =>
      rw [mounted_cons_none hcm] at hmounted
      exact ih hmounted
    | some name =>
      rw [mounted_cons_some hcm] at hmounted
      cases hmounted

/-- Every ConfigMap is written under the name of the first volume's. -/
theorem addConfigMaps_of_some {first : String}
    (h : deploy.volumes.head?.bind Volume.configMap = some first) (volumes : List Volume)
    (resources : List (KubeObject V)) :
    ∃ cms, addConfigMaps api deploy configuration volumes resources = .ok (.ok (resources ++ cms)) ∧
      cms.map KubeObject.ref = (mounted volumes).map fun _ => configMapRef first := by
  induction volumes generalizing resources with
  | nil => exact ⟨[], by rw [addConfigMaps, List.append_nil], rfl⟩
  | cons volume volumes ih =>
    rw [addConfigMaps]
    cases hcm : volume.configMap with
    | none =>
      rw [mounted_cons_none hcm]
      exact ih resources
    | some name =>
      simp only [h]
      obtain ⟨o, ho, href⟩ := api.fromConfigMap_ok
        { name := first, ns := deploy.ns, labels := getLabels
          data := [("gnb-config.yaml", configuration)] }
      rw [ho, mounted_cons_some hcm]
      obtain ⟨cms, hcms, hrefs⟩ := ih (resources ++ [o])
      refine ⟨o :: cms, hcms.trans (by rw [List.append_assoc]; rfl), ?_⟩
      rw [List.map_cons, List.map_cons, hrefs, href]

end Loop

/-- The volumes that name a ConfigMap all name that of the first volume. -/
def FollowsFirst (volumes : List Volume) : Prop :=
  ∀ name ∈ mounted volumes, volumes.head?.bind Volume.configMap = some name

instance (volumes : List Volume) : Decidable (FollowsFirst volumes) :=
  inferInstanceAs (Decidable (∀ name ∈ mounted volumes, _))

theorem map_configMapRef_iff {names : List String} {first : String} :
    (names.map fun _ => configMapRef first) = names.map configMapRef ↔ ∀ name ∈ names, first = name := by
  rw [List.map_inj_left]
  refine forall₂_congr fun name _ => ?_
  simp only [configMapRef, ObjectReference.mk.injEq, true_and]

/-! ## The function -/

/-- The network and the configuration of the gNB can be rendered from its children. -/
structure Renders (api : DeployApi V P) (deployObj : KubeObject V) (objs : List (KubeObject V))
    (deploy : Deployment P) (nadString configuration : String) : Prop where
  deployment : api.deployment deployObj = .ok deploy
  networks : getNetworkAttachmentDefinitionObjects api deploy.name (objs.filter
    (isGVK { apiVersion := groupVersion, kind := "Interface", name := "" })) = .ok nadString
  configuration : ∃ amfs, getAmfAddresses api (objs.filter (isGVK ipClaimGVK)) = .ok amfs ∧
    getConfiguration api (objs.filter
      (isGVK { apiVersion := groupVersion, kind := "Interface", name := "" })) amfs =
      .ok configuration

theorem getConfiguration_nil (amfs : List String) :
    ∃ err, getConfiguration api [] amfs = .error err := ⟨_, rfl⟩

section Update

variable {deployObj : KubeObject V} {objs : List (KubeObject V)} {deploy : Deployment P}
  {nadString configuration : String}

theorem updateResource_eq (h : Renders api deployObj objs deploy nadString configuration) :
    ∃ deployKo, api.fromDeployment (deploy.withNetworks nadString) = .ok deployKo ∧
      updateResource api (some deployObj) objs =
        addConfigMaps api (deploy.withNetworks nadString) configuration deploy.volumes
          [deployKo] := by
  obtain ⟨deployKo, hko⟩ := api.fromDeployment_ok (deploy.withNetworks nadString)
  obtain ⟨amfs, hamfs, hconfiguration⟩ := h.configuration
  refine ⟨deployKo, hko, ?_⟩
  -- Without interfaces there is no configuration.
  have hsome : (objs.filter
      (isGVK { apiVersion := groupVersion, kind := "Interface", name := "" })).isEmpty = false := by
    rw [List.isEmpty_eq_false_iff]
    intro hnil
    rw [hnil] at hconfiguration
    obtain ⟨err, herr⟩ := @getConfiguration_nil _ _ api amfs
    cases herr.symm.trans hconfiguration
  unfold updateResource
  simp only [hamfs, hsome, h.deployment, h.networks, hko, hconfiguration, Bool.false_eq_true,
    if_false]
  rfl

/-- **The ConfigMaps follow the volumes** exactly if all volumes that have one name that of the first
volume. The call panics exactly if the first volume has none and another one has. -/
theorem updateResource_iff (h : Renders api deployObj objs deploy nadString configuration) :
    ((∃ deployKo cms, updateResource api (some deployObj) objs = .ok (.ok (deployKo :: cms)) ∧
        api.fromDeployment (deploy.withNetworks nadString) = .ok deployKo ∧
        cms.map KubeObject.ref = (mounted deploy.volumes).map configMapRef) ↔
      FollowsFirst deploy.volumes) ∧
    ((∃ panic, updateResource api (some deployObj) objs = .error panic) ↔
      mounted deploy.volumes ≠ [] ∧ deploy.volumes.head?.bind Volume.configMap = none) := by
  obtain ⟨deployKo, hko, hupdate⟩ := updateResource_eq h
  rw [hupdate]
  cases hfirst : deploy.volumes.head?.bind Volume.configMap with
  | none =>
    by_cases hmounted : mounted deploy.volumes = []
    · rw [addConfigMaps_of_nil hmounted]
      refine ⟨iff_of_true ⟨deployKo, [], rfl, hko, by rw [hmounted]; rfl⟩ ?_,
        iff_of_false (fun ⟨_, h⟩ => by cases h) fun h => h.1 hmounted⟩
      intro name hname
      rw [hmounted] at hname
      exact absurd hname List.not_mem_nil
    · have hfirst' : (deploy.withNetworks nadString).volumes.head?.bind Volume.configMap = none :=
        hfirst
      rw [addConfigMaps_of_none hfirst' hmounted]
      refine ⟨iff_of_false (fun ⟨_, _, h, _⟩ => by cases h) fun hfollows => ?_,
        iff_of_true ⟨_, rfl⟩ ⟨hmounted, rfl⟩⟩
      obtain ⟨name, hname⟩ := List.exists_mem_of_ne_nil _ hmounted
      cases hfirst.symm.trans (hfollows name hname)
  | some first =>
    have hfirst' : (deploy.withNetworks nadString).volumes.head?.bind Volume.configMap =
      some first := hfirst
    obtain ⟨cms, hcms, hrefs⟩ := @addConfigMaps_of_some _ _ api _ configuration _ hfirst'
      deploy.volumes [deployKo]
    rw [hcms]
    refine ⟨?_, iff_of_false (fun ⟨_, h⟩ => by cases h) fun h => by cases h.2⟩
    have hiff : FollowsFirst deploy.volumes ↔
        cms.map KubeObject.ref = (mounted deploy.volumes).map configMapRef := by
      rw [hrefs, map_configMapRef_iff, FollowsFirst, hfirst]
      simp only [Option.some.injEq]
    rw [hiff]
    constructor
    · rintro ⟨deployKo', cms', heq, -, hcms'⟩
      have hlist : deployKo :: cms = deployKo' :: cms' := Except.ok.inj (Except.ok.inj heq)
      rw [(List.cons.inj hlist).2]
      exact hcms'
    · intro hcms'
      exact ⟨deployKo, cms, rfl, hko, hcms'⟩

end Update

/-! ### A gNB -/

/-- What objects carry here. -/
inductive Payload where
  | deployment (annotations : List (String × String)) (volumes : List Volume)
  | interface (status : InterfaceStatus)
  | ipClaim (status : IPClaimStatus)
  | data (data : List (String × String))
deriving DecidableEq, Repr

/-- A server whose addresses are read as they are. -/
def payloadApi : DeployApi Payload Unit where
  deployment o :=
    match o.spec with
    | some (.deployment annotations volumes) =>
      .ok { name := o.name, ns := o.ns, annotations := annotations, volumes := volumes, rest := () }
    | _ => .error "not a Deployment"
  interface o :=
    match o.status with
    | some (.interface status) => .ok status
    | _ => .error "not an Interface"
  ipClaim o :=
    match o.status with
    | some (.ipClaim status) => .ok status
    | _ => .error "not an IPClaim"
  address a := .ok a
  fromDeployment d :=
    .ok { apiVersion := "apps/v1", kind := "Deployment", name := d.name, ns := d.ns
          spec := some (.deployment d.annotations d.volumes) }
  fromConfigMap cm :=
    .ok { apiVersion := "v1", kind := "ConfigMap", name := cm.name, ns := cm.ns
          rest := [("data", .data cm.data)] }
  fromDeployment_ok _ := ⟨_, rfl⟩
  fromConfigMap_ok _ := ⟨_, rfl, rfl⟩

def gnb (volumes : List Volume) : KubeObject Payload :=
  { apiVersion := "apps/v1", kind := "Deployment", name := "gnb"
    spec := some (.deployment [] volumes) }

/-- An Interface with an address. -/
def interfaceAt (name address : String) : KubeObject Payload :=
  { apiVersion := groupVersion, kind := "Interface", name := name
    status := some (.interface { ipClaimStatus := some [{ ipPrefix := some address }] }) }

def gnbInterfaces : List (KubeObject Payload) :=
  [interfaceAt "n2" "10.0.2.1", interfaceAt "n3" "10.0.3.1"]

theorem renders_gnb (volumes : List Volume) :
    ∃ deploy nadString configuration, Renders payloadApi (gnb volumes) gnbInterfaces deploy nadString
      configuration ∧ deploy.volumes = volumes :=
  ⟨_, _, _, ⟨rfl, rfl, _, rfl, rfl⟩, rfl⟩

theorem one_volume_one_configMap :
    ∃ deployKo cms, updateResource payloadApi (some (gnb [⟨"config", some "gnb-config"⟩]))
      gnbInterfaces = .ok (.ok (deployKo :: cms)) ∧
      cms.map KubeObject.ref = [configMapRef "gnb-config"] := by
  obtain ⟨deploy, nadString, configuration, hrenders, hvolumes⟩ :=
    renders_gnb [⟨"config", some "gnb-config"⟩]
  obtain ⟨deployKo, cms, hupdate, -, hcms⟩ := (updateResource_iff hrenders).1.mpr
    (by rw [hvolumes]; decide)
  rw [hvolumes] at hcms
  exact ⟨deployKo, cms, hupdate, hcms⟩

/-- Two ConfigMaps are written under one name, and after another volume the call panics. -/
theorem first_volume_names_all :
    (∃ deployKo cms, updateResource payloadApi
        (some (gnb [⟨"config", some "gnb-config"⟩, ⟨"scripts", some "gnb-scripts"⟩]))
        gnbInterfaces = .ok (.ok (deployKo :: cms)) ∧
      cms.map KubeObject.ref = [configMapRef "gnb-config", configMapRef "gnb-config"]) ∧
    updateResource payloadApi (some (gnb [⟨"tun", none⟩, ⟨"config", some "gnb-config"⟩]))
      gnbInterfaces = .error .nilPointer :=
  ⟨⟨_, _, rfl, rfl⟩, rfl⟩

end Nephio.Ueransim
