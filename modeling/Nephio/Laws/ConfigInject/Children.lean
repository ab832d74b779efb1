import Nephio.Laws.CondKptSdk.Package
import Nephio.Laws.ConfigInject.Resolution

/-!
# The children of a Dependency

Every object that the injectors of a Dependency match in a package it is resolved to is wrapped in a
Config. The name of the Config has the name of the object and of the Dependency, but not the kind nor
the repository, so that the Configs are told apart exactly if the objects have different names
(`children_distinct_iff`). The inventory has one new child for each reference.
-/

namespace Nephio.CondKptSdk.Sdk

variable {V : Type} {cfg : Config V} {ord : Order} {r : Sdk V}

/-- The references of the new children of a for-instance. -/
def newRefs (inv : Inv V) (F : ObjectReference) : List ObjectReference :=
  ((inv.get .ownGVKKind [F, {}]).filter (·.2.newResource.isSome)).map Prod.fst

theorem newRefs_perm (hfresh : r.inv.Fresh cfg) {F : ObjectReference}
    (hF : r.inv.role F = some .forGVKKind)
    (hown : ∀ obj ∈ r.wantedObjs cfg F, r.inv.role obj.ref = some .ownGVKKind) :
    (newRefs (stage1Inv cfg ord r) F).Perm ((r.wantedObjs cfg F).map KubeObject.ref).dedup := by
  have hkeys : (stage1Inv cfg ord r).resources.KeysNodup 2 := keysNodup_stage1Inv hfresh
  have hne : F ≠ {} := role_ne_empty hfresh hF
  have hnodup : (newRefs (stage1Inv cfg ord r) F).Nodup :=
    (Inv.nodup_get_under hkeys (k := .ownGVKKind) nofun hne).sublist
      (List.filter_sublist.map Prod.fst)
  rw [List.perm_ext_iff_of_nodup hnodup (List.nodup_dedup _)]
  intro ref
  rw [List.mem_dedup, newRefs, List.mem_map, List.mem_map]
  constructor
  · rintro ⟨⟨ref, ctx⟩, hmem, rfl⟩
    obtain ⟨hget, hnew⟩ := List.mem_filter.mp hmem
    rw [Inv.mem_get_under hkeys (k := .ownGVKKind) nofun hne] at hget
    obtain ⟨-, rfl⟩ := (find_stage1_own hfresh).mp hget
    exact isSome_wantedObj.mp hnew
  · rintro ⟨obj, hobj, rfl⟩
    refine ⟨(obj.ref, r.childCtx cfg F obj.ref), List.mem_filter.mpr ⟨?_, ?_⟩, rfl⟩
    · rw [Inv.mem_get_under hkeys (k := .ownGVKKind) nofun hne]
      exact (find_stage1_own hfresh).mpr ⟨Or.inr ⟨hown obj hobj, hF, obj, hobj, rfl⟩, rfl⟩
    · exact isSome_wantedObj.mpr ⟨obj, hobj, rfl⟩

end Nephio.CondKptSdk.Sdk

namespace Nephio.ConfigInject

open CondKptSdk ClaimFns Controllers

/-- The reference of a Config. -/
def configRef (name : String) : ObjectReference :=
  { apiVersion := "ref.nephio.org/v1alpha1", kind := "Config", name := name }

/-- `BuildConfig`: the kind is fixed, and the name is the one that is asked for. -/
def Env.BuildsConfig {V T : Type} (env : Env V T) : Prop :=
  ∀ name ns o c, env.newConfig name ns o = .ok c → c.ref = configRef name

/-- The configuration that `New` makes, with the answers of the API server. -/
def sdkConfig {V T : Type} (env : Env V T) (ord : Go.MapOrder Unit String)
    (wc : Option WorkloadClusterSpec) (prl : Except String (List PackageRevision))
    (repos : Except String (List Repository)) (callback : WatchCallbackFn V)
    (update : UpdateResourceFn V) : Config V where
  forRef := { apiVersion := "req.nephio.org/v1alpha1", kind := "Dependency" }
  owns := [({ apiVersion := "ref.nephio.org/v1alpha1", kind := "Config" }, .childLocal)]
  watch := [({ apiVersion := "infra.nephio.org/v1alpha1", kind := "WorkloadCluster" },
    some callback)]
  populateOwnResourcesFn := some fun _ o => (desiredOwnedResourceList env ord wc prl repos o).2
  updateResourceFn := some update

/-! ## What is injected -/

/-- The objects that the injectors match, one injector after the other. -/
def matching {V : Type} (dep : DependencySpec) (items : List (KubeObject V)) : List (KubeObject V) :=
  dep.injectors.flatMap fun ref => items.filter fun o =>
    fromAPIVersionAndKind o.apiVersion o.kind = fromAPIVersionAndKind ref.apiVersion ref.kind

/-- The dependency objects of a package. -/
def found {V T : Type} (env : Env V T) (dep : DependencySpec) (pr : PackageRevision) :
    List (KubeObject V) :=
  match env.get pr.key with
  | .error _ => []
  | .ok prr =>
    match getResourceList env.yaml env.order prr with
    | .error _ => []
    | .ok items => matching dep items

/-- The reference of the Config of an object. -/
def configRefOf {V : Type} (forObj o : KubeObject V) : ObjectReference :=
  configRef (getForName forObj.annotations ++ "-" ++ o.name)

section Injected

variable {V T : Type} {env : Env V T} {dep : DependencySpec} {forObj : KubeObject V}
  (hbuilds : env.BuildsConfig)
include hbuilds

theorem refs_injectObject {pr : PackageRevision} {kf : KptFile} {s s' : List (KubeObject V)}
    {o : KubeObject V} (h : injectObject env forObj pr kf s o = .ok s') :
    s'.map KubeObject.ref = s.map KubeObject.ref ++ [configRefOf forObj o] := by
  unfold injectObject at h
  dsimp only at h
  cases hct : kf.getCondition (getConditionType o.ref) with
  | none => rw [hct] at h; cases h
  | some c =>
    rw [hct] at h
    dsimp only at h
    split_ifs at h
    obtain ⟨newObj, hnew, hs'⟩ := Fallible.bind_eq_ok.mp h
    rw [← Except.ok.inj hs', List.map_append, List.map_singleton, hbuilds _ _ _ _ hnew]
    rfl

theorem refs_injectKind {pr : PackageRevision} {kf : KptFile} {items s s' : List (KubeObject V)}
    {ref : ObjectReference} (h : injectKind env forObj pr kf items s ref = .ok s') :
    s'.map KubeObject.ref = s.map KubeObject.ref ++ (items.filter fun o =>
      fromAPIVersionAndKind o.apiVersion o.kind =
        fromAPIVersionAndKind ref.apiVersion ref.kind).map (configRefOf forObj) := by
  unfold injectKind at h
  dsimp only at h
  split_ifs at h
  rw [Fallible.map_foldlM h fun _ _ _ => refs_injectObject hbuilds, ← List.map_eq_flatMap]

theorem refs_injectRevision {pr : PackageRevision} {objs : List (KubeObject V)}
    (h : injectRevision env dep forObj pr [] = .ok objs) :
    objs.map KubeObject.ref = (found env dep pr).map (configRefOf forObj) := by
  obtain ⟨prr, hprr, h⟩ := Fallible.bind_eq_ok.mp h
  obtain ⟨items, hitems, h⟩ := Fallible.bind_eq_ok.mp h
  cases hkf : env.rootKptfile items with
  | none => rw [hkf] at h; cases h
  | some kf =>
    rw [hkf] at h
    dsimp only at h
    rw [Fallible.map_foldlM h fun _ _ _ => refs_injectKind hbuilds, List.map_nil, List.nil_append]
    simp only [found, hprr, hitems, matching]
    rw [List.map_flatMap]

theorem refs_configs {pr : PackageRevision} (h : Ready env dep forObj pr) :
    (configs env dep forObj pr).map KubeObject.ref =
      (found env dep pr).map (configRefOf forObj) := by
  obtain ⟨objs, hobjs⟩ := h
  rw [configs, hobjs]
  exact refs_injectRevision hbuilds hobjs

end Injected

theorem configRefOf_injective {V : Type} (forObj : KubeObject V) :
    Function.Injective fun name => configRef (getForName forObj.annotations ++ "-" ++ name) := by
  intro name name' h
  have hlist := congrArg (fun ref => ref.name.toList) h
  simp only [configRef, String.toList_append] at hlist
  exact String.toList_inj.mp (List.append_cancel_left hlist)

theorem nodup_configRefOf_iff {V : Type} {forObj : KubeObject V} (objs : List (KubeObject V)) :
    (objs.map (configRefOf forObj)).Nodup ↔ (objs.map KubeObject.name).Nodup := by
  rw [← List.nodup_map_iff (configRefOf_injective forObj), List.map_map]
  rfl

/-! ## The children -/

section Children

variable {V T : Type} {env : Env V T} {dep : DependencySpec} {forObj : KubeObject V}
  {ord : Go.MapOrder Unit String} {wc : WorkloadClusterSpec} {prs : List PackageRevision}
  {repos : List Repository} {callback : WatchCallbackFn V} {update : UpdateResourceFn V}
  {keys : List ObjectKey} {children : List (KubeObject V)}

theorem role_configRef {inv : CondKptSdk.Inv V} (hinv : newInventory
    (sdkConfig env ord (some wc) (.ok prs) (.ok repos) callback update) = .ok inv) (name : String) :
    inv.role (configRef name) = some .ownGVKKind := by
  rw [← Except.ok.inj hinv]
  rfl

theorem listed_of_outcome (hdep : env.dependency forObj = .ok dep)
    (h : outcome env ord wc prs repos forObj = (keys, .ok children)) :
    ∀ pr ∈ prs, Listed repos pr := by
  by_contra hnot
  obtain ⟨r, hr⟩ := @outcome_of_not_listed _ _ env dep forObj ord wc _ _ hdep hnot
  cases (Prod.mk.inj (h.symm.trans hr)).2

/-- The children are the Configs of the dependency objects. -/
theorem refs_children (hbuilds : env.BuildsConfig) (hdep : env.dependency forObj = .ok dep)
    (h : outcome env ord wc prs repos forObj = (keys, .ok children)) :
    children.map KubeObject.ref = ((selection ord prs repos dep.packageName).flatMap
      (found env dep)).map (configRefOf forObj) := by
  obtain ⟨-, hready, -, rfl⟩ := (outcome_eq_ok_iff hdep (listed_of_outcome hdep h)).mp h
  rw [List.map_flatMap, List.map_flatMap]
  exact List.flatMap_congr fun pr hpr => refs_configs hbuilds (hready pr hpr)

/-- **Each dependency object has a child of its own exactly if their names differ**, whatever
kinds they have and whatever repositories they are from. The inventory then has one new child for
each, and fewer otherwise. -/
theorem children_distinct_iff (hbuilds : env.BuildsConfig) (hdep : env.dependency forObj = .ok dep)
    (h : outcome env ord wc prs repos forObj = (keys, .ok children)) {r : Sdk V}
    (hinv : newInventory (sdkConfig env ord (some wc) (.ok prs) (.ok repos) callback update) =
      .ok r.inv)
    {F : ObjectReference} (hF : F.gvk =
      { apiVersion := "req.nephio.org/v1alpha1", kind := "Dependency" })
    (hobj : r.forObj F = some forObj) (order : Order) :
    let objs := (selection ord prs repos dep.packageName).flatMap (found env dep)
    let cfg := sdkConfig env ord (some wc) (.ok prs) (.ok repos) callback update
    children.length = objs.length ∧
      ((children.map KubeObject.ref).Nodup ↔ (objs.map KubeObject.name).Nodup) ∧
      ((Sdk.newRefs ((r.filed cfg).populateChildren cfg order).inv F).length = objs.length ↔
        (objs.map KubeObject.name).Nodup) := by
  intro objs cfg
  have hrefs := refs_children hbuilds hdep h
  have hlength : children.length = objs.length := by
    have hlen := congrArg List.length hrefs
    rwa [List.length_map, List.length_map] at hlen
  have hnodup : (children.map KubeObject.ref).Nodup ↔ (objs.map KubeObject.name).Nodup := by
    rw [hrefs, nodup_configRefOf_iff]
  refine ⟨hlength, hnodup, ?_⟩
  have hfresh := newInventory_fresh hinv
  have hrole : r.inv.role F = some .forGVKKind := (hfresh.role_for F).mpr hF
  have hwanted : r.wanted cfg F = .ok children := by
    unfold Sdk.wanted
    rw [hobj]
    exact congrArg Prod.snd h
  have hwantedObjs : r.wantedObjs cfg F = children := by
    rw [Sdk.wantedObjs, hwanted]
  have hown : ∀ obj ∈ r.wantedObjs cfg F, r.inv.role obj.ref = some .ownGVKKind := by
    intro obj hmem
    rw [hwantedObjs] at hmem
    have href := List.mem_map_of_mem (f := KubeObject.ref) hmem
    rw [hrefs] at href
    obtain ⟨o, -, ho⟩ := List.mem_map.mp href
    rw [← ho]
    exact role_configRef hinv _
  have hpop : ((r.filed cfg).populateChildren cfg order).inv = Sdk.stage1Inv cfg order r :=
    (populateChildren_writes cfg order (r.filed cfg)).inv
  rw [hpop, (Sdk.newRefs_perm hfresh hrole hown).length_eq, hwantedObjs, ← hlength, ← hnodup,
    ← List.length_map (f := KubeObject.ref), ← List.dedup_eq_self]
  exact ⟨(List.dedup_sublist _).eq_of_length, congrArg List.length⟩

end Children

/-! ### Packages of two repositories -/

theorem buildsConfig_packages : packages.BuildsConfig := by
  intro name ns o c h
  rw [← Except.ok.inj h]
  rfl

def amfWest : PackageRevision := published "west" "amf" "west.amf.v1" 1

/-- The function, where the API server answers with these revisions and two repositories. -/
def twoRepositories (prs : List PackageRevision) : Config Unit :=
  sdkConfig packages .insertion (some cluster) (.ok prs) (.ok [⟨"edge", true⟩, ⟨"west", true⟩])
    (fun _ _ => .ok ()) (fun _ _ objs => .ok objs)

/-- A package with the Dependency. -/
def dependencyPackage (prs : List PackageRevision) : Sdk Unit where
  items := [dependency]
  kptfile := { conditions := [] }
  inv := ((newInventory (twoRepositories prs)).toOption).getD { gvkResources := [] }

theorem one_repository_one_child :
    (Sdk.newRefs (((dependencyPackage [amf1]).filed (twoRepositories [amf1])).populateChildren
      (twoRepositories [amf1]) .insertion).inv dependency.ref).length = 1 := by
  have hout : ∃ keys children, outcome packages .insertion cluster [amf1]
      [⟨"edge", true⟩, ⟨"west", true⟩] dependency = (keys, .ok children) := ⟨_, _, rfl⟩
  obtain ⟨keys, children, hout⟩ := hout
  have hdistinct := (@children_distinct_iff _ _ _ onAmf _ _ _ _ _ (fun _ _ => .ok ())
    (fun _ _ objs => .ok objs) _ _ buildsConfig_packages rfl hout (dependencyPackage [amf1]) rfl
    dependency.ref rfl rfl .insertion).2.2
  exact hdistinct.mpr (by decide +kernel)

/-- The ConfigMaps of one name in two repositories are injected as one Config. -/
theorem two_repositories_one_child :
    ∃ children, (outcome packages .insertion cluster [amf1, amfWest]
      [⟨"edge", true⟩, ⟨"west", true⟩] dependency).2 = .ok children ∧ children.length = 2 ∧
      ¬ (children.map KubeObject.ref).Nodup ∧
      (Sdk.newRefs (((dependencyPackage [amf1, amfWest]).filed
        (twoRepositories [amf1, amfWest])).populateChildren (twoRepositories [amf1, amfWest])
        .insertion).inv dependency.ref).length = 1 := by
  refine ⟨_, rfl, ?_, ?_, ?_⟩ <;> decide +kernel

end Nephio.ConfigInject
