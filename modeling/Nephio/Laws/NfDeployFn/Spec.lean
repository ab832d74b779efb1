import Nephio.Laws.Go.Sort
import Nephio.Laws.NfDeployFn.Changes

/-!
# Laws.NfDeployFn.Spec: the spec that a call on a new function writes

The two maps of the state are visited in any order, and what is written is sorted. The interfaces of
the spec are those that the children brought, in some order (`perm_interfaces`), and its network
instances are those that a child names, each with the interfaces and data networks of the children
that name it (`mem_networkInstances_iff`).
-/

namespace Nephio.NfDeployFn

open Workload

variable {V Q : Type} {sort : Go.SliceSort} {ord : Order}

/-! ## The loop over the interface configs -/

/-- What a turn does to the network instances: its interfaces are listed, and the list is sorted. -/
def interfaceEdits (sort : Go.SliceSort) (e : String × List InterfaceConfig) :
    List (Keyed.Edit (Prod.fst : String × NetworkInstance → String)) :=
  e.2.map (fun config => .alter e.1 { name := e.1 }
    fun nI => { nI with interfaces := nI.interfaces ++ [config.name] }) ++
  [.adjust e.1 fun nI => { nI with interfaces := sort.slice (fun a b => a ≤ b) nI.interfaces }]

theorem foldl_addInterfaceToNetworkInstance (f : NfDeployFn Q) (name : String)
    (configs : List InterfaceConfig) :
    configs.foldl (fun f config => f.addInterfaceToNetworkInstance config.name name) f =
      { f with
        networkInstance := Keyed.applyAll (configs.map fun config => .alter name { name }
          fun nI => { nI with interfaces := nI.interfaces ++ [config.name] }) f.networkInstance } := by
  induction configs generalizing f with
  | nil => rfl
  | cons config configs ih =>
    have hstep : f.addInterfaceToNetworkInstance config.name name =
        { f with
          networkInstance := (Keyed.Edit.alter name { name } fun nI =>
            { nI with interfaces := nI.interfaces ++ [config.name] }).apply f.networkInstance } :=
      upsertNetworkInstance_eq f name fun nI =>
        { nI with interfaces := nI.interfaces ++ [config.name] }
    rw [List.foldl_cons, ih, hstep]
    rfl

theorem addInterfaces_eq (f : NfDeployFn Q) (e : String × List InterfaceConfig) :
    f.addInterfaces sort e =
      { f with networkInstance := Keyed.applyAll (interfaceEdits sort e) f.networkInstance } := by
  unfold addInterfaces interfaceEdits
  rw [Keyed.applyAll_append, Keyed.applyAll_cons, Keyed.applyAll_nil, Keyed.adjust_apply]
  simp only [foldl_addInterfaceToNetworkInstance]
  cases Keyed.lookup Prod.fst e.1 _ <;> rfl

theorem foldl_addInterfaces_eq (f : NfDeployFn Q) (es : List (String × List InterfaceConfig)) :
    es.foldl (addInterfaces sort) f =
      { f with
        networkInstance :=
          Keyed.applyAll (es.flatMap (interfaceEdits sort)) f.networkInstance } := by
  induction es generalizing f with
  | nil => rfl
  | cons e es ih =>
    rw [List.foldl_cons, ih, addInterfaces_eq, List.flatMap_cons, Keyed.applyAll_append]

/-! ## The two maps -/

section Maps

variable (sort : Go.SliceSort) (ord : Order) (cs : List (Change Q))

/-- The interface configs that the children brought. -/
def configMap : List (String × List InterfaceConfig) :=
  Keyed.applyAll ((configs cs).map .append) []

/-- The network instances, after the loop over the configs. -/
def instanceMap : List (String × NetworkInstance) :=
  Keyed.applyAll ((ord.range .updateResourceFn (configMap cs)).flatMap (interfaceEdits sort))
    (Keyed.applyAll ((networks cs).map addNetwork) [])

theorem nodup_configMap : (Keyed.keys Prod.fst (configMap cs)).Nodup :=
  Keyed.nodup_keys_applyAll (show (Keyed.keys Prod.fst []).Nodup from List.nodup_nil) _

theorem nodup_instanceMap : (Keyed.keys Prod.fst (instanceMap sort ord cs)).Nodup :=
  Keyed.nodup_keys_applyAll (Keyed.nodup_keys_applyAll
    (show (Keyed.keys Prod.fst []).Nodup from List.nodup_nil) _) _

/-- The interfaces and the data networks of a network instance. -/
def configsOf (name : String) : List InterfaceConfig :=
  ((configs cs).filter (·.1 = name)).map Prod.snd

@[inherit_doc configsOf]
def networksOf (name : String) : List DataNetwork :=
  ((networks cs).filter (·.1 = name)).map Prod.snd

/-- A network instance that is written. -/
def instanceOf (name : String) : NetworkInstance where
  name := name
  interfaces := sort.slice (fun a b => a ≤ b) ((configsOf cs name).map InterfaceConfig.name)
  dataNetworks := networksOf cs name

theorem value_configMap (name : String) :
    Keyed.value name (configMap cs) =
      if configsOf cs name = [] then none else some (configsOf cs name) := by
  simp only [configMap, Keyed.value_applyAll_append, configsOf, List.map_eq_nil_iff]

theorem value_networks (name : String) :
    Keyed.value name (Keyed.applyAll ((networks cs).map addNetwork) []) =
      if networksOf cs name = [] then none
      else some { name, dataNetworks := networksOf cs name } := by
  have hfold : ∀ (xs : List (String × DataNetwork)) (nI : NetworkInstance),
      xs.foldl (fun nI x => { nI with dataNetworks := nI.dataNetworks ++ [x.2] }) nI =
        { nI with dataNetworks := nI.dataNetworks ++ xs.map Prod.snd } := by
    intro xs
    induction xs with
    | nil =>
      intro nI
      rw [List.foldl_nil, List.map_nil, List.append_nil]
    | cons x xs ih =>
      intro nI
      rw [List.foldl_cons, ih, List.map_cons, List.append_assoc]
      rfl
  have h := @Keyed.value_applyAll_alter String NetworkInstance (String × DataNetwork) _ Prod.fst
    (fun name => { name }) (fun x nI => { nI with dataNetworks := nI.dataNetworks ++ [x.2] })
    (networks cs) name []
  rw [hfold] at h
  simp only [networksOf, List.map_eq_nil_iff]
  exact h

/-- The turn for a network instance, and no other, changes it. -/
theorem filter_interfaceEdits (name : String) :
    ((ord.range .updateResourceFn (configMap cs)).flatMap (interfaceEdits sort)).filter
        (·.target = name) =
      if configsOf cs name = [] then [] else interfaceEdits sort (name, configsOf cs name) := by
  have htarget : ∀ e ∈ ord.range .updateResourceFn (configMap cs),
      ∀ edit ∈ interfaceEdits sort e, decide (edit.target = name) = decide (e.1 = name) := by
    intro e _ edit hedit
    rcases List.mem_append.mp hedit with hedit | hedit
    · obtain ⟨config, -, rfl⟩ := List.mem_map.mp hedit
      rfl
    · rw [List.mem_singleton.mp hedit]
      rfl
  have hone : (ord.range .updateResourceFn (configMap cs)).filter (·.1 = name) =
      (configMap cs).filter (·.1 = name) := by
    refine Loops.eq_of_perm_of_length_le_one ((ord.perm _ _).filter _) ?_
    rw [Keyed.filter_fst_eq (nodup_configMap cs)]
    cases Keyed.value name (configMap cs) <;> simp
  rw [Loops.filter_flatMap_eq htarget, hone, Keyed.filter_fst_eq (nodup_configMap cs),
    value_configMap]
  split <;> simp

theorem foldl_listInterface (configs : List InterfaceConfig) (nI : NetworkInstance) :
    configs.foldl (fun nI config => { nI with interfaces := nI.interfaces ++ [config.name] }) nI =
      { nI with interfaces := nI.interfaces ++ configs.map InterfaceConfig.name } := by
  induction configs generalizing nI with
  | nil => rw [List.foldl_nil, List.map_nil, List.append_nil]
  | cons config configs ih =>
    rw [List.foldl_cons, ih, List.map_cons, List.append_assoc]
    rfl

/-- **The network instances that are held**: those that a child names. -/
theorem value_instanceMap (name : String) :
    Keyed.value name (instanceMap sort ord cs) =
      if configsOf cs name = [] ∧ networksOf cs name = [] then none
      else some (instanceOf sort cs name) := by
  have hheld : (Keyed.lookup Prod.fst name
      (Keyed.applyAll ((networks cs).map addNetwork) [])).map Prod.snd = _ := value_networks cs name
  have hsorted : sort.slice (fun a b : String => decide (a ≤ b)) [] = [] :=
    List.perm_nil.mp (sort.perm _ [])
  rw [instanceMap, Keyed.value_applyAll, filter_interfaceEdits]
  by_cases hconfigs : configsOf cs name = []
  · simp only [hconfigs, if_true, true_and, List.foldl_nil, hheld, instanceOf, List.map_nil, hsorted]
  · rw [if_neg hconfigs, if_neg (fun h => hconfigs h.1), interfaceEdits, List.foldl_append]
    have hlisted := @Keyed.foldl_alter String NetworkInstance InterfaceConfig name { name }
      (fun config nI => { nI with interfaces := nI.interfaces ++ [config.name] })
      (configsOf cs name) (Keyed.lookup Prod.fst name
        (Keyed.applyAll ((networks cs).map addNetwork) [])) hconfigs
    have hbase : (if networksOf cs name = [] then none
        else some ({ name, dataNetworks := networksOf cs name } : NetworkInstance)).getD { name } =
          { name, dataNetworks := networksOf cs name } := by
      split
      next hnil => rw [hnil]; rfl
      next => rfl
    rw [hheld, hbase, foldl_listInterface] at hlisted
    obtain ⟨x, hx, hvalue⟩ := Option.map_eq_some_iff.mp hlisted
    simp only [List.foldl_cons, List.foldl_nil, Keyed.Edit.adjust, hx, hvalue, Option.map_some]
    rfl

end Maps

/-! ## What is written -/

section WriteSpec

variable (nf : NFDeploymentSpec Q) (cs : List (Change Q))

/-- The spec that a call on a new function writes. -/
def specOf (sort : Go.SliceSort) (ord : Order) : NFDeploymentSpec Q :=
  ((changed cs { newFunction with paramRef := nf.parametersRefs }).writeSpec sort ord nf).2

theorem capacity_specOf : (specOf nf cs sort ord).capacity = (capacities cs).getLast?.or nf.capacity := by
  rw [specOf, capacity_writeSpec]
  simp only [changed, newFunction, Option.or_none]

theorem parametersRefs_specOf :
    (specOf nf cs sort ord).parametersRefs =
      sort.slice paramRefLess ((references cs).foldl insertRef nf.parametersRefs) := rfl

theorem interfaces_specOf :
    (specOf nf cs sort ord).interfaces =
      sort.slice (fun a b => a.name < b.name)
        ((ord.range .getAllInterfaceConfig (configMap cs)).flatMap Prod.snd) := by
  simp only [specOf, writeSpec, getAllInterfaceConfig, foldl_addInterfaces_eq]
  rfl

theorem networkInstances_specOf :
    (specOf nf cs sort ord).networkInstances =
      sort.slice (fun a b => a.name < b.name)
        ((ord.range .getAllNetworkInstance (instanceMap sort ord cs)).map Prod.snd) := by
  simp only [specOf, writeSpec, getAllNetworkInstance, foldl_addInterfaces_eq]
  rfl

/-- **The interfaces of the spec** are those that the children brought. -/
theorem perm_interfaces :
    (specOf nf cs sort ord).interfaces.Perm ((configs cs).map Prod.snd) := by
  rw [interfaces_specOf]
  refine (sort.perm _ _).trans (((ord.perm _ _).flatMap_right _).trans ?_)
  have hentries : (Keyed.entries id (configMap cs)).Perm (configs cs) := by
    refine Keyed.perm_entries (nodup_configMap cs) fun name => .of_eq ?_
    rw [value_configMap]
    split
    next hnil => exact hnil.symm
    next => rfl
  refine List.Perm.trans (.of_eq ?_) (hentries.map Prod.snd)
  rw [Keyed.entries, List.map_flatMap]
  refine List.flatMap_congr fun e _ => ?_
  rw [List.map_map]
  exact (List.map_id _).symm

theorem perm_networkInstances :
    (specOf nf cs sort ord).networkInstances.Perm ((instanceMap sort ord cs).map Prod.snd) := by
  rw [networkInstances_specOf]
  exact (sort.perm _ _).trans ((ord.perm _ _).map _)

theorem mem_instanceMap_iff {e : String × NetworkInstance} :
    e ∈ instanceMap sort ord cs ↔
      ¬ (configsOf cs e.1 = [] ∧ networksOf cs e.1 = []) ∧ e.2 = instanceOf sort cs e.1 := by
  obtain ⟨name, nI⟩ := e
  rw [← Keyed.value_eq_some_iff (nodup_instanceMap sort ord cs), value_instanceMap]
  split
  next h => exact ⟨nofun, fun h' => absurd h h'.1⟩
  next h => rw [Option.some_inj, and_iff_right h, eq_comm]

/-- The network instances have distinct names. -/
theorem nodup_names_instanceMap :
    (((instanceMap sort ord cs).map Prod.snd).map NetworkInstance.name).Nodup := by
  have hnames : ((instanceMap sort ord cs).map Prod.snd).map NetworkInstance.name =
      Keyed.keys Prod.fst (instanceMap sort ord cs) := by
    rw [List.map_map]
    refine List.map_congr_left fun e he => ?_
    have hname := congrArg NetworkInstance.name ((mem_instanceMap_iff cs).mp he).2
    exact hname
  rw [hnames]
  exact nodup_instanceMap sort ord cs

theorem pairwise_networkInstances :
    (specOf nf cs sort ord).networkInstances.Pairwise fun a b => a.name < b.name := by
  rw [networkInstances_specOf]
  refine Go.pairwise_slice_lt sort ?_
  exact (((ord.perm _ _).map _).map _).nodup_iff.mpr (nodup_names_instanceMap cs)

/-- **The network instances of the spec** are those that a child names. -/
theorem mem_networkInstances_iff {nI : NetworkInstance} :
    nI ∈ (specOf nf cs sort ord).networkInstances ↔
      ∃ name, ¬ (configsOf cs name = [] ∧ networksOf cs name = []) ∧
        nI = instanceOf sort cs name := by
  rw [(perm_networkInstances nf cs).mem_iff, List.mem_map]
  constructor
  · rintro ⟨e, he, rfl⟩
    exact ⟨e.1, (mem_instanceMap_iff cs).mp he⟩
  · rintro ⟨name, hname, rfl⟩
    exact ⟨(name, instanceOf sort cs name), (mem_instanceMap_iff cs).mpr ⟨hname, rfl⟩, rfl⟩

/-! ## The orders of the maps -/

theorem networkInstances_order (ord' : Order) :
    (specOf nf cs sort ord).networkInstances = (specOf nf cs sort ord').networkInstances := by
  rw [networkInstances_specOf, networkInstances_specOf]
  have hmaps : (instanceMap sort ord cs).Perm (instanceMap sort ord' cs) := by
    refine Keyed.perm_of_value (nodup_instanceMap sort ord cs) (nodup_instanceMap sort ord' cs) ?_
    intro name
    rw [value_instanceMap, value_instanceMap]
  refine Go.slice_lt_eq_of_perm sort ?_ ?_
  · exact ((ord.perm _ _).trans (hmaps.trans (ord'.perm _ _).symm)).map _
  · exact (((ord.perm _ _).map _).map _).nodup_iff.mpr (nodup_names_instanceMap cs)

theorem interfaces_order (ord' : Order)
    (hnodup : (((configs cs).map Prod.snd).map InterfaceConfig.name).Nodup) :
    (specOf nf cs sort ord).interfaces = (specOf nf cs sort ord').interfaces := by
  have hperm := @perm_interfaces Q sort ord nf cs
  rw [interfaces_specOf] at hperm
  rw [interfaces_specOf, interfaces_specOf]
  refine Go.slice_lt_eq_of_perm sort ?_ ?_
  · exact ((ord.perm _ _).trans (ord'.perm _ _).symm).flatMap_right _
  · exact (((sort.perm _ _).symm.trans hperm).map _).nodup_iff.mpr hnodup

/-! ## What the network instances list -/

/-- The interfaces that the network instances of a spec list, and their data networks. -/
def listedInterfaces (spec : NFDeploymentSpec Q) : List (String × String) :=
  spec.networkInstances.flatMap fun nI => nI.interfaces.map fun name => (nI.name, name)

@[inherit_doc listedInterfaces]
def listedNetworks (spec : NFDeploymentSpec Q) : List (String × DataNetwork) :=
  spec.networkInstances.flatMap fun nI => nI.dataNetworks.map fun dnn => (nI.name, dnn)

theorem perm_flatMap_networkInstances {γ : Type} (list : NetworkInstance → List γ) :
    ((specOf nf cs sort ord).networkInstances.flatMap fun nI =>
        (list nI).map fun c => (nI.name, c)).Perm
      (Keyed.entries list (instanceMap sort ord cs)) := by
  refine ((perm_networkInstances nf cs).flatMap_right _).trans (.of_eq ?_)
  rw [List.flatMap_map, Keyed.entries]
  refine List.flatMap_congr fun e he => ?_
  have hname : e.2.name = e.1 := congrArg NetworkInstance.name ((mem_instanceMap_iff cs).mp he).2
  rw [hname]

/-- **Every interface is listed in its network instance**, and nothing else. -/
theorem perm_listedInterfaces :
    (listedInterfaces (specOf nf cs sort ord)).Perm
      ((configs cs).map fun x => (x.1, x.2.name)) := by
  refine (perm_flatMap_networkInstances nf cs _).trans ?_
  refine Keyed.perm_entries (nodup_instanceMap sort ord cs) fun name => ?_
  have hright : (((configs cs).map fun x => (x.1, x.2.name)).filter (·.1 = name)).map Prod.snd =
      (configsOf cs name).map InterfaceConfig.name := by
    rw [List.filter_map, List.map_map, configsOf, List.map_map]
    rfl
  rw [hright, value_instanceMap]
  split
  next h =>
    rw [h.1]
    exact .refl _
  next => exact sort.perm _ _

theorem perm_listedNetworks : (listedNetworks (specOf nf cs sort ord)).Perm (networks cs) := by
  refine (perm_flatMap_networkInstances nf cs _).trans ?_
  refine Keyed.perm_entries (nodup_instanceMap sort ord cs) fun name => .of_eq ?_
  rw [value_instanceMap]
  split
  next h => exact h.2.symm
  next => rfl

end WriteSpec

end Nephio.NfDeployFn
