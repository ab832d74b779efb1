import Nephio.NfDeployFn.Function

/-!
# Laws.NfDeployFn.Isolation: NFDeployments of one package

A call of `UpdateResourceFn` is compared with the same call on a new function (`Above`): the updates
of the children do the same from both states, and what the earlier calls collected comes on top. It
is never taken out, so that it shows in the spec unless there is none of it
(`written_eq_alone_iff`).
-/

namespace Nephio.NfDeployFn

open Workload

variable {V Q : Type} {api : Api V Q} {sort : Go.SliceSort} {ord : Order}

/-! ## What a state holds -/

/-- The interface configs of all network instances. -/
def configCount (f : NfDeployFn Q) : Nat := (f.interfaceConfigsMap.map fun e => e.2.length).sum

/-- The data networks of all network instances. -/
def dataNetworkCount (f : NfDeployFn Q) : Nat :=
  (f.networkInstance.map fun e => e.2.dataNetworks.length).sum

theorem configCount_setInterfaceConfig (f : NfDeployFn Q) (c : InterfaceConfig) (name : String) :
    (f.setInterfaceConfig c name).configCount =
      f.configCount + if name = "" then 0 else 1 := by
  unfold setInterfaceConfig
  by_cases hname : name = ""
  · rw [if_pos hname, if_pos hname, Nat.add_zero]
  · rw [if_neg hname, if_neg hname]
    have hsum := Keyed.sum_map_upsert (Prod.fst : String × List InterfaceConfig → String)
      (fun e => e.2.length)
      (name, ((Keyed.lookup Prod.fst name f.interfaceConfigsMap).map Prod.snd).getD [] ++ [c])
      f.interfaceConfigsMap
    unfold configCount
    cases hfound : Keyed.lookup Prod.fst name f.interfaceConfigsMap with
    | none =>
      simp only [hfound, Option.map_none, Option.getD_none, List.nil_append, List.length_singleton]
        at hsum ⊢
      exact hsum
    | some e =>
      simp only [hfound, Option.map_some, Option.getD_some, List.length_append,
        List.length_singleton] at hsum ⊢
      omega

theorem dataNetworkCount_upsertNetworkInstance (f : NfDeployFn Q) (name : String)
    {change : NetworkInstance → NetworkInstance} {new : NetworkInstance}
    (hchange : ∀ nI, (change nI).dataNetworks.length =
      nI.dataNetworks.length + new.dataNetworks.length) :
    (f.upsertNetworkInstance name change new).dataNetworkCount =
      f.dataNetworkCount + new.dataNetworks.length := by
  unfold upsertNetworkInstance dataNetworkCount
  cases hfound : Keyed.lookup Prod.fst name f.networkInstance with
  | none =>
    have hsum := Keyed.sum_map_upsert (Prod.fst : String × NetworkInstance → String)
      (fun e => e.2.dataNetworks.length) (name, new) f.networkInstance
    simp only [hfound, Option.map_none, Option.getD_none] at hsum
    exact hsum
  | some e =>
    have hsum := Keyed.sum_map_upsert (Prod.fst : String × NetworkInstance → String)
      (fun e => e.2.dataNetworks.length) (name, change e.2) f.networkInstance
    simp only [hfound, Option.map_some, Option.getD_some, hchange] at hsum
    simp only
    omega

/-- The changes to the network instances leave the other fields. -/
theorem upsertNetworkInstance_frame (f : NfDeployFn Q) (name : String)
    (change : NetworkInstance → NetworkInstance) (new : NetworkInstance) :
    (f.upsertNetworkInstance name change new).capacity = f.capacity ∧
      (f.upsertNetworkInstance name change new).interfaceConfigsMap = f.interfaceConfigsMap ∧
      (f.upsertNetworkInstance name change new).paramRef = f.paramRef := by
  unfold upsertNetworkInstance
  split <;> exact ⟨rfl, rfl, rfl⟩

theorem upsertNetworkInstance_congr {f g : NfDeployFn Q} (h : f.networkInstance = g.networkInstance)
    (name : String) (change : NetworkInstance → NetworkInstance) (new : NetworkInstance) :
    (f.upsertNetworkInstance name change new).networkInstance =
      (g.upsertNetworkInstance name change new).networkInstance := by
  unfold upsertNetworkInstance
  rw [h]
  split <;> rfl

/-! ## A call on top of others -/

/-- `s` is what `t` is, on top of `g`: the same call was made from `g` and from an empty state. -/
structure Above (g s t : NfDeployFn Q) : Prop where
  paramRef : s.paramRef = t.paramRef
  capacity : s.capacity = t.capacity.or g.capacity
  configCount : s.configCount = g.configCount + t.configCount
  dataNetworkCount : s.dataNetworkCount = g.dataNetworkCount + t.dataNetworkCount
  configs : g.interfaceConfigsMap = [] → s.interfaceConfigsMap = t.interfaceConfigsMap
  networks : g.networkInstance = [] → s.networkInstance = t.networkInstance

section Above

variable {g s t : NfDeployFn Q} (h : Above g s t)

include h

theorem Above.setInterfaceConfig (c : InterfaceConfig) (name : String) :
    Above g (s.setInterfaceConfig c name) (t.setInterfaceConfig c name) := by
  have hcounts : (s.setInterfaceConfig c name).configCount =
      g.configCount + (t.setInterfaceConfig c name).configCount := by
    rw [configCount_setInterfaceConfig, configCount_setInterfaceConfig, h.configCount, Nat.add_assoc]
  by_cases hname : name = ""
  · simp only [NfDeployFn.setInterfaceConfig, hname, if_true]
    exact h
  · simp only [NfDeployFn.setInterfaceConfig, hname, if_false] at hcounts ⊢
    refine ⟨h.paramRef, h.capacity, hcounts, h.dataNetworkCount, fun hg => ?_, h.networks⟩
    simp only [h.configs hg]

theorem Above.upsertNetworkInstance (name : String) {change : NetworkInstance → NetworkInstance}
    {new : NetworkInstance} (hchange : ∀ nI, (change nI).dataNetworks.length =
      nI.dataNetworks.length + new.dataNetworks.length) :
    Above g (s.upsertNetworkInstance name change new) (t.upsertNetworkInstance name change new) := by
  obtain ⟨hcap, hconf, hparam⟩ := upsertNetworkInstance_frame s name change new
  obtain ⟨hcap', hconf', hparam'⟩ := upsertNetworkInstance_frame t name change new
  constructor
  · rw [hparam, hparam', h.paramRef]
  · rw [hcap, hcap', h.capacity]
  · unfold NfDeployFn.configCount
    rw [hconf, hconf']
    exact h.configCount
  · rw [dataNetworkCount_upsertNetworkInstance s name hchange,
      dataNetworkCount_upsertNetworkInstance t name hchange, h.dataNetworkCount, Nat.add_assoc]
  · intro hg
    rw [hconf, hconf', h.configs hg]
  · intro hg
    exact upsertNetworkInstance_congr (h.networks hg) name change new

theorem Above.addDependencyRef (ref : ObjectReference) :
    Fallible.Agree (Above g) (s.addDependencyRef ref) (t.addDependencyRef ref) := by
  unfold NfDeployFn.addDependencyRef
  rw [h.paramRef]
  cases checkDependencyExist ref t.paramRef with
  | error p => exact .error p
  | ok found =>
    cases found with
    | true => exact .ok h
    | false =>
      exact .ok ⟨rfl, h.capacity, h.configCount, h.dataNetworkCount, h.configs, h.networks⟩

/-- Every update does the same from the two states. -/
theorem Above.update {e : Update V Q × KubeObject V} {objs : List (KubeObject V)}
    (he : e ∈ updates api objs) : Fallible.Agree (Fallible.Agree (Above g)) (e.1 s e.2) (e.1 t e.2) := by
  simp only [updates, List.mem_append, List.mem_map] at he
  rcases he with ((⟨o, -, rfl⟩ | ⟨o, -, rfl⟩) | ⟨o, -, rfl⟩) | ⟨o, -, rfl⟩
  · simp only [capacityUpdate]
    cases api.capacity o with
    | error err => exact .ok (.error err)
    | ok q =>
      exact .ok (.ok ⟨h.paramRef, rfl, h.configCount, h.dataNetworkCount, h.configs, h.networks⟩)
  · simp only [dnnUpdate]
    cases api.dataNetwork o with
    | error err => exact .ok (.error err)
    | ok x =>
      simp only
      cases x.2.pools with
      | none => exact .ok (.ok h)
      | some pools =>
        exact .ok (.ok (h.upsertNetworkInstance _ fun nI => List.length_append))
  · simp only [interfaceUpdate]
    cases api.interface o with
    | error err => exact .ok (.error err)
    | ok x =>
      simp only
      cases api.validate x.1 with
      | some err => exact .ok (.error err)
      | none =>
        simp only
        split
        next ipClaims vlanClaim hips hvlan =>
          cases ipClaims.foldlM (addresses api) (none, none) with
          | error err => exact .ok (.error err)
          | ok ips =>
            simp only
            cases x.1.networkInstance with
            | none => exact .error _
            | some networkInstance => exact .ok (.ok (h.setInterfaceConfig _ _))
        next => exact .ok (.ok h)
  · simp only [dependencyUpdate]
    cases api.dependency o with
    | error err => exact .ok (.error err)
    | ok status =>
      refine (Fallible.foldlM_agree (fun ref _ s t h => ?_) h).bind fun s' t' h' => ?_
      · exact Above.addDependencyRef h ref
      · exact .ok (.ok h')

end Above

/-! ## The spec that is written -/

theorem addInterface_frame (f : NfDeployFn Q) (configs : List InterfaceConfig) (name : String) :
    let f' := configs.foldl (fun f c => f.addInterfaceToNetworkInstance c.name name) f
    f'.capacity = f.capacity ∧ f'.interfaceConfigsMap = f.interfaceConfigsMap ∧
      f'.dataNetworkCount = f.dataNetworkCount := by
  induction configs generalizing f with
  | nil => exact ⟨rfl, rfl, rfl⟩
  | cons c configs ih =>
    obtain ⟨hcap, hconf, -⟩ := upsertNetworkInstance_frame f name
      (fun nI => { nI with interfaces := nI.interfaces ++ [c.name] })
      { name := name, interfaces := [c.name] }
    have hcount : (f.addInterfaceToNetworkInstance c.name name).dataNetworkCount =
        f.dataNetworkCount := dataNetworkCount_upsertNetworkInstance f name fun nI => rfl
    obtain ⟨ihcap, ihconf, ihcount⟩ := ih (f.addInterfaceToNetworkInstance c.name name)
    exact ⟨ihcap.trans hcap, ihconf.trans hconf, ihcount.trans hcount⟩

/-- A turn of the loop over `interfaceConfigsMap` changes the interfaces of network instances. -/
theorem addInterfaces_frame (f : NfDeployFn Q) (e : String × List InterfaceConfig) :
    (f.addInterfaces sort e).capacity = f.capacity ∧
      (f.addInterfaces sort e).interfaceConfigsMap = f.interfaceConfigsMap ∧
      (f.addInterfaces sort e).dataNetworkCount = f.dataNetworkCount := by
  obtain ⟨hcap, hconf, hcount⟩ := addInterface_frame f e.2 e.1
  unfold addInterfaces
  simp only
  cases hfound : Keyed.lookup Prod.fst e.1 (e.2.foldl
      (fun f c => f.addInterfaceToNetworkInstance c.name e.1) f).networkInstance with
  | none => exact ⟨hcap, hconf, hcount⟩
  | some x =>
    refine ⟨hcap, hconf, Eq.trans ?_ hcount⟩
    have hsum := Keyed.sum_map_upsert (Prod.fst : String × NetworkInstance → String)
      (fun e => e.2.dataNetworks.length)
      (e.1, { x.2 with interfaces := sort.slice (fun a b => a ≤ b) x.2.interfaces })
      (e.2.foldl (fun f c => f.addInterfaceToNetworkInstance c.name e.1) f).networkInstance
    simp only [hfound, Option.map_some, Option.getD_some] at hsum
    unfold dataNetworkCount
    simp only
    omega

theorem addInterfaces_congr {f g : NfDeployFn Q} (h : f.networkInstance = g.networkInstance)
    (e : String × List InterfaceConfig) :
    (f.addInterfaces sort e).networkInstance = (g.addInterfaces sort e).networkInstance := by
  have hfold : ∀ configs : List InterfaceConfig, ∀ f g : NfDeployFn Q,
      f.networkInstance = g.networkInstance →
      (configs.foldl (fun f c => f.addInterfaceToNetworkInstance c.name e.1) f).networkInstance =
        (configs.foldl (fun f c => f.addInterfaceToNetworkInstance c.name e.1) g).networkInstance := by
    intro configs
    induction configs with
    | nil => exact fun f g h => h
    | cons c configs ih => exact fun f g h => ih _ _ (upsertNetworkInstance_congr h e.1 _ _)
  unfold addInterfaces
  simp only [hfold e.2 f g h]
  split
  next => exact hfold e.2 f g h
  next => rfl

section WriteSpec

variable (f : NfDeployFn Q) (nf : NFDeploymentSpec Q)

theorem foldl_addInterfaces_frame (l : List (String × List InterfaceConfig)) :
    (l.foldl (addInterfaces sort) f).capacity = f.capacity ∧
      (l.foldl (addInterfaces sort) f).interfaceConfigsMap = f.interfaceConfigsMap ∧
      (l.foldl (addInterfaces sort) f).dataNetworkCount = f.dataNetworkCount := by
  induction l generalizing f with
  | nil => exact ⟨rfl, rfl, rfl⟩
  | cons e l ih =>
    obtain ⟨hcap, hconf, hcount⟩ := @addInterfaces_frame Q sort f e
    obtain ⟨ihcap, ihconf, ihcount⟩ := ih (f.addInterfaces sort e)
    exact ⟨ihcap.trans hcap, ihconf.trans hconf, ihcount.trans hcount⟩

theorem foldl_addInterfaces_congr {f g : NfDeployFn Q} (h : f.networkInstance = g.networkInstance)
    (l : List (String × List InterfaceConfig)) :
    (l.foldl (addInterfaces sort) f).networkInstance =
      (l.foldl (addInterfaces sort) g).networkInstance := by
  induction l generalizing f g with
  | nil => exact h
  | cons e l ih => exact ih (addInterfaces_congr h e)

theorem capacity_writeSpec : (f.writeSpec sort ord nf).2.capacity = f.capacity.or nf.capacity := by
  unfold writeSpec fillCapacityDetails
  cases f.capacity <;> rfl

theorem length_interfaces_writeSpec :
    (f.writeSpec sort ord nf).2.interfaces.length = f.configCount := by
  simp only [writeSpec, getAllInterfaceConfig]
  rw [(sort.perm _ _).length_eq, List.length_flatMap, (foldl_addInterfaces_frame _ _).2.1]
  exact ((ord.perm _ _).map _).sum_eq

theorem sum_networkInstances_writeSpec :
    ((f.writeSpec sort ord nf).2.networkInstances.map fun nI => nI.dataNetworks.length).sum =
      f.dataNetworkCount := by
  simp only [writeSpec, getAllNetworkInstance]
  rw [((sort.perm _ _).map _).sum_eq, List.map_map, ((ord.perm _ _).map _).sum_eq]
  exact (foldl_addInterfaces_frame _ _).2.2

theorem writeSpec_congr {g : NfDeployFn Q} (hparam : f.paramRef = g.paramRef)
    (hconf : f.interfaceConfigsMap = g.interfaceConfigsMap)
    (hnet : f.networkInstance = g.networkInstance)
    (hcap : f.capacity.or nf.capacity = g.capacity.or nf.capacity) :
    (f.writeSpec sort ord nf).2 = (g.writeSpec sort ord nf).2 := by
  ext1
  case capacity => rw [capacity_writeSpec, capacity_writeSpec, hcap]
  case interfaces =>
    simp only [writeSpec, getAllInterfaceConfig]
    rw [(foldl_addInterfaces_frame _ _).2.1, (foldl_addInterfaces_frame _ _).2.1]
    simp only [hconf]
  case networkInstances =>
    have hnet' := @foldl_addInterfaces_congr Q sort
      { f with paramRef := sort.slice paramRefLess f.paramRef }
      { g with paramRef := sort.slice paramRefLess g.paramRef } hnet
      (ord.range .updateResourceFn g.interfaceConfigsMap)
    simp only [hconf] at hnet'
    simp only [writeSpec, getAllNetworkInstance, hconf]
    rw [hnet']
  case parametersRefs =>
    simp only [writeSpec, hparam]

end WriteSpec

/-! ## States that calls lead to -/

/-- A state that some calls lead to, each with an order of its own. -/
inductive Reached (api : Api V Q) (sort : Go.SliceSort) : NfDeployFn Q → Prop where
  | new : Reached api sort newFunction
  | call {f f' : NfDeployFn Q} {out : Except String (List (KubeObject V))} (ord : Order)
      (nfDeploymentObj : Option (KubeObject V)) (objs : List (KubeObject V))
      (hf : Reached api sort f)
      (h : f.updateResourceFn api sort ord nfDeploymentObj objs = .ok (f', out)) :
      Reached api sort f'

/-- What an update changes. -/
theorem update_cases {f f' : NfDeployFn Q} {e : Update V Q × KubeObject V}
    {objs : List (KubeObject V)} (he : e ∈ updates api objs) (h : e.1 f e.2 = .ok (.ok f')) :
    (∃ q, e.2 ∈ whereKind "Capacity" objs ∧ f' = { f with capacity := some q }) ∨
      (∃ dnn name, f' = f.addDNNToNetworkInstance dnn name) ∨
      (∃ c name, f' = f.setInterfaceConfig c name) ∨ ∃ refs, f' = { f with paramRef := refs } := by
  simp only [updates, List.mem_append, List.mem_map] at he
  rcases he with ((⟨o, ho, rfl⟩ | ⟨o, -, rfl⟩) | ⟨o, -, rfl⟩) | ⟨o, -, rfl⟩
  · left
    simp only [capacityUpdate, Except.ok.injEq] at h
    split at h
    next => cases h
    next q _ =>
      cases h
      exact ⟨q, ho, rfl⟩
  · right
    simp only [dnnUpdate, Except.ok.injEq] at h
    split at h
    next => cases h
    next =>
      split at h
      next =>
        cases h
        exact Or.inr (Or.inr ⟨f.paramRef, rfl⟩)
      next =>
        cases h
        exact Or.inl ⟨_, _, rfl⟩
  · right
    right
    simp only [interfaceUpdate] at h
    split at h
    next => cases h
    next =>
      split at h
      next => cases h
      next =>
        split at h
        next =>
          split at h
          next => cases h
          next =>
            split at h
            next => cases h
            next =>
              cases h
              exact Or.inl ⟨_, _, rfl⟩
        next =>
          cases h
          exact Or.inr ⟨f.paramRef, rfl⟩
  · right
    right
    right
    simp only [dependencyUpdate] at h
    split at h
    next => cases h
    next status _ =>
      obtain ⟨f₁, hf₁, h⟩ := Fallible.bind_eq_ok.mp h
      cases h
      refine Fallible.foldlM_invariant (fun s => ∃ refs, s = { f with paramRef := refs })
        (fun s s' ref _ hs hstep => ?_) ⟨f.paramRef, rfl⟩ hf₁
      obtain ⟨refs, rfl⟩ := hs
      obtain ⟨found, -, hfound⟩ := Fallible.bind_eq_ok.mp hstep
      cases found with
      | true =>
        cases hfound
        exact ⟨refs, rfl⟩
      | false =>
        cases hfound
        exact ⟨_, rfl⟩

/-- A network instance is there for a data network, or for the interface configs. -/
structure Tidy (f : NfDeployFn Q) : Prop where
  configs : ∀ e ∈ f.interfaceConfigsMap, e.2 ≠ []
  networks : f.interfaceConfigsMap = [] → ∀ e ∈ f.networkInstance, e.2.dataNetworks ≠ []

theorem Tidy.setInterfaceConfig {f : NfDeployFn Q} (hf : f.Tidy) (c : InterfaceConfig)
    (name : String) : (f.setInterfaceConfig c name).Tidy := by
  unfold NfDeployFn.setInterfaceConfig
  split_ifs
  · exact hf
  · constructor
    · intro e he
      rcases Keyed.mem_of_mem_upsert _ he with rfl | he
      · exact List.append_ne_nil_of_right_ne_nil _ (List.cons_ne_nil _ _)
      · exact hf.configs e he
    · intro hnil
      exact absurd hnil (List.ne_nil_of_mem (Keyed.mem_upsert_self _ _ _))

theorem Tidy.addDNNToNetworkInstance {f : NfDeployFn Q} (hf : f.Tidy) (dnn : DataNetwork)
    (name : String) : (f.addDNNToNetworkInstance dnn name).Tidy := by
  have hset : ∀ nI : NetworkInstance, nI.dataNetworks ≠ [] →
      Tidy { f with networkInstance := Keyed.upsert Prod.fst (name, nI) f.networkInstance } := by
    intro nI hnI
    refine ⟨hf.configs, fun hnil e he => ?_⟩
    rcases Keyed.mem_of_mem_upsert _ he with rfl | he
    · exact hnI
    · exact hf.networks hnil e he
  unfold NfDeployFn.addDNNToNetworkInstance NfDeployFn.upsertNetworkInstance
  split
  · exact hset _ (List.append_ne_nil_of_right_ne_nil _ (List.cons_ne_nil _ _))
  · exact hset _ (List.cons_ne_nil _ _)

theorem Tidy.update {f f' : NfDeployFn Q} (hf : f.Tidy) {e : Update V Q × KubeObject V}
    {objs : List (KubeObject V)} (he : e ∈ updates api objs) (h : e.1 f e.2 = .ok (.ok f')) :
    f'.Tidy := by
  rcases update_cases he h with ⟨q, -, rfl⟩ | ⟨dnn, name, rfl⟩ | ⟨c, name, rfl⟩ | ⟨refs, rfl⟩
  · exact ⟨hf.configs, hf.networks⟩
  · exact hf.addDNNToNetworkInstance dnn name
  · exact hf.setInterfaceConfig c name
  · exact ⟨hf.configs, hf.networks⟩

theorem Tidy.writeSpec {f : NfDeployFn Q} (hf : f.Tidy) (nf : NFDeploymentSpec Q) :
    (f.writeSpec sort ord nf).1.Tidy := by
  simp only [NfDeployFn.writeSpec]
  constructor
  · rw [(foldl_addInterfaces_frame _ _).2.1]
    exact hf.configs
  · rw [(foldl_addInterfaces_frame _ _).2.1]
    intro hnil
    -- without interface configs the loop has no turns
    have hnone : ord.range .updateResourceFn f.interfaceConfigsMap = [] := by
      rw [hnil]
      exact List.perm_nil.mp (ord.perm _ _)
    simp only [hnone, List.foldl_nil]
    exact hf.networks hnil

theorem Tidy.updateSpec {f f' : NfDeployFn Q} (hf : f.Tidy) {nf : NFDeploymentSpec Q}
    {objs : List (KubeObject V)} {out : Except String (NFDeploymentSpec Q)}
    (h : f.updateSpec api sort ord nf objs = .ok (f', out)) : f'.Tidy := by
  obtain ⟨⟨f₁, err⟩, hloop, h⟩ := Fallible.bind_eq_ok.mp h
  have hstart : Tidy { f with paramRef := nf.parametersRefs } := ⟨hf.configs, hf.networks⟩
  have hf₁ : f₁.Tidy := Fallible.untilError_invariant Tidy
    (fun e he s s' hs hstep => hs.update he hstep) hstart hloop
  cases err with
  | some err =>
    cases h
    exact hf₁
  | none =>
    cases h
    exact hf₁.writeSpec nf

theorem Reached.tidy {f : NfDeployFn Q} (h : Reached api sort f) : f.Tidy := by
  induction h with
  | new => exact ⟨nofun, nofun⟩
  | call ord nfDeploymentObj objs _ h ih =>
    unfold updateResourceFn at h
    split at h
    · cases h
      exact ih
    · split at h
      · cases h
        exact ih
      · obtain ⟨⟨f₁, out⟩, hspec, h⟩ := Fallible.bind_eq_ok.mp h
        cases h
        exact ih.updateSpec hspec

/-! ## Calls and the calls before them -/

/-- Nothing of the state shows in the spec of an NFDeployment with these children. -/
def Silent (f : NfDeployFn Q) (nf : NFDeploymentSpec Q) (objs : List (KubeObject V)) : Prop :=
  f.interfaceConfigsMap = [] ∧ f.networkInstance = [] ∧
    (f.capacity = none ∨ whereKind "Capacity" objs ≠ [] ∨ f.capacity = nf.capacity)

/-- A tidy state without configs and data networks has no network instances. -/
theorem Tidy.empty {f : NfDeployFn Q} (hf : f.Tidy) (hconf : f.configCount = 0)
    (hnet : f.dataNetworkCount = 0) : f.interfaceConfigsMap = [] ∧ f.networkInstance = [] := by
  have hempty : f.interfaceConfigsMap = [] := by
    rw [List.eq_nil_iff_forall_not_mem]
    intro e he
    have hlen := List.sum_eq_zero_iff.mp hconf _ (List.mem_map_of_mem he)
    exact hf.configs e he (List.length_eq_zero_iff.mp hlen)
  refine ⟨hempty, List.eq_nil_iff_forall_not_mem.mpr fun e he => ?_⟩
  have hlen := List.sum_eq_zero_iff.mp hnet _ (List.mem_map_of_mem he)
  exact hf.networks hempty e he (List.length_eq_zero_iff.mp hlen)

theorem capacity_update {f f' : NfDeployFn Q} {e : Update V Q × KubeObject V}
    {objs : List (KubeObject V)} (he : e ∈ updates api objs) (h : e.1 f e.2 = .ok (.ok f')) :
    f'.capacity = f.capacity ∨ (e.2 ∈ whereKind "Capacity" objs ∧ f'.capacity.isSome) := by
  rcases update_cases he h with ⟨q, hq, rfl⟩ | ⟨dnn, name, rfl⟩ | ⟨c, name, rfl⟩ | ⟨refs, rfl⟩
  · exact Or.inr ⟨hq, rfl⟩
  · exact Or.inl (upsertNetworkInstance_frame f name _ _).1
  · left
    unfold setInterfaceConfig
    split_ifs <;> rfl
  · exact Or.inl rfl

/-- After the updates of a call from the empty state there is a capacity if a child is one. -/
theorem capacity_updates {f t : NfDeployFn Q} {objs : List (KubeObject V)} (hf : f.capacity = none)
    (h : Fallible.untilError (fun f e => e.1 f e.2) f (updates api objs) = .ok (t, none)) :
    t.capacity = none ↔ whereKind "Capacity" objs = [] := by
  constructor
  · intro ht
    by_contra hne
    obtain ⟨o, os, hos⟩ := List.exists_cons_of_ne_nil hne
    obtain ⟨rest, hrest⟩ : ∃ rest, updates api objs = (capacityUpdate api, o) :: rest := by
      simp only [updates, hos, List.map_cons, List.cons_append, List.cons.injEq, true_and,
        exists_eq']
    have hloop := h
    rw [hrest] at hloop
    obtain ⟨x, hx, hloop⟩ := Fallible.bind_eq_ok.mp hloop
    cases x with
    | error err => cases hloop
    | ok s₁ =>
      have hs₁ : s₁.capacity.isSome := by
        simp only [capacityUpdate, Except.ok.injEq] at hx
        split at hx
        next => cases hx
        next =>
          cases hx
          rfl
      have hsome : t.capacity.isSome := by
        refine Fallible.untilError_invariant (fun s => s.capacity.isSome = true)
          (fun e he s s' hs hstep => ?_) hs₁ hloop
        have hmem : e ∈ updates api objs := by
          rw [hrest]
          exact List.mem_cons_of_mem _ he
        rcases capacity_update hmem hstep with hsame | ⟨-, hsome⟩
        · rw [hsame]
          exact hs
        · exact hsome
      rw [ht] at hsome
      cases hsome
  · intro hnone
    have hinv : t.capacity = f.capacity := by
      refine Fallible.untilError_invariant (fun s => s.capacity = f.capacity)
        (fun e he s s' hs hstep => ?_) rfl h
      rcases capacity_update he hstep with hsame | ⟨hmem, -⟩
      · exact hsame.trans hs
      · rw [hnone] at hmem
        cases hmem
    exact hinv.trans hf

/-- The spec that a call writes, or why it writes none. -/
def written (api : Api V Q) (sort : Go.SliceSort) (ord : Order) (f : NfDeployFn Q)
    (nf : NFDeploymentSpec Q) (objs : List (KubeObject V)) :
    Except Go.Panic (Except String (NFDeploymentSpec Q)) :=
  (f.updateSpec api sort ord nf objs).map Prod.snd

/-- The specs that the children lead to from the two states are the same where nothing shows. -/
theorem writeSpec_above_iff {f s t : NfDeployFn Q} (hf : f.Tidy) (h : Above f s t)
    {nf : NFDeploymentSpec Q} {objs : List (KubeObject V)}
    (ht : t.capacity = none ↔ whereKind "Capacity" objs = []) :
    (s.writeSpec sort ord nf).2 = (t.writeSpec sort ord nf).2 ↔ f.Silent nf objs := by
  constructor
  · intro heq
    have hconf : f.configCount = 0 := by
      have hlen := congrArg (fun nf => nf.interfaces.length) heq
      simp only [length_interfaces_writeSpec, h.configCount] at hlen
      omega
    have hnet : f.dataNetworkCount = 0 := by
      have hsum := congrArg
        (fun nf => (nf.networkInstances.map fun nI => nI.dataNetworks.length).sum) heq
      simp only [sum_networkInstances_writeSpec, h.dataNetworkCount] at hsum
      omega
    obtain ⟨hconfigs, hnetworks⟩ := hf.empty hconf hnet
    refine ⟨hconfigs, hnetworks, ?_⟩
    have hcap := congrArg NFDeploymentSpec.capacity heq
    simp only [capacity_writeSpec, h.capacity] at hcap
    cases htcap : t.capacity with
    | some q =>
      right
      left
      rw [ne_eq, ← ht, htcap]
      nofun
    | none =>
      cases hfcap : f.capacity with
      | none => exact Or.inl rfl
      | some q =>
        simp only [htcap, hfcap, Option.none_or, Option.some_or] at hcap
        exact Or.inr (Or.inr hcap)
  · rintro ⟨hconfigs, hnetworks, hcap⟩
    refine writeSpec_congr s nf h.paramRef (h.configs hconfigs) (h.networks hnetworks) ?_
    rw [h.capacity]
    rcases hcap with hnone | hchild | hsame
    · rw [hnone, Option.or_none]
    · cases htcap : t.capacity with
      | none => exact absurd (ht.mp htcap) hchild
      | some q => rfl
    · rw [hsame]
      cases t.capacity <;> cases nf.capacity <;> rfl

/-- **NFDeployments leak into each other**: what a call writes, after any calls on other
NFDeployments, is what it writes alone exactly when it writes nothing or nothing of them shows. -/
theorem written_eq_alone_iff {f : NfDeployFn Q} (hf : Reached api sort f) (nf : NFDeploymentSpec Q)
    (objs : List (KubeObject V)) :
    written api sort ord f nf objs = written api sort ord newFunction nf objs ↔
      (∀ out, written api sort ord newFunction nf objs ≠ .ok (.ok out)) ∨ f.Silent nf objs := by
  have hstart : Above f { f with paramRef := nf.parametersRefs }
      { newFunction with paramRef := nf.parametersRefs } :=
    ⟨rfl, rfl, rfl, rfl, fun h => h, fun h => h⟩
  have hstep : ∀ e ∈ updates api objs, ∀ s t : NfDeployFn Q, Above f s t →
      Fallible.Agree (Fallible.Agree (Above f)) (e.1 s e.2) (e.1 t e.2) :=
    fun e he s t h => h.update he
  have hloop := Fallible.untilError_agree hstep hstart
  unfold written updateSpec
  generalize hs : Fallible.untilError (fun f e => e.1 f e.2)
    { f with paramRef := nf.parametersRefs } (updates api objs) = x at hloop ⊢
  generalize ht : Fallible.untilError (fun f e => e.1 f e.2)
    { newFunction with paramRef := nf.parametersRefs } (updates api objs) = y at hloop ⊢
  cases hloop with
  | error p => exact iff_of_true rfl (Or.inl nofun)
  | @ok a b hab =>
    obtain ⟨s, err⟩ := a
    obtain ⟨t, err'⟩ := b
    obtain ⟨habove, rfl⟩ := hab
    cases err with
    | some err => exact iff_of_true rfl (Or.inl nofun)
    | none =>
      have hsame := @writeSpec_above_iff V Q sort ord f s t hf.tidy habove nf objs
        (capacity_updates rfl ht)
      show Except.ok (Except.ok (s.writeSpec sort ord nf).2) =
        Except.ok (Except.ok (t.writeSpec sort ord nf).2) ↔ _
      rw [Except.ok.injEq, Except.ok.injEq, hsame]
      constructor
      · exact fun hsilent => Or.inr hsilent
      · rintro (hnone | hsilent)
        · exact absurd rfl (hnone _)
        · exact hsilent

/-! ## Two NFDeployments in a package -/

def nfDeploymentObj (name : String) : KubeObject Payload :=
  { apiVersion := "workload.nephio.org/v1alpha1", kind := "NFDeployment", name
    spec := some (.nfDeployment {}) }

/-- An Interface in the VPC `ran` with a claimed address. -/
def claimedInterface (name address : String) : KubeObject Payload :=
  { apiVersion := Req.groupVersion, kind := "Interface", name
    spec := some (.interface { networkInstance := some { apiVersion := "", kind := "", name := "ran" } }
      { ipClaimStatus := some [{ ipPrefix := some address }], vlanClaimStatus := some {} }) }

/-- A Dependency on a ConfigMap. -/
def injectedDependency (name : String) : KubeObject Payload :=
  { apiVersion := Req.groupVersion, kind := "Dependency", name
    spec := some (.dependency
      { injected := [{ apiVersion := "v1", kind := "ConfigMap", name := "config" }] }) }

/-- A Dependency of `amf` does not show in what is written for `smf`. -/
theorem dependency_isolated :
    ∃ f, Reached payloadApi .insertion f ∧ f ≠ newFunction ∧
      written payloadApi .insertion .insertion f {} [claimedInterface "n4" "10.0.0.2/24"] =
        written payloadApi .insertion .insertion newFunction {}
          [claimedInterface "n4" "10.0.0.2/24"] := by
  have hrun : Fallible.okAnd (fun x => decide (x.1 ≠ newFunction ∧ x.1.interfaceConfigsMap = [] ∧
        x.1.networkInstance = [] ∧ x.1.capacity = none))
      (newFunction.updateResourceFn payloadApi .insertion .insertion (some (nfDeploymentObj "amf"))
        [injectedDependency "amf-config"]) = true := by
    decide +kernel
  obtain ⟨⟨f, out⟩, hcall, hf⟩ := Fallible.exists_of_okAnd hrun
  obtain ⟨hne, hconf, hnet, hcap⟩ := of_decide_eq_true hf
  have hreached : Reached payloadApi .insertion f := .call .insertion _ _ .new hcall
  exact ⟨f, hreached, hne, (written_eq_alone_iff hreached _ _).mpr
    (Or.inr ⟨hconf, hnet, Or.inl hcap⟩)⟩

/-- The Interface of `amf` is written to `smf` too. -/
theorem interface_leaked :
    ∃ f spec alone, Reached payloadApi .insertion f ∧
      written payloadApi .insertion .insertion f {} [claimedInterface "n4" "10.0.0.2/24"] =
        .ok (.ok spec) ∧
      written payloadApi .insertion .insertion newFunction {}
        [claimedInterface "n4" "10.0.0.2/24"] = .ok (.ok alone) ∧
      spec.interfaces.map InterfaceConfig.name = ["n2", "n4"] ∧
      alone.interfaces.map InterfaceConfig.name = ["n4"] := by
  have hrun : Fallible.okAnd (fun x => Fallible.okAnd (Fallible.okAnd fun spec =>
        decide (spec.interfaces.map InterfaceConfig.name = ["n2", "n4"]))
        (written payloadApi .insertion .insertion x.1 {} [claimedInterface "n4" "10.0.0.2/24"]))
      (newFunction.updateResourceFn payloadApi .insertion .insertion (some (nfDeploymentObj "amf"))
        [claimedInterface "n2" "10.0.0.1/24"]) = true := by
    decide +kernel
  have halone : Fallible.okAnd (Fallible.okAnd fun spec =>
        decide (spec.interfaces.map InterfaceConfig.name = ["n4"]))
      (written payloadApi .insertion .insertion newFunction {}
        [claimedInterface "n4" "10.0.0.2/24"]) = true := by
    decide +kernel
  obtain ⟨⟨f, out⟩, hcall, hwritten⟩ := Fallible.exists_of_okAnd hrun
  obtain ⟨x, hx, hspec⟩ := Fallible.exists_of_okAnd hwritten
  obtain ⟨spec, rfl, hnames⟩ := Fallible.exists_of_okAnd hspec
  obtain ⟨y, hy, halone⟩ := Fallible.exists_of_okAnd halone
  obtain ⟨alone, rfl, hname⟩ := Fallible.exists_of_okAnd halone
  exact ⟨f, spec, alone, .call .insertion _ _ .new hcall, hx, hy, of_decide_eq_true hnames,
    of_decide_eq_true hname⟩

end Nephio.NfDeployFn
