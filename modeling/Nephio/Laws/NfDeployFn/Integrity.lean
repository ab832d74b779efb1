import Nephio.Laws.NfDeployFn.Spec

/-!
# Laws.NfDeployFn.Integrity: the two lists of a spec agree

`interfaces` and `networkInstances` are filled by different passes over the children and are written
in the order of their names. `Integrity` says what holds between them and the children, and a first
call that succeeds establishes it (`updateResourceFn_integrity`).
-/

namespace Nephio.NfDeployFn

open Workload

variable {V Q : Type} {api : Api V Q} {sort : Go.SliceSort} {ord : Order}

/-! ## Children that are part of the spec -/

/-- An Interface with both claim statuses and a network instance of a given name. -/
def Attached (api : Api V Q) (o : KubeObject V) (networkInstanceName : String) : Prop :=
  ∃ spec status ref, api.interface o = .ok (spec, status) ∧ status.ipClaimStatus.isSome ∧
    status.vlanClaimStatus.isSome ∧ spec.networkInstance = some ref ∧
    ref.name = networkInstanceName ∧ networkInstanceName ≠ ""

/-- A DataNetwork with the status of its pools and a network instance of a given name. -/
def Pooled (api : Api V Q) (o : KubeObject V) (networkInstanceName : String) : Prop :=
  ∃ spec status, api.dataNetwork o = .ok (spec, status) ∧ status.pools.isSome ∧
    spec.networkInstance.name = networkInstanceName

theorem attached_of_mem {o : KubeObject V} {x : String × InterfaceConfig}
    (hx : x ∈ attachment api o) : Attached api o x.1 ∧ x.2.name = o.name := by
  unfold attachment readInterface at hx
  cases hi : api.interface o with
  | error err =>
    rw [hi] at hx
    cases hx
  | ok read =>
    simp only [hi, Except.toOption, Option.bind_eq_bind, Option.bind_some] at hx
    split at hx
    · cases hx
    · split at hx
      next ipClaims vlanClaim hips hvlan =>
        cases hfold : ipClaims.foldlM (addresses api) (none, none) with
        | error err =>
          rw [hfold] at hx
          cases hx
        | ok ips =>
          cases hni : read.1.networkInstance with
          | none =>
            rw [hfold, hni] at hx
            cases hx
          | some ref =>
            simp only [hfold, hni, Option.bind_some, Option.getD_some, configs,
              List.filterMap_cons, List.filterMap_nil] at hx
            split at hx
            next heq => cases hx
            next y heq =>
              obtain rfl := List.mem_singleton.mp hx
              split at heq
              · cases heq
              · rename_i hname
                cases heq
                refine ⟨⟨read.1, read.2, ref, hi, ?_, ?_, hni, rfl, hname⟩, rfl⟩
                · rw [hips]
                  rfl
                · rw [hvlan]
                  rfl
      next => cases hx

theorem attachment_of_attached {o : KubeObject V} {name : String}
    (hread : (readInterface api o).isSome) (h : Attached api o name) :
    ∃ config, attachment api o = [(name, config)] ∧ config.name = o.name := by
  obtain ⟨spec, status, ref, hi, hips, hvlan, hni, rfl, hname⟩ := h
  obtain ⟨ipClaims, hips⟩ := Option.isSome_iff_exists.mp hips
  obtain ⟨vlanClaim, hvlan⟩ := Option.isSome_iff_exists.mp hvlan
  unfold attachment
  unfold readInterface at hread ⊢
  simp only [hi, Except.toOption, Option.bind_eq_bind, Option.bind_some, hips, hvlan, hni] at hread ⊢
  split at hread
  · cases hread
  · rename_i hvalid
    rw [if_neg hvalid]
    cases hfold : ipClaims.foldlM (addresses api) (none, none) with
    | error err =>
      rw [hfold] at hread
      cases hread
    | ok ips =>
      refine ⟨{ name := o.name, ipv4 := ips.1, ipv6 := ips.2, vlanID := vlanClaim.vlanID }, ?_, rfl⟩
      simp only [Option.bind_some, Option.getD_some, configs, List.filterMap_cons, hname, if_false,
        List.filterMap_nil]

theorem pooled_of_mem {o : KubeObject V} {x : String × DataNetwork} (hx : x ∈ pooling api o) :
    Pooled api o x.1 ∧ x.2.name = some o.name := by
  unfold pooling readDataNetwork at hx
  cases hd : api.dataNetwork o with
  | error err =>
    rw [hd] at hx
    cases hx
  | ok read =>
    simp only [hd, Except.toOption, Option.map_some, Option.getD_some] at hx
    cases hp : read.2.pools with
    | none =>
      rw [hp] at hx
      cases hx
    | some pools =>
      rw [hp] at hx
      obtain rfl := List.mem_singleton.mp hx
      refine ⟨⟨read.1, read.2, hd, ?_, rfl⟩, rfl⟩
      rw [hp]
      rfl

theorem pooling_of_pooled {o : KubeObject V} {name : String} (h : Pooled api o name) :
    ∃ dnn, pooling api o = [(name, dnn)] ∧ dnn.name = some o.name := by
  obtain ⟨spec, status, hd, hp, rfl⟩ := h
  obtain ⟨pools, hp⟩ := Option.isSome_iff_exists.mp hp
  refine ⟨dataNetworkOf o pools, ?_, rfl⟩
  unfold pooling readDataNetwork
  simp only [hd, Except.toOption, Option.map_some, Option.getD_some, hp]
  rfl

/-! ## The two lists -/

/-- What holds between a spec and the children it was written for. -/
structure Integrity (api : Api V Q) (objs : List (KubeObject V)) (spec : NFDeploymentSpec Q) :
    Prop where
  interfaces_sorted : spec.interfaces.Pairwise fun a b => a.name < b.name
  interfaces_exact : ∀ name, name ∈ spec.interfaces.map InterfaceConfig.name ↔
    ∃ o ∈ whereKind "Interface" objs, o.name = name ∧ ∃ ni, Attached api o ni
  networkInstances_sorted : spec.networkInstances.Pairwise fun a b => a.name < b.name
  /-- Of all the lists of interfaces, that of its network instance lists it, once. -/
  interface_listed : ∀ o ∈ whereKind "Interface" objs, ∀ ni, Attached api o ni →
    (listedInterfaces spec).filter (·.2 = o.name) = [(ni, o.name)]
  interfaces_attached : ∀ x ∈ listedInterfaces spec,
    ∃ o ∈ whereKind "Interface" objs, o.name = x.2 ∧ Attached api o x.1
  lists_sorted : ∀ nI ∈ spec.networkInstances, nI.interfaces.Pairwise (· < ·)
  dataNetwork_listed : ∀ o ∈ whereKind "DataNetwork" objs, ∀ ni, Pooled api o ni →
    ((listedNetworks spec).map fun x => (x.1, x.2.name)).filter (·.2 = some o.name) =
      [(ni, some o.name)]
  nonempty : ∀ nI ∈ spec.networkInstances, nI.interfaces ≠ [] ∨ nI.dataNetworks ≠ []

section Integrity

variable {objs : List (KubeObject V)} {cs : List (Change Q)} (nf : NFDeploymentSpec Q)
  (hcs : changes api objs = some cs)

include hcs

theorem nodup_names_configs (hnames : ((whereKind "Interface" objs).map KubeObject.name).Nodup) :
    (((configs cs).map Prod.snd).map InterfaceConfig.name).Nodup := by
  rw [configs_changes hcs, List.map_map]
  refine List.Nodup.sublist (Loops.map_flatMap_sublist _ fun o _ => ?_) hnames
  rcases @readInterface_cases _ _ api o with hr | hr | ⟨config, name, hr, hname⟩
  · simp [attachment, hr, configs]
  · simp [attachment, hr, configs]
  · by_cases hne : name = ""
    · simp [attachment, hr, configs, hne]
    · simp [attachment, hr, configs, hne, hname]

theorem isSome_readInterface {o : KubeObject V} (ho : o ∈ whereKind "Interface" objs) :
    (readInterface api o).isSome := by
  refine (changes_eq_some_iff.mp hcs).1 _ ?_
  refine List.mem_append_left _ (List.mem_append_right _ ?_)
  exact List.mem_map_of_mem ho

theorem specOf_integrity (hinterfaces : ((whereKind "Interface" objs).map KubeObject.name).Nodup)
    (hnetworks : ((whereKind "DataNetwork" objs).map KubeObject.name).Nodup) :
    Integrity api objs (specOf nf cs sort ord) := by
  have hnodup := nodup_names_configs hcs hinterfaces
  have hlisted := @perm_listedInterfaces Q sort ord nf cs
  have hdnns := @perm_listedNetworks Q sort ord nf cs
  have hconfigs := configs_changes hcs
  constructor
  case interfaces_sorted =>
    rw [interfaces_specOf]
    refine Go.pairwise_slice_lt sort ?_
    have hperm := @perm_interfaces Q sort ord nf cs
    rw [interfaces_specOf] at hperm
    exact (((sort.perm _ _).symm.trans hperm).map _).nodup_iff.mpr hnodup
  case interfaces_exact =>
    intro name
    rw [((perm_interfaces nf cs).map _).mem_iff, hconfigs]
    constructor
    · intro hmem
      obtain ⟨config, hconfig, rfl⟩ := List.mem_map.mp hmem
      obtain ⟨x, hx, rfl⟩ := List.mem_map.mp hconfig
      obtain ⟨o, ho, hx⟩ := List.mem_flatMap.mp hx
      obtain ⟨hattached, hname⟩ := attached_of_mem hx
      exact ⟨o, ho, hname.symm, x.1, hattached⟩
    · rintro ⟨o, ho, rfl, ni, hattached⟩
      obtain ⟨config, hconfig, hname⟩ :=
        attachment_of_attached (isSome_readInterface hcs ho) hattached
      refine List.mem_map.mpr ⟨config, List.mem_map.mpr ⟨(ni, config), ?_, rfl⟩, hname⟩
      exact List.mem_flatMap.mpr ⟨o, ho, hconfig ▸ List.mem_singleton_self _⟩
  case networkInstances_sorted => exact pairwise_networkInstances nf cs
  case interface_listed =>
    intro o ho ni hattached
    obtain ⟨config, hconfig, hname⟩ :=
      attachment_of_attached (isSome_readInterface hcs ho) hattached
    refine List.perm_singleton.mp ((hlisted.filter _).trans (.of_eq ?_))
    rw [hconfigs, List.map_flatMap, Keyed.filter_flatMap_of_key KubeObject.name hinterfaces ho]
    · simp [hconfig, hname]
    · intro o' _ hne x hx
      obtain ⟨y, hy, rfl⟩ := List.mem_map.mp hx
      rw [decide_eq_false_iff_not, (attached_of_mem hy).2]
      exact hne
  case interfaces_attached =>
    intro x hx
    obtain ⟨y, hy, rfl⟩ := List.mem_map.mp (hlisted.mem_iff.mp hx)
    rw [hconfigs] at hy
    obtain ⟨o, ho, hy⟩ := List.mem_flatMap.mp hy
    obtain ⟨hattached, hname⟩ := attached_of_mem hy
    exact ⟨o, ho, hname.symm, hattached⟩
  case lists_sorted =>
    intro nI hnI
    obtain ⟨name, -, rfl⟩ := (mem_networkInstances_iff nf cs).mp hnI
    have hsub : ((configsOf cs name).map InterfaceConfig.name).Sublist
        (((configs cs).map Prod.snd).map InterfaceConfig.name) :=
      ((List.filter_sublist).map _).map _
    exact @Go.pairwise_slice_le String id sort _ (by rw [List.map_id]; exact hnodup.sublist hsub)
  case dataNetwork_listed =>
    intro o ho ni hpooled
    obtain ⟨dnn, hdnn, hname⟩ := pooling_of_pooled hpooled
    refine List.perm_singleton.mp (((hdnns.map _).filter _).trans (.of_eq ?_))
    rw [networks_changes hcs, List.map_flatMap,
      Keyed.filter_flatMap_of_key KubeObject.name hnetworks ho]
    · simp [hdnn, hname]
    · intro o' _ hne x hx
      obtain ⟨y, hy, rfl⟩ := List.mem_map.mp hx
      rw [decide_eq_false_iff_not, (pooled_of_mem hy).2]
      exact fun heq => hne (Option.some.inj heq)
  case nonempty =>
    intro nI hnI
    obtain ⟨name, hne, rfl⟩ := (mem_networkInstances_iff nf cs).mp hnI
    by_cases hnil : configsOf cs name = []
    · exact .inr fun h => hne ⟨hnil, h⟩
    · left
      intro h
      have hperm := sort.perm (fun a b => decide (a ≤ b)) ((configsOf cs name).map InterfaceConfig.name)
      rw [show sort.slice _ _ = [] from h, List.nil_perm, List.map_eq_nil_iff] at hperm
      exact hnil hperm

end Integrity

/-- **Integrity of the spec.** A first call that succeeds, on children with distinct names, writes a
spec whose two lists agree with each other and with the children. -/
theorem updateResourceFn_integrity {f : NfDeployFn Q} {obj : KubeObject V}
    {objs out : List (KubeObject V)}
    (h : newFunction.updateResourceFn api sort ord (some obj) objs = .ok (f, .ok out))
    (hinterfaces : ((whereKind "Interface" objs).map KubeObject.name).Nodup)
    (hnetworks : ((whereKind "DataNetwork" objs).map KubeObject.name).Nodup) :
    ∃ spec obj', api.setSpec obj spec = .ok obj' ∧ out = [obj'] ∧ Integrity api objs spec := by
  obtain ⟨nf, spec, obj', -, hwritten, hset, rfl⟩ := returns_iff.mp ⟨f, h⟩
  obtain ⟨cs, hcs, -, rfl⟩ := written_iff.mp hwritten
  exact ⟨_, obj', hset, rfl, specOf_integrity nf hcs hinterfaces hnetworks⟩

/-- A DataNetwork of the network instance `internet`, with one pool. -/
def pooledDataNetwork (name address : String) : KubeObject Payload :=
  { apiVersion := Req.groupVersion, kind := "DataNetwork", name
    spec := some (.dataNetwork { networkInstance := { apiVersion := "", kind := "", name := "internet" } }
      { pools := some [{ name := "pool", ipClaim := { ipPrefix := some address } }] }) }

/-- Two interfaces and a data network. -/
theorem integrity_of_three_children :
    ∃ out spec obj',
      payloadApi.setSpec (nfDeploymentObj "upf") spec = .ok obj' ∧ out = [obj'] ∧
      Integrity payloadApi [claimedInterface "n6" "10.0.0.3/24", pooledDataNetwork "dnn" "10.1.0.0/16",
        claimedInterface "n4" "10.0.0.2/24"] spec := by
  obtain ⟨⟨f, res⟩, hrun, hok⟩ := @Fallible.exists_of_okAnd Go.Panic _
    (fun x => x.2.toBool) (newFunction.updateResourceFn payloadApi .insertion .insertion
      (some (nfDeploymentObj "upf")) [claimedInterface "n6" "10.0.0.3/24",
        pooledDataNetwork "dnn" "10.1.0.0/16", claimedInterface "n4" "10.0.0.2/24"])
    (by decide +kernel)
  cases res with
  | error err => cases hok
  | ok out => exact ⟨out, updateResourceFn_integrity hrun (by decide +kernel) (by decide +kernel)⟩

end Nephio.NfDeployFn
