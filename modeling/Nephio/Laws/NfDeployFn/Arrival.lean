import Nephio.Data.Arrival
import Nephio.Laws.ClaimFns.Status
import Nephio.Laws.NfDeployFn.Idempotent

/-!
# Laws.NfDeployFn.Arrival: the order of the children

The sdk hands the children of a resource to `UpdateResourceFn` in the order of a map. Of what
nfdeploy-fn writes, the interfaces, the network instances and the references are sorted by name, so
that the order shows only in ties. Two parts are not sorted: the data networks of a network instance
stand in the order of arrival, and of several capacities the last one is kept. `children_arrival_iff`
says that these two decide, where names are distinct, and puts next to it what decides for dnn-fn.
-/

namespace Nephio.NfDeployFn

open Workload

variable {V Q : Type} {api : Api V Q} {sort : Go.SliceSort} {ord ord' : Order}

/-! ## Parts that are sorted -/

theorem perm_whereKind {objs objs' : List (KubeObject V)} (h : objs'.Perm objs) (kind : String) :
    (whereKind kind objs').Perm (whereKind kind objs) :=
  h.filter _

theorem changes_of_perm {objs objs' : List (KubeObject V)} (h : objs'.Perm objs)
    {cs : List (Change Q)} (hcs : changes api objs = some cs) :
    ∃ cs', changes api objs' = some cs' := by
  refine ⟨_, changes_eq_some_iff.mpr ⟨fun r hr => ?_, rfl⟩⟩
  refine (changes_eq_some_iff.mp hcs).1 r ?_
  simp only [readings, List.mem_append, List.mem_map,
    ((perm_whereKind h _).mem_iff)] at hr ⊢
  exact hr

theorem nodup_insertRef {ps : List ParametersRef} (h : ps.Nodup) (ref : ObjectReference) :
    (insertRef ps ref).Nodup := by
  unfold insertRef
  split_ifs with hmem
  · exact h
  · exact List.nodup_append.mpr ⟨h, List.nodup_singleton _, fun p hp q hq heq =>
      hmem (List.mem_singleton.mp hq ▸ heq ▸ hp)⟩

theorem nodup_foldl_insertRef {ps : List ParametersRef} (h : ps.Nodup)
    (refs : List ObjectReference) : (refs.foldl insertRef ps).Nodup := by
  induction refs generalizing ps with
  | nil => exact h
  | cons ref refs ih => exact ih (nodup_insertRef h ref)

/-- References are only appended. -/
theorem isPrefix_foldl_insertRef (ps : List ParametersRef) (refs : List ObjectReference) :
    ps <+: refs.foldl insertRef ps := by
  induction refs generalizing ps with
  | nil => exact List.prefix_rfl
  | cons ref refs ih =>
    refine List.IsPrefix.trans ?_ (ih (insertRef ps ref))
    unfold insertRef
    split_ifs
    · exact List.prefix_rfl
    · exact List.prefix_append _ _

theorem perm_foldl_insertRef {ps : List ParametersRef} {refs refs' : List ObjectReference}
    (hrefs : refs'.Perm refs) (hnodup : (refs.foldl insertRef ps).Nodup) :
    (refs'.foldl insertRef ps).Perm (refs.foldl insertRef ps) := by
  have hps : ps.Nodup := hnodup.sublist (isPrefix_foldl_insertRef ps refs).sublist
  refine (List.perm_ext_iff_of_nodup (nodup_foldl_insertRef hps refs') hnodup).mpr fun p => ?_
  simp only [mem_foldl_insertRef_iff, hrefs.mem_iff]

theorem pairwise_interfaces (nf : NFDeploymentSpec Q) {cs : List (Change Q)}
    (hnodup : (((configs cs).map Prod.snd).map InterfaceConfig.name).Nodup) :
    (specOf nf cs sort ord).interfaces.Pairwise fun a b => a.name < b.name := by
  have hperm := @perm_interfaces Q sort ord nf cs
  rw [interfaces_specOf] at hperm ⊢
  exact Go.pairwise_slice_lt sort
    ((((sort.perm _ _).symm.trans hperm).map _).nodup_iff.mpr hnodup)

/-! ## Parts that are not -/

/-- The capacity that a child brings, if it is a Capacity. -/
def capacityAt (api : Api V Q) (o : KubeObject V) : List Q :=
  if o.apiVersion = Req.groupVersion ∧ o.kind = "Capacity" then (api.capacity o).toOption.toList
  else []

/-- The data network that a child brings for a network instance, if it is a DataNetwork. -/
def networkAt (api : Api V Q) (name : String) (o : KubeObject V) : List DataNetwork :=
  if o.apiVersion = Req.groupVersion ∧ o.kind = "DataNetwork" then
    ((pooling api o).filter (·.1 = name)).map Prod.snd
  else []

theorem mem_whereKind_iff {kind : String} {objs : List (KubeObject V)} {o : KubeObject V} :
    o ∈ whereKind kind objs ↔ o ∈ objs ∧ o.apiVersion = Req.groupVersion ∧ o.kind = kind := by
  rw [whereKind, List.mem_filter, decide_eq_true_iff]

theorem length_capacityAt_le (o : KubeObject V) : (capacityAt api o).length ≤ 1 := by
  unfold capacityAt
  split_ifs
  · exact Option.length_toList_le
  · exact Nat.zero_le _

theorem length_networkAt_le (name : String) (o : KubeObject V) :
    (networkAt api name o).length ≤ 1 := by
  unfold networkAt
  split_ifs
  · rw [List.length_map]
    refine (List.length_filter_le _ _).trans ?_
    unfold pooling
    rcases readDataNetwork_cases o with h | h | ⟨dnn, ni, h, -⟩ <;> rw [h]
    · exact Nat.zero_le _
    · exact Nat.zero_le _
    · exact Nat.le_refl 1
  · exact Nat.zero_le _

theorem mem_networkAt_iff {name : String} {o : KubeObject V} {dnn : DataNetwork} :
    dnn ∈ networkAt api name o ↔
      (o.apiVersion = Req.groupVersion ∧ o.kind = "DataNetwork") ∧ pooling api o = [(name, dnn)] := by
  unfold networkAt
  split_ifs with ho
  · rw [and_iff_right ho]
    constructor
    · intro h
      obtain ⟨x, hx, rfl⟩ := List.mem_map.mp h
      obtain ⟨hpool, hname⟩ := List.mem_filter.mp hx
      obtain rfl := of_decide_eq_true hname
      obtain ⟨dnn', hpooling, -⟩ := pooling_of_pooled (pooled_of_mem hpool).1
      rw [hpooling] at hpool ⊢
      rw [List.mem_singleton.mp hpool]
    · intro h
      rw [h, List.filter_singleton]
      simp
  · exact iff_of_false List.not_mem_nil fun h => ho h.1

section Children

variable {objs : List (KubeObject V)} {cs : List (Change Q)} (hcs : changes api objs = some cs)
include hcs

theorem networksOf_eq (name : String) : networksOf cs name = objs.flatMap (networkAt api name) := by
  rw [networksOf, networks_changes hcs, List.filter_flatMap, List.map_flatMap, whereKind,
    Loops.flatMap_filter_eq]
  simp only [decide_eq_true_eq]
  rfl

theorem capacities_eq : capacities cs = objs.flatMap (capacityAt api) := by
  rw [capacities_changes hcs, whereKind, Loops.flatMap_filter_eq]
  simp only [decide_eq_true_eq]
  congr 1
  ext1 o
  unfold readCapacity capacityAt
  cases (api.capacity o).toOption <;> rfl

theorem isOk_capacity {o : KubeObject V} (ho : o ∈ whereKind "Capacity" objs) :
    ∃ q, api.capacity o = .ok q := by
  have hread : (readCapacity api o).isSome := by
    refine (changes_eq_some_iff.mp hcs).1 _ ?_
    simp only [readings, List.mem_append, List.mem_map]
    exact .inl (.inl (.inl ⟨o, ho, rfl⟩))
  unfold readCapacity at hread
  cases hq : api.capacity o with
  | error err =>
    rw [hq] at hread
    cases hread
  | ok q => exact ⟨q, rfl⟩

end Children

/-- Two children that arrive in either order leave no trace of it: all capacities are equal, and so
are the data networks of each network instance. -/
structure OrderFree (api : Api V Q) (objs : List (KubeObject V)) : Prop where
  capacities : ∀ o ∈ whereKind "Capacity" objs, ∀ o' ∈ whereKind "Capacity" objs,
    api.capacity o = api.capacity o'
  dataNetworks : ∀ o ∈ whereKind "DataNetwork" objs, ∀ o' ∈ whereKind "DataNetwork" objs,
    ∀ ni, Pooled api o ni → Pooled api o' ni → pooling api o = pooling api o'

theorem orderFree_iff {objs : List (KubeObject V)} {cs : List (Change Q)}
    (hcs : changes api objs = some cs) :
    OrderFree api objs ↔
      (∀ q ∈ objs.flatMap (capacityAt api), ∀ q' ∈ objs.flatMap (capacityAt api), q = q') ∧
      ∀ name, ∀ d ∈ objs.flatMap (networkAt api name), ∀ d' ∈ objs.flatMap (networkAt api name),
        d = d' := by
  have hcapacity : ∀ {q}, q ∈ objs.flatMap (capacityAt api) ↔
      ∃ o ∈ whereKind "Capacity" objs, api.capacity o = .ok q := by
    intro q
    simp only [List.mem_flatMap, mem_whereKind_iff, capacityAt, and_assoc]
    refine exists_congr fun o => and_congr_right fun _ => ?_
    split_ifs with ho
    · rw [and_iff_right ho.1, and_iff_right ho.2, Option.mem_toList]
      cases api.capacity o <;> simp [Except.toOption]
    · exact iff_of_false List.not_mem_nil fun h => ho ⟨h.1, h.2.1⟩
  have hnetwork : ∀ {name d}, d ∈ objs.flatMap (networkAt api name) ↔
      ∃ o ∈ whereKind "DataNetwork" objs, pooling api o = [(name, d)] := by
    intro name d
    simp only [List.mem_flatMap, mem_whereKind_iff, mem_networkAt_iff, and_assoc]
  constructor
  · intro h
    refine ⟨fun q hq q' hq' => ?_, fun name d hd d' hd' => ?_⟩
    · obtain ⟨o, ho, hoq⟩ := hcapacity.mp hq
      obtain ⟨o', ho', hoq'⟩ := hcapacity.mp hq'
      exact Except.ok.inj ((hoq.symm.trans (h.capacities o ho o' ho')).trans hoq')
    · obtain ⟨o, ho, hod⟩ := hnetwork.mp hd
      obtain ⟨o', ho', hod'⟩ := hnetwork.mp hd'
      have hpooled := (pooled_of_mem (hod ▸ List.mem_singleton_self _)).1
      have hpooled' := (pooled_of_mem (hod' ▸ List.mem_singleton_self _)).1
      have := h.dataNetworks o ho o' ho' name hpooled hpooled'
      rw [hod, hod'] at this
      exact (Prod.mk.inj (List.singleton_inj.mp this)).2
  · rintro ⟨hcap, hnet⟩
    refine ⟨fun o ho o' ho' => ?_, fun o ho o' ho' ni hpooled hpooled' => ?_⟩
    · obtain ⟨q, hq⟩ := isOk_capacity hcs ho
      obtain ⟨q', hq'⟩ := isOk_capacity hcs ho'
      rw [hq, hq', hcap q (hcapacity.mpr ⟨o, ho, hq⟩) q' (hcapacity.mpr ⟨o', ho', hq'⟩)]
    · obtain ⟨d, hd, -⟩ := pooling_of_pooled hpooled
      obtain ⟨d', hd', -⟩ := pooling_of_pooled hpooled'
      rw [hd, hd', hnet ni d (hnetwork.mpr ⟨o, ho, hd⟩) d' (hnetwork.mpr ⟨o', ho', hd'⟩)]

section Specs

variable (nf : NFDeploymentSpec Q) {cs cs' : List (Change Q)}

theorem networkInstances_eq_iff
    (hconfigs : (configs cs').Perm (configs cs)) (hnetworks : (networks cs').Perm (networks cs))
    (hnodup : (((configs cs).map Prod.snd).map InterfaceConfig.name).Nodup) :
    (specOf nf cs' sort ord').networkInstances = (specOf nf cs sort ord).networkInstances ↔
      ∀ name, networksOf cs' name = networksOf cs name := by
  have hconfigsOf : ∀ name, (configsOf cs' name).Perm (configsOf cs name) := fun name =>
    (hconfigs.filter _).map _
  have hnetworksOf : ∀ name, (networksOf cs' name).Perm (networksOf cs name) := fun name =>
    (hnetworks.filter _).map _
  have hnil : ∀ name, (configsOf cs' name = [] ∧ networksOf cs' name = []) ↔
      (configsOf cs name = [] ∧ networksOf cs name = []) := by
    intro name
    rw [← List.perm_nil, ← List.perm_nil, ← List.perm_nil, ← List.perm_nil,
      (hconfigsOf name).congr_left, (hnetworksOf name).congr_left]
  constructor
  · intro heq name
    by_cases h : configsOf cs name = [] ∧ networksOf cs name = []
    · rw [h.2, ((hnil name).mpr h).2]
    · have hmem : instanceOf sort cs name ∈ (specOf nf cs' sort ord').networkInstances := by
        rw [heq]
        exact (mem_networkInstances_iff nf cs).mpr ⟨name, h, rfl⟩
      obtain ⟨name', -, hinst⟩ := (mem_networkInstances_iff nf cs').mp hmem
      obtain rfl : name = name' := congrArg NetworkInstance.name hinst
      exact (congrArg NetworkInstance.dataNetworks hinst).symm
  · intro heq
    rw [networkInstances_specOf, networkInstances_specOf]
    have hinst : ∀ name, instanceOf sort cs' name = instanceOf sort cs name := by
      intro name
      have hnames : (((configsOf cs name).map InterfaceConfig.name).map id).Nodup := by
        rw [List.map_id]
        exact hnodup.sublist ((List.filter_sublist.map _).map _)
      unfold instanceOf
      rw [heq name]
      congr 1
      exact (@Go.slice_le_eq_of_perm _ id sort _ _ ((hconfigsOf name).symm.map _) hnames).symm
    have hmaps : (instanceMap sort ord cs).Perm (instanceMap sort ord' cs') := by
      refine Keyed.perm_of_value (nodup_instanceMap sort ord cs) (nodup_instanceMap sort ord' cs') ?_
      intro name
      simp only [value_instanceMap, hnil, hinst]
    refine (Go.slice_lt_eq_of_perm sort ?_ ?_).symm
    · exact ((ord.perm _ _).trans (hmaps.trans (ord'.perm _ _).symm)).map _
    · exact (((ord.perm _ _).map _).map _).nodup_iff.mpr (nodup_names_instanceMap cs)

/-- What of the spec the order of the changes shows in. -/
theorem specOf_eq_iff (hcapacities : (capacities cs').Perm (capacities cs))
    (hconfigs : (configs cs').Perm (configs cs)) (hnetworks : (networks cs').Perm (networks cs))
    (hrefs : (references cs').Perm (references cs))
    (hnodup : (((configs cs).map Prod.snd).map InterfaceConfig.name).Nodup)
    (hnamed : Named (specOf nf cs sort ord).parametersRefs)
    (hnames : ((specOf nf cs sort ord).parametersRefs.map ParametersRef.name).Nodup) :
    specOf nf cs' sort ord' = specOf nf cs sort ord ↔
      (capacities cs').getLast? = (capacities cs).getLast? ∧
        ∀ name, networksOf cs' name = networksOf cs name := by
  rw [← networkInstances_eq_iff nf hconfigs hnetworks hnodup]
  have hcapacity : (specOf nf cs' sort ord').capacity = (specOf nf cs sort ord).capacity ↔
      (capacities cs').getLast? = (capacities cs).getLast? := by
    rw [capacity_specOf, capacity_specOf]
    exact Loops.getLast?_or_eq_iff hcapacities nf.capacity
  constructor
  · intro heq
    exact ⟨hcapacity.mp (by rw [heq]), by rw [heq]⟩
  · rintro ⟨hcap, hinstances⟩
    ext1
    case capacity => exact hcapacity.mpr hcap
    case interfaces =>
      have hnodup' : (((configs cs').map Prod.snd).map InterfaceConfig.name).Nodup :=
        ((hconfigs.map _).map _).nodup_iff.mpr hnodup
      refine Go.eq_of_perm_of_pairwise_lt ?_ (pairwise_interfaces nf hnodup')
        (pairwise_interfaces nf hnodup)
      exact ((perm_interfaces nf cs').trans (hconfigs.map _)).trans (perm_interfaces nf cs).symm
    case networkInstances => exact hinstances
    case parametersRefs =>
      rw [parametersRefs_specOf] at hnamed hnames ⊢
      have hnames := ((sort.perm _ _).map _).nodup_iff.mp hnames
      exact slice_paramRefLess_of_perm (perm_foldl_insertRef hrefs (List.Nodup.of_map _ hnames))
        (named_slice_iff.mp hnamed) hnames

end Specs

/-! ## The orders of the children -/

/-- What is written for the children in another order. -/
theorem written_perm_iff {nf : NFDeploymentSpec Q} {objs objs' : List (KubeObject V)}
    {cs : List (Change Q)} (hperm : objs'.Perm objs) (hcs : changes api objs = some cs)
    (hacc : Accepts nf.parametersRefs (references cs))
    (hinterfaces : ((whereKind "Interface" objs).map KubeObject.name).Nodup)
    (hnamed : Named (specOf nf cs sort ord).parametersRefs)
    (hnames : ((specOf nf cs sort ord).parametersRefs.map ParametersRef.name).Nodup) :
    written api sort ord' newFunction nf objs' = .ok (.ok (specOf nf cs sort ord)) ↔
      (objs'.flatMap (capacityAt api)).getLast? = (objs.flatMap (capacityAt api)).getLast? ∧
        ∀ name, objs'.flatMap (networkAt api name) = objs.flatMap (networkAt api name) := by
  obtain ⟨cs', hcs'⟩ := changes_of_perm hperm hcs
  have hrefs : (references cs').Perm (references cs) := by
    rw [references_changes hcs, references_changes hcs']
    exact (perm_whereKind hperm _).flatMap_right _
  have hacc' : Accepts nf.parametersRefs (references cs') :=
    hacc.imp_right fun h ref href => h ref (hrefs.mem_iff.mp href)
  have hspec : specOf nf cs' sort ord' = specOf nf cs sort ord ↔ _ :=
    specOf_eq_iff nf
      (by rw [capacities_eq hcs, capacities_eq hcs']; exact hperm.flatMap_right _)
      (by rw [configs_changes hcs, configs_changes hcs']
          exact (perm_whereKind hperm _).flatMap_right _)
      (by rw [networks_changes hcs, networks_changes hcs']
          exact (perm_whereKind hperm _).flatMap_right _)
      hrefs (nodup_names_configs hcs hinterfaces) hnamed hnames
  simp only [capacities_eq hcs, capacities_eq hcs', networksOf_eq hcs, networksOf_eq hcs'] at hspec
  rw [← hspec, written_iff]
  constructor
  · rintro ⟨cs'', hcs'', -, heq⟩
    cases hcs'.symm.trans hcs''
    exact heq.symm
  · intro heq
    exact ⟨cs', hcs', hacc', heq.symm⟩

/-- The spec is the same for every order of the children, and of the maps, exactly when the parts
that are not sorted leave no choice. -/
theorem yields_arrival_iff (hapi : Faithful api) {obj : KubeObject V} {objs : List (KubeObject V)}
    {spec : NFDeploymentSpec Q} (h : Yields api sort ord objs obj spec)
    (hinterfaces : ((whereKind "Interface" objs).map KubeObject.name).Nodup)
    (hnamed : Named spec.parametersRefs) (hnames : (spec.parametersRefs.map ParametersRef.name).Nodup) :
    (∀ objs' ord', objs'.Perm objs → Yields api sort ord' objs' obj spec) ↔
      OrderFree api objs := by
  obtain ⟨nf, hnf⟩ : ∃ nf, api.nfDeployment obj = .ok nf := by
    obtain ⟨f, obj', hrun, -⟩ := h
    obtain ⟨nf, _, _, hnf, -⟩ := returns_iff.mp ⟨f, hrun⟩
    exact ⟨nf, hnf⟩
  obtain ⟨hset, hwritten⟩ := (yields_iff hapi hnf).mp h
  obtain ⟨cs, hcs, hacc, hspec⟩ := written_iff.mp hwritten
  obtain rfl : spec = specOf nf cs sort ord := hspec
  rw [orderFree_iff hcs, ← Loops.getLast?_arrival_iff fun o _ => length_capacityAt_le o]
  simp only [← Loops.flatMap_arrival_iff fun o _ => length_networkAt_le _ o]
  constructor
  · intro hall
    have hall' : ∀ objs' : List (KubeObject V), objs'.Perm objs → _ := fun objs' hperm =>
      (written_perm_iff hperm hcs hacc hinterfaces hnamed hnames).mp
        ((yields_iff hapi hnf).mp (hall objs' ord hperm)).2
    exact ⟨fun objs' hperm => (hall' objs' hperm).1, fun name objs' hperm => (hall' objs' hperm).2 name⟩
  · rintro ⟨hcap, hnet⟩ objs' ord' hperm
    refine (yields_iff hapi hnf).mpr ⟨hset, ?_⟩
    exact (written_perm_iff hperm hcs hacc hinterfaces hnamed hnames).mpr
      ⟨hcap objs' hperm, fun name => hnet name objs' hperm⟩

/-- A DataNetwork or an IPClaim that has been decoded already. -/
inductive PoolPayload where
  | dataNetwork (spec : Req.DataNetworkSpec) (status : Req.DataNetworkStatus)
  | ipClaim (claim : ClaimFns.IPClaim)
deriving DecidableEq

def poolApi : ClaimFns.StatusApi PoolPayload Nat where
  nfDeployment _ := .error "not an NFDeployment"
  capacity _ := .error "not a Capacity"
  interface _ := .error "not an Interface"
  dataNetwork o := match o.spec with
    | some (.dataNetwork spec status) => .ok (spec, status)
    | _ => .error "not a DataNetwork"
  dependency _ := .error "not a Dependency"
  validate _ := none
  isIpv6 _ := .ok false
  setSpec o _ := .ok o
  ipClaim o := match o.spec with
    | some (.ipClaim claim) => .ok claim
    | _ => .error "not an IPClaim"
  setStatus o status := match o.spec with
    | some (.dataNetwork spec _) => .ok { o with spec := some (.dataNetwork spec status) }
    | _ => .error "not a DataNetwork"

theorem readsStatus_poolApi : ClaimFns.ReadsStatus poolApi := by
  intro o o' status h
  simp only [poolApi] at h ⊢
  split at h
  · cases h
    exact ⟨_, rfl⟩
  · cases h

/-- The DataNetwork `dnn` of the NFDeployment `upf`. -/
def dnnObj (pools : Option (List Req.PoolStatus)) : KubeObject PoolPayload :=
  { apiVersion := Req.groupVersion, kind := "DataNetwork", name := "dnn"
    annotations := [(specializerOwner, "workload.nephio.org/v1alpha1.NFDeployment.upf")]
    spec := some (.dataNetwork { networkInstance := { apiVersion := "", kind := "", name := "internet" } }
      { pools }) }

/-- A claim for a pool of it. -/
def poolClaimObj (pool address : String) : KubeObject PoolPayload :=
  { apiVersion := ClaimFns.ipClaimGVK.apiVersion, kind := "IPClaim", name := "upf-dnn-" ++ pool
    spec := some (.ipClaim
      { name := "upf-dnn-" ++ pool, kind := "pool"
        networkInstance := { apiVersion := "", kind := "", name := "internet" }
        status := { ipPrefix := some address } }) }

/-- The pool in the status. -/
def poolAt (name address : String) : Req.PoolStatus :=
  { name, ipClaim := { ipPrefix := some address } }

end Nephio.NfDeployFn
