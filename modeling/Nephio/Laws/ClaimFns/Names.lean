import Nephio.ClaimFns.Desired
import Nephio.Data.Loops
import Nephio.Laws.Kptfile.ConditionType

/-!
# Laws.ClaimFns.Names: the names of claims

A claim is asked for by a `Demand`: a kind, the name of the root, the name of the resource and, for
an IPClaim, an address family or a pool. Its name joins the last three with hyphens, so that two
demands get one claim exactly when their parts are the same once they are cut at every hyphen
(`Demand.ref_eq_iff`).
-/

namespace Nephio

namespace ClaimFns

variable {V Q : Type}

/-! ## Demands -/

/-- What an Interface or a DataNetwork asks a claim for. -/
structure Demand where
  gvk : ObjectReference
  forName : String
  name : String
  part : Option String
deriving DecidableEq, Repr

namespace Demand

/-- The claim that a demand gets. -/
def ref (d : Demand) : ObjectReference :=
  { d.gvk with
    name := match d.part with
      | none => d.forName ++ "-" ++ d.name
      | some part => d.forName ++ "-" ++ d.name ++ "-" ++ part }

/-- The kind of the claim, and its name cut at every hyphen. -/
def parts (d : Demand) : ObjectReference × List String :=
  (d.gvk.gvk, split d.forName '-' ++ split d.name '-' ++
    match d.part with
    | none => []
    | some part => split part '-')

theorem split_name_ref (d : Demand) : split d.ref.name '-' = d.parts.2 := by
  have hsep : ("-" : String) = String.singleton '-' := rfl
  unfold ref parts
  cases d.part with
  | none => simp only [hsep, split_append_separator, List.append_nil]
  | some part => simp only [hsep, split_append_separator]

/-- Two demands get one claim if their parts are the same. -/
theorem ref_eq_iff {d d' : Demand} : d.ref = d'.ref ↔ d.parts = d'.parts := by
  constructor
  · intro h
    have hgvk : d.ref.gvk = d'.ref.gvk := congrArg ObjectReference.gvk h
    refine Prod.ext hgvk ?_
    rw [← split_name_ref, ← split_name_ref, h]
  · intro h
    have hgvk : d.gvk.gvk = d'.gvk.gvk := congrArg Prod.fst h
    have hname : d.ref.name = d'.ref.name := by
      apply split_injective '-'
      simp only [split_name_ref, h]
    simp only [ObjectReference.gvk, ObjectReference.mk.injEq, and_true] at hgvk
    unfold ref at hname ⊢
    rw [ObjectReference.mk.injEq]
    exact ⟨hgvk.1, hgvk.2, hname⟩

end Demand

/-! ## The claims of a package -/

/-- An object is of a kind of the requirements. -/
def isKind (kind : String) (o : KubeObject V) : Bool :=
  o.apiVersion = Req.groupVersion ∧ o.kind = kind

/-- The claims that a resource of the package gets from the function of its kind. -/
def generated (api : Api V Q) (workloadCluster : Option WorkloadClusterSpec) (o : KubeObject V) :
    List Claim :=
  if isKind "Interface" o then
    match itfceFn.desiredOwnedResourceList api workloadCluster o with
    | .ok (.ok claims) => claims
    | _ => []
  else if isKind "DataNetwork" o then
    match dnnFn.desiredOwnedResourceList api workloadCluster o with
    | .ok claims => claims
    | .error _ => []
  else []

/-- The kinds and parts that an Interface asks for. -/
def interfaceParts (spec : Req.InterfaceSpec) : List (ObjectReference × Option String) :=
  ((getAddressFamilies spec.ipFamilyPolicy).map fun af => (ipClaimGVK, some af.string)) ++
    if spec.cniType ≠ "" then
      (if spec.attachmentType = .vlan then [(vlanClaimGVK, none)] else []) ++ [(nadGVK, none)]
    else []

/-- The kinds and parts that a DataNetwork asks for. -/
def poolParts (spec : Req.DataNetworkSpec) : List (ObjectReference × Option String) :=
  spec.pools.map fun pool => (ipClaimGVK, some pool.name)

/-- The kinds and parts that a resource asks for, if its claims are generated. -/
def demandedParts (api : Api V Q) (workloadCluster : Option WorkloadClusterSpec)
    (o : KubeObject V) : List (ObjectReference × Option String) :=
  if isKind "Interface" o then
    match itfceFn.desiredOwnedResourceList api workloadCluster o, api.interface o with
    | .ok (.ok _), .ok (spec, _) =>
      if spec.networkInstance.map ObjectReference.name = some defaultPODNetwork then []
      else interfaceParts spec
    | _, _ => []
  else if isKind "DataNetwork" o then
    match workloadCluster, api.dataNetwork o with
    | some _, .ok (spec, _) => poolParts spec
    | _, _ => []
  else []

/-- The demands of a resource. -/
def demands (api : Api V Q) (workloadCluster : Option WorkloadClusterSpec) (o : KubeObject V) :
    List Demand :=
  (demandedParts api workloadCluster o).map fun e =>
    { gvk := e.1, forName := getForName o.annotations, name := o.name, part := e.2 }

section Generated

variable {api : Api V Q} {workloadCluster : Option WorkloadClusterSpec} {o : KubeObject V}

/-- Each demand gets its claim. -/
theorem refs_generated :
    (generated api workloadCluster o).map Claim.ref =
      (demands api workloadCluster o).map Demand.ref := by
  unfold generated demands demandedParts
  by_cases hitfce : isKind "Interface" o
  · simp only [hitfce, if_true]
    unfold itfceFn.desiredOwnedResourceList
    cases workloadCluster with
    | none => rfl
    | some wc =>
      cases api.interface o with
      | error err => rfl
      | ok x =>
        obtain ⟨spec, status⟩ := x
        cases hni : spec.networkInstance with
        | none => simp only [hni, List.map_nil]
        | some ni =>
          by_cases hdefault : ni.name = defaultPODNetwork
          · simp only [hni, hdefault, Option.map_some, if_true, List.map_nil]
          · have hother : ¬ spec.networkInstance.map ObjectReference.name = some defaultPODNetwork := by
              rw [hni, Option.map_some, Option.some.injEq]
              exact hdefault
            simp only [hni, hdefault, if_false, interfaceParts]
            by_cases hcni : spec.cniType = ""
            · simp only [hcni, ne_eq, not_true_eq_false, if_false, List.append_nil, if_neg hother,
                List.map_map, List.map_inj_left, Function.comp_apply]
              intro af _
              rfl
            · by_cases hpresent : isCNITypePresent wc spec.cniType
              · simp only [hcni, hpresent, ne_eq, not_false_eq_true, if_true, Bool.not_true,
                  Bool.false_eq_true, if_false, if_neg hother, List.map_append, List.map_map,
                  List.append_assoc]
                congr 2
                split_ifs <;> rfl
              · simp only [hcni, hpresent, ne_eq, not_false_eq_true, if_true, Bool.not_false,
                  List.map_nil]
  · simp only [hitfce, Bool.false_eq_true, if_false]
    by_cases hdnn : isKind "DataNetwork" o
    · simp only [hdnn, if_true]
      unfold dnnFn.desiredOwnedResourceList
      cases workloadCluster with
      | none => rfl
      | some wc =>
        cases api.dataNetwork o with
        | error err => rfl
        | ok x =>
          simp only [poolParts, List.map_map, List.map_inj_left, Function.comp_apply]
          intro pool _
          rfl
    · simp only [hdnn, Bool.false_eq_true, if_false, List.map_nil]

/-- What a demand of a resource is. -/
theorem mem_demands {d : Demand} (h : d ∈ demands api workloadCluster o) :
    d.forName = getForName o.annotations ∧ d.name = o.name ∧
      ((isKind "Interface" o ∧ d.gvk = ipClaimGVK ∧ (d.part = some "ipv4" ∨ d.part = some "ipv6")) ∨
      (isKind "Interface" o ∧ (d.gvk = vlanClaimGVK ∨ d.gvk = nadGVK) ∧ d.part = none) ∨
      (isKind "DataNetwork" o ∧ d.gvk = ipClaimGVK ∧ ∃ spec status, api.dataNetwork o =
        .ok (spec, status) ∧ ∃ pool ∈ spec.pools, d.part = some pool.name)) := by
  obtain ⟨⟨gvk, part⟩, he, rfl⟩ := List.mem_map.mp h
  refine ⟨rfl, rfl, ?_⟩
  simp only
  unfold demandedParts at he
  split_ifs at he with hitfce hdnn
  · split at he
    next spec _ _ _ =>
      split_ifs at he
      · cases he
      · rw [interfaceParts, List.mem_append] at he
        rcases he with he | he
        · left
          obtain ⟨af, -, haf⟩ := List.mem_map.mp he
          cases haf
          cases af
          · exact ⟨hitfce, rfl, Or.inl rfl⟩
          · exact ⟨hitfce, rfl, Or.inr rfl⟩
        · right
          left
          split_ifs at he
          · simp only [List.cons_append, List.nil_append, List.mem_cons, Prod.mk.injEq,
              List.not_mem_nil, or_false] at he
            rcases he with ⟨rfl, rfl⟩ | ⟨rfl, rfl⟩
            · exact ⟨hitfce, Or.inl rfl, rfl⟩
            · exact ⟨hitfce, Or.inr rfl, rfl⟩
          · simp only [List.nil_append, List.mem_cons, Prod.mk.injEq, List.not_mem_nil,
              or_false] at he
            obtain ⟨rfl, rfl⟩ := he
            exact ⟨hitfce, Or.inr rfl, rfl⟩
          · cases he
    next => cases he
  · split at he
    next _ spec status hspec =>
      obtain ⟨pool, hpool, heq⟩ := List.mem_map.mp he
      cases heq
      exact Or.inr (Or.inr ⟨hdnn, rfl, spec, status, hspec, pool, hpool, rfl⟩)
    next => cases he
  · cases he

end Generated

/-! ## Claims that do not meet -/

/-- Names that are told apart: roots that are the same or have no hyphens, pools without hyphens and,
where an Interface and a DataNetwork have one name, pools that are not named like a family. -/
structure Separated (api : Api V Q) (items : List (KubeObject V)) : Prop where
  refs : (items.map KubeObject.ref).Nodup
  roots : ∀ o ∈ items, ∀ o' ∈ items, getForName o.annotations = getForName o'.annotations ∨
    ('-' ∉ (getForName o.annotations).toList ∧ '-' ∉ (getForName o'.annotations).toList)
  pools : ∀ o ∈ items, ∀ spec status, api.dataNetwork o = .ok (spec, status) →
    (spec.pools.map Req.Pool.name).Nodup ∧ ∀ pool ∈ spec.pools, '-' ∉ pool.name.toList
  families : ∀ o ∈ items, ∀ o' ∈ items, isKind "Interface" o → isKind "DataNetwork" o' →
    o.name = o'.name → ∀ spec status, api.dataNetwork o' = .ok (spec, status) →
      ∀ pool ∈ spec.pools, pool.name ≠ "ipv4" ∧ pool.name ≠ "ipv6"

section Separated

variable {api : Api V Q} {workloadCluster : Option WorkloadClusterSpec}

theorem Demand.gvk_eq_of_ref {d d' : Demand} (hgvk : d.gvk.name = "" ∧ d'.gvk.name = "")
    (h : d.ref = d'.ref) : d.gvk = d'.gvk := by
  have hkind := congrArg Prod.fst (Demand.ref_eq_iff.mp h)
  cases hd : d.gvk
  cases hd' : d'.gvk
  simp only [Demand.parts, hd, hd', ObjectReference.gvk, ObjectReference.mk.injEq, and_true]
    at hkind hgvk ⊢
  exact ⟨hkind.1, hkind.2, hgvk.1.trans hgvk.2.symm⟩

/-- Demands with one claim and one name before the part are the same. -/
theorem Demand.eq_of_ref {d d' : Demand} (hgvk : d.gvk.name = "" ∧ d'.gvk.name = "")
    (hfor : d.forName = d'.forName) (hname : d.name = d'.name) (h : d.ref = d'.ref) : d = d' := by
  have hkind := Demand.gvk_eq_of_ref hgvk h
  have hpart : d.part = d'.part := by
    have hlast := congrArg Prod.snd (Demand.ref_eq_iff.mp h)
    simp only [Demand.parts, hfor, hname, List.append_cancel_left_eq] at hlast
    cases hd : d.part with
    | none =>
      cases hd' : d'.part with
      | none => rfl
      | some part' =>
        simp only [hd, hd'] at hlast
        exact absurd hlast.symm (split_ne_nil part' '-')
    | some part =>
      cases hd' : d'.part with
      | none =>
        simp only [hd, hd'] at hlast
        exact absurd hlast (split_ne_nil part '-')
      | some part' =>
        simp only [hd, hd'] at hlast
        rw [split_injective '-' hlast]
  cases d
  cases d'
  simp only at hfor hname hkind hpart
  rw [hfor, hname, hkind, hpart]

/-- IPClaims are asked for with a part, the other kinds without. -/
theorem gvk_of_mem_demands {o : KubeObject V} {d : Demand}
    (h : d ∈ demands api workloadCluster o) :
    d.gvk.name = "" ∧ (d.part.isSome ↔ d.gvk = ipClaimGVK) := by
  obtain ⟨-, -, ⟨-, hgvk, hpart⟩ | ⟨-, hgvk, hpart⟩ | ⟨-, hgvk, -, -, -, pool, -, hpart⟩⟩ :=
    mem_demands h
  · rcases hpart with hpart | hpart <;> exact ⟨hgvk ▸ rfl, iff_of_true (hpart ▸ rfl) hgvk⟩
  · rcases hgvk with hgvk | hgvk
    · rw [hgvk, hpart]
      decide
    · rw [hgvk, hpart]
      decide
  · exact ⟨hgvk ▸ rfl, iff_of_true (hpart ▸ rfl) hgvk⟩

theorem nodup_demandedParts {o : KubeObject V}
    (hpools : ∀ spec status, api.dataNetwork o = .ok (spec, status) →
      (spec.pools.map Req.Pool.name).Nodup) : (demandedParts api workloadCluster o).Nodup := by
  unfold demandedParts
  split_ifs
  · split
    next spec _ _ _ =>
      split_ifs
      · exact List.nodup_nil
      · unfold interfaceParts
        cases spec.ipFamilyPolicy <;> split_ifs <;> decide
    next => exact List.nodup_nil
  · split
    next _ spec status hspec =>
      have hinj : Function.Injective fun name : String => (ipClaimGVK, some name) :=
        fun _ _ h => Option.some.inj (Prod.ext_iff.mp h).2
      have hnodup := (hpools spec status hspec).map hinj
      rw [List.map_map] at hnodup
      exact hnodup
    next => exact List.nodup_nil
  · exact List.nodup_nil

/-- The part of a demand has no hyphens. -/
theorem Separated.split_part {items : List (KubeObject V)} (h : Separated api items)
    {o : KubeObject V} (ho : o ∈ items) {d : Demand} (hd : d ∈ demands api workloadCluster o)
    {part : String} (hpart : d.part = some part) : split part '-' = [part] := by
  apply split_of_notMem
  obtain ⟨-, -, ⟨-, -, hfamily⟩ | ⟨-, -, hnone⟩ | ⟨-, -, spec, status, hspec, pool, hpool, hname⟩⟩ :=
    mem_demands hd
  · rcases hfamily with hfamily | hfamily
    · rw [← Option.some.inj (hfamily.symm.trans hpart)]
      decide
    · rw [← Option.some.inj (hfamily.symm.trans hpart)]
      decide
  · rw [hnone] at hpart
    cases hpart
  · rw [← Option.some.inj (hname.symm.trans hpart)]
    exact (h.pools o ho spec status hspec).2 pool hpool

/-- Roots that are the same or have no hyphens show where the name of a resource begins. -/
theorem name_eq_of_split {root root' name name' : String}
    (hroots : root = root' ∨ ('-' ∉ root.toList ∧ '-' ∉ root'.toList))
    (h : split root '-' ++ split name '-' = split root' '-' ++ split name' '-') : name = name' := by
  apply split_injective '-'
  rcases hroots with rfl | ⟨hroot, hroot'⟩
  · exact List.append_cancel_left h
  · rw [split_of_notMem hroot, split_of_notMem hroot'] at h
    exact (List.cons.inj h).2

/-- Two resources with one claim have one name, and ask for the same part. -/
theorem Separated.name_eq {items : List (KubeObject V)} (h : Separated api items)
    {o o' : KubeObject V} (ho : o ∈ items) (ho' : o' ∈ items) {d d' : Demand}
    (hd : d ∈ demands api workloadCluster o) (hd' : d' ∈ demands api workloadCluster o')
    (heq : d.ref = d'.ref) : o.name = o'.name ∧ d.part = d'.part := by
  obtain ⟨hfor, hname, -⟩ := mem_demands hd
  obtain ⟨hfor', hname', -⟩ := mem_demands hd'
  obtain ⟨hempty, hsome⟩ := gvk_of_mem_demands hd
  obtain ⟨hempty', hsome'⟩ := gvk_of_mem_demands hd'
  rw [← Demand.gvk_eq_of_ref ⟨hempty, hempty'⟩ heq, ← hsome] at hsome'
  have hparts := congrArg Prod.snd (Demand.ref_eq_iff.mp heq)
  simp only [Demand.parts, hfor, hname, hfor', hname'] at hparts
  have hroots := h.roots o ho o' ho'
  cases hpart : d.part with
  | none =>
    have hpart' : d'.part = none := by
      rw [hpart] at hsome'
      cases hd' : d'.part with
      | none => rfl
      | some part' =>
        rw [hd'] at hsome'
        exact absurd (hsome'.mp rfl) nofun
    simp only [hpart, hpart', List.append_nil] at hparts
    exact ⟨name_eq_of_split hroots hparts, hpart'.symm⟩
  | some part =>
    rw [hpart] at hsome'
    obtain ⟨part', hpart'⟩ := Option.isSome_iff_exists.mp (hsome'.mpr rfl)
    simp only [hpart, hpart', h.split_part ho hd hpart, h.split_part ho' hd' hpart'] at hparts
    obtain ⟨hnames, hlast⟩ := List.append_inj' hparts rfl
    exact ⟨name_eq_of_split hroots hnames, by rw [hpart', (List.cons.inj hlast).1]⟩

/-- An Interface and a DataNetwork of one name do not ask for the same pool or family. -/
theorem Separated.part_ne {items : List (KubeObject V)} (h : Separated api items)
    {o o' : KubeObject V} (ho : o ∈ items) (ho' : o' ∈ items) (hname : o.name = o'.name)
    (hitfce : isKind "Interface" o) {part : Option String}
    (hpart : part = some "ipv4" ∨ part = some "ipv6") {pool : Req.Pool} {spec : Req.DataNetworkSpec}
    {status : Req.DataNetworkStatus} (hdnn : isKind "DataNetwork" o')
    (hspec : api.dataNetwork o' = .ok (spec, status)) (hpool : pool ∈ spec.pools) :
    part ≠ some pool.name := by
  obtain ⟨hipv4, hipv6⟩ := h.families o ho o' ho' hitfce hdnn hname spec status hspec pool hpool
  rintro rfl
  rcases hpart with hpart | hpart
  · exact hipv4 (Option.some.inj hpart)
  · exact hipv6 (Option.some.inj hpart)

theorem ref_eq_of_kind {kind : String} {o o' : KubeObject V} (h : isKind kind o)
    (h' : isKind kind o') (hname : o.name = o'.name) : o.ref = o'.ref := by
  obtain ⟨hapi, hkind⟩ := of_decide_eq_true h
  obtain ⟨hapi', hkind'⟩ := of_decide_eq_true h'
  simp only [KubeObject.ref, hapi, hapi', hkind, hkind', hname]

theorem Separated.nodup {items : List (KubeObject V)} (h : Separated api items) :
    ((items.flatMap (generated api workloadCluster)).map Claim.ref).Nodup := by
  have hgenerated : (fun o => (generated api workloadCluster o).map Claim.ref) =
      fun o => (demands api workloadCluster o).map Demand.ref := funext fun _ => refs_generated
  rw [List.map_flatMap, hgenerated, List.nodup_flatMap]
  constructor
  · intro o ho
    have hdemands : (demands api workloadCluster o).Nodup := by
      refine (nodup_demandedParts fun spec status hspec =>
        (h.pools o ho spec status hspec).1).map fun a b hab => ?_
      simp only [Demand.mk.injEq, true_and] at hab
      exact Prod.ext hab.1 hab.2
    refine List.Nodup.map_on (fun d hd d' hd' heq => ?_) hdemands
    obtain ⟨hfor, hname, -⟩ := mem_demands hd
    obtain ⟨hfor', hname', -⟩ := mem_demands hd'
    exact Demand.eq_of_ref ⟨(gvk_of_mem_demands hd).1, (gvk_of_mem_demands hd').1⟩
      (hfor.trans hfor'.symm) (hname.trans hname'.symm) heq
  · have hrefs : items.Pairwise fun o o' => o.ref ≠ o'.ref := List.pairwise_map.mp h.refs
    refine hrefs.imp_of_mem fun {o o'} ho ho' hne => ?_
    intro ref href href'
    obtain ⟨d, hd, rfl⟩ := List.mem_map.mp href
    obtain ⟨d', hd', heq⟩ := List.mem_map.mp href'
    obtain ⟨hname, hpart⟩ := h.name_eq ho ho' hd hd' heq.symm
    have hsame : ∀ kind, isKind kind o → isKind kind o' → False :=
      fun kind hk hk' => hne (ref_eq_of_kind hk hk' hname)
    -- the kinds of the two resources: only an Interface and a DataNetwork are left
    obtain ⟨-, -, ⟨hk, -, hp⟩ | ⟨hk, -, hp⟩ | ⟨hk, -, spec, status, hspec, pool, hpool, hp⟩⟩ :=
      mem_demands hd
    · obtain ⟨-, -, ⟨hk', -⟩ | ⟨hk', -⟩ | ⟨hk', -, spec, status, hspec, pool, hpool, hp'⟩⟩ :=
        mem_demands hd'
      · exact hsame _ hk hk'
      · exact hsame _ hk hk'
      · exact h.part_ne ho ho' hname hk hp hk' hspec hpool (hpart.trans hp')
    · obtain ⟨-, -, ⟨hk', -⟩ | ⟨hk', -⟩ | ⟨-, -, -, -, -, pool, -, hp'⟩⟩ := mem_demands hd'
      · exact hsame _ hk hk'
      · exact hsame _ hk hk'
      · rw [hp, hp'] at hpart
        cases hpart
    · obtain ⟨-, -, ⟨hk', -, hp'⟩ | ⟨-, -, hp'⟩ | ⟨hk', -⟩⟩ := mem_demands hd'
      · exact h.part_ne ho' ho hname.symm hk' hp' hk hspec hpool (hpart.symm.trans hp)
      · rw [hp, hp'] at hpart
        cases hpart
      · exact hsame _ hk hk'

end Separated

/-- A resource of the specialization of an NFDeployment. -/
def rooted (root : String) (o : KubeObject V) : KubeObject V :=
  o.setAnnotation specializerOwner (getConditionType
    { apiVersion := "workload.nephio.org/v1alpha1", kind := "NFDeployment", name := root })

def sriovInterface (name : String) : KubeObject Payload :=
  { apiVersion := Req.groupVersion, kind := "Interface", name
    spec := some (.interface
      { networkInstance := some { apiVersion := "", kind := "", name := "vpc-ran" }
        cniType := "sriov", attachmentType := .vlan } {}) }

def pooledNetwork (name pool : String) : KubeObject Payload :=
  { apiVersion := Req.groupVersion, kind := "DataNetwork", name
    spec := some (.dataNetwork
      { networkInstance := { apiVersion := "", kind := "", name := "vpc-internet" }
        pools := [{ name := pool }] } {}) }

def sriovCluster : WorkloadClusterSpec := { clusterName := "cluster01", cnis := ["sriov"] }

end ClaimFns

end Nephio
