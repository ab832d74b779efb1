import Nephio.Laws.NfDeployFn.Integrity

/-!
# Laws.NfDeployFn.Idempotent: running nfdeploy-fn on its own result

The second run reads the same children, so that everything but `parametersRefs` comes out the same.
These are read back from the spec, extended and sorted again, with a comparison that is not an
order: it answers true on a tie, and where a name is missing. The second run writes what the first
one wrote exactly when that sort leaves the list alone and no injected reference is looked up past an
entry without a name (`written_again_iff`). Where all entries have names, what is written second has
the entries of each name turned around.
-/

namespace Nephio.NfDeployFn

open Workload

variable {V Q : Type} {api : Api V Q} {sort : Go.SliceSort} {ord ord' : Order}

/-- The references that the Dependency children inject. -/
def injected (api : Api V Q) (objs : List (KubeObject V)) : List ObjectReference :=
  (whereKind "Dependency" objs).flatMap fun o => references ((readDependency api o).getD [])

/-- The references stay as they are in a further run. -/
def Settled (sort : Go.SliceSort) (ps : List ParametersRef) (refs : List ObjectReference) : Prop :=
  sort.slice paramRefLess ps = ps ∧ ∀ ref ∈ refs, checkDependencyExist ref ps = .ok true

/-! ## References that are listed already -/

theorem mem_insertRef_iff {p : ParametersRef} {ps : List ParametersRef} {ref : ObjectReference} :
    p ∈ insertRef ps ref ↔ p ∈ ps ∨ p = refOf ref := by
  unfold insertRef
  split
  next hmem =>
    refine ⟨.inl, ?_⟩
    rintro (hp | rfl)
    · exact hp
    · exact hmem
  next => rw [List.mem_append, List.mem_singleton]

theorem mem_foldl_insertRef_iff {p : ParametersRef} {ps : List ParametersRef}
    {refs : List ObjectReference} :
    p ∈ refs.foldl insertRef ps ↔ p ∈ ps ∨ ∃ ref ∈ refs, p = refOf ref := by
  induction refs generalizing ps with
  | nil => simp
  | cons ref refs ih =>
    rw [List.foldl_cons, ih, mem_insertRef_iff, List.exists_mem_cons_iff, or_assoc]

theorem foldl_insertRef_of_mem {ps : List ParametersRef} {refs : List ObjectReference}
    (h : ∀ ref ∈ refs, refOf ref ∈ ps) : refs.foldl insertRef ps = ps := by
  induction refs with
  | nil => rfl
  | cons ref refs ih =>
    rw [List.foldl_cons, insertRef, if_pos (h ref List.mem_cons_self)]
    exact ih fun ref' hmem => h ref' (List.mem_cons_of_mem _ hmem)

theorem accepts_iff_of_mem {ps : List ParametersRef} {refs : List ObjectReference}
    (h : ∀ ref ∈ refs, refOf ref ∈ ps) :
    Accepts ps refs ↔ ∀ ref ∈ refs, checkDependencyExist ref ps = .ok true := by
  refine or_iff_right_of_imp fun hn ref href => ?_
  rcases checkDependencyExist_spec ref ps with ⟨hc, -⟩ | ⟨-, hmem, -⟩ | ⟨-, hnot⟩
  · exact hc
  · exact absurd (h ref href) hmem
  · exact absurd hn hnot

/-! ## References with names -/

/-- The name of an entry that has one. -/
def refName (p : ParametersRef) : String := p.name.getD ""

theorem paramRefLess_of_named {a b : ParametersRef} (ha : a.name.isSome) (hb : b.name.isSome) :
    paramRefLess a b = decide (refName a ≤ refName b) := by
  obtain ⟨x, hx⟩ := Option.isSome_iff_exists.mp ha
  obtain ⟨y, hy⟩ := Option.isSome_iff_exists.mp hb
  simp only [paramRefLess, refName, hx, hy, Option.getD_some]

theorem slice_paramRefLess {ps : List ParametersRef} (h : Named ps) :
    sort.slice paramRefLess ps = sort.slice (fun a b => refName a ≤ refName b) ps := by
  refine sort.apart (List.pairwise_of_forall_mem_list fun a ha b hb => ?_)
  exact ⟨paramRefLess_of_named (h a ha) (h b hb), paramRefLess_of_named (h b hb) (h a ha)⟩

theorem named_slice_iff {ps : List ParametersRef} :
    Named (sort.slice paramRefLess ps) ↔ Named ps := by
  unfold Named
  simp only [(sort.perm paramRefLess ps).mem_iff]

theorem filter_refName {ps : List ParametersRef} (h : Named ps) (name : String) :
    ps.filter (refName · = name) = ps.filter (·.name = some name) := by
  refine List.filter_congr fun p hp => ?_
  obtain ⟨x, hx⟩ := Option.isSome_iff_exists.mp (h p hp)
  rw [refName, hx]
  simp

/-- Up to twelve entries with names: the entries of each name read the same backwards. -/
theorem slice_slice_eq_iff {ps : List ParametersRef} (h : Named ps) (hlen : ps.length ≤ 12) :
    sort.slice paramRefLess (sort.slice paramRefLess ps) = sort.slice paramRefLess ps ↔
      ∀ name, ((sort.slice paramRefLess ps).filter (·.name = some name)).reverse =
        (sort.slice paramRefLess ps).filter (·.name = some name) := by
  have hnamed : Named (sort.slice paramRefLess ps) := named_slice_iff.mpr h
  have hlen' : (sort.slice paramRefLess ps).length ≤ 12 := by
    rw [(sort.perm paramRefLess ps).length_eq]
    exact hlen
  have hsorted : (sort.slice paramRefLess ps).Pairwise fun a b => refName a ≤ refName b := by
    rw [slice_paramRefLess h, sort.small _ _ hlen]
    exact Go.pairwise_insertionSort_le ps
  rw [slice_paramRefLess hnamed, sort.small _ _ hlen', Go.insertionSort_le_eq_self_iff hsorted]
  simp only [filter_refName hnamed]

theorem nodup_refName {ps : List ParametersRef} (h : Named ps)
    (hnodup : (ps.map ParametersRef.name).Nodup) : (ps.map refName).Nodup := by
  rw [List.Nodup, List.pairwise_map] at hnodup ⊢
  refine List.Pairwise.imp_of_mem (fun {a b} ha hb hne heq => hne ?_) hnodup
  obtain ⟨x, hx⟩ := Option.isSome_iff_exists.mp (h a ha)
  obtain ⟨y, hy⟩ := Option.isSome_iff_exists.mp (h b hb)
  rw [refName, refName, hx, hy] at heq
  rw [hx, hy]
  exact congrArg some heq

/-- Entries with distinct names are sorted into one order. -/
theorem slice_paramRefLess_of_perm {ps ps' : List ParametersRef} (h : ps'.Perm ps) (hn : Named ps)
    (hnodup : (ps.map ParametersRef.name).Nodup) :
    sort.slice paramRefLess ps' = sort.slice paramRefLess ps := by
  have hn' : Named ps' := fun p hp => hn p (h.mem_iff.mp hp)
  rw [slice_paramRefLess hn, slice_paramRefLess hn']
  exact (Go.slice_le_eq_of_perm sort h.symm (nodup_refName hn hnodup)).symm

/-! ## The second run -/

theorem specOf_again_iff (nf : NFDeploymentSpec Q) {cs : List (Change Q)}
    (hord : ord' = ord ∨ (((configs cs).map Prod.snd).map InterfaceConfig.name).Nodup)
    (hmem : ∀ ref ∈ references cs, refOf ref ∈ (specOf nf cs sort ord).parametersRefs) :
    specOf nf cs sort ord = specOf (specOf nf cs sort ord) cs sort ord' ↔
      sort.slice paramRefLess (specOf nf cs sort ord).parametersRefs =
        (specOf nf cs sort ord).parametersRefs := by
  have hparams : (specOf (specOf nf cs sort ord) cs sort ord').parametersRefs =
      sort.slice paramRefLess (specOf nf cs sort ord).parametersRefs := by
    rw [parametersRefs_specOf _ _, foldl_insertRef_of_mem hmem]
  rw [← hparams]
  refine ⟨fun h => congrArg NFDeploymentSpec.parametersRefs h.symm, fun heq => ?_⟩
  -- all but the references comes from the children
  ext1
  case capacity =>
    rw [capacity_specOf (specOf nf cs sort ord), capacity_specOf, ← Option.or_assoc, Option.or_self]
  case interfaces =>
    rw [interfaces_specOf (specOf nf cs sort ord), ← interfaces_specOf nf]
    rcases hord with rfl | hnodup
    · rfl
    · exact interfaces_order nf cs ord' hnodup
  case networkInstances =>
    rw [networkInstances_specOf (specOf nf cs sort ord), ← networkInstances_specOf nf]
    exact networkInstances_order nf cs ord'
  case parametersRefs => exact heq.symm

/-- **The second run writes the spec again** exactly when its references are settled. -/
theorem written_again_iff {nf nf₁ : NFDeploymentSpec Q} {objs : List (KubeObject V)}
    (h : written api sort ord newFunction nf objs = .ok (.ok nf₁))
    (hord : ord' = ord ∨ ((whereKind "Interface" objs).map KubeObject.name).Nodup) :
    written api sort ord' newFunction nf₁ objs = .ok (.ok nf₁) ↔
      Settled sort nf₁.parametersRefs (injected api objs) := by
  obtain ⟨cs, hcs, -, hnf₁⟩ := written_iff.mp h
  obtain rfl : nf₁ = specOf nf cs sort ord := hnf₁
  have hmem : ∀ ref ∈ references cs, refOf ref ∈ (specOf nf cs sort ord).parametersRefs :=
    fun ref href => (sort.perm _ _).mem_iff.mpr (mem_foldl_insertRef_iff.mpr (.inr ⟨ref, href, rfl⟩))
  have hspec := specOf_again_iff nf (hord.imp_right (nodup_names_configs hcs)) hmem
  rw [Settled, show injected api objs = references cs from (references_changes hcs).symm,
    ← accepts_iff_of_mem hmem, ← hspec, written_iff]
  constructor
  · rintro ⟨cs', hcs', hacc, heq⟩
    cases hcs.symm.trans hcs'
    exact ⟨heq, hacc⟩
  · rintro ⟨heq, hacc⟩
    exact ⟨cs, hcs, hacc, heq⟩

/-- References that all have names are found, so that only the sort matters. -/
theorem settled_iff_of_named {nf nf₁ : NFDeploymentSpec Q} {objs : List (KubeObject V)}
    (h : written api sort ord newFunction nf objs = .ok (.ok nf₁))
    (hn : Named nf₁.parametersRefs) :
    ∃ ps, nf₁.parametersRefs = sort.slice paramRefLess ps ∧
      (Settled sort nf₁.parametersRefs (injected api objs) ↔
        sort.slice paramRefLess nf₁.parametersRefs = nf₁.parametersRefs) := by
  obtain ⟨cs, hcs, -, hnf₁⟩ := written_iff.mp h
  obtain rfl : nf₁ = specOf nf cs sort ord := hnf₁
  refine ⟨_, parametersRefs_specOf nf cs, and_iff_left ?_⟩
  rw [show injected api objs = references cs from (references_changes hcs).symm]
  refine (accepts_iff_of_mem fun ref href => ?_).mp (.inl hn)
  exact (sort.perm _ _).mem_iff.mpr (mem_foldl_insertRef_iff.mpr (.inr ⟨ref, href, rfl⟩))

/-- What the typed object is for: the spec that is set is the one that is read, and it can be set
again. -/
structure Faithful (api : Api V Q) : Prop where
  reads : ∀ {o o' spec}, api.setSpec o spec = .ok o' → api.nfDeployment o' = .ok spec
  writes : ∀ {o o' spec}, api.setSpec o spec = .ok o' → ∃ o'', api.setSpec o' spec = .ok o''

/-- A first call on the object returns an object with the spec. -/
def Yields (api : Api V Q) (sort : Go.SliceSort) (ord : Order) (objs : List (KubeObject V))
    (obj : KubeObject V) (spec : NFDeploymentSpec Q) : Prop :=
  ∃ f obj', newFunction.updateResourceFn api sort ord (some obj) objs = .ok (f, .ok [obj']) ∧
    api.nfDeployment obj' = .ok spec

theorem yields_iff (hapi : Faithful api) {obj : KubeObject V} {nf spec : NFDeploymentSpec Q}
    {objs : List (KubeObject V)} (hnf : api.nfDeployment obj = .ok nf) :
    Yields api sort ord objs obj spec ↔
      (∃ obj', api.setSpec obj spec = .ok obj') ∧
        written api sort ord newFunction nf objs = .ok (.ok spec) := by
  constructor
  · rintro ⟨f, obj', hrun, hread⟩
    obtain ⟨nf', spec', obj'', hnf', hwritten, hset, hout⟩ := returns_iff.mp ⟨f, hrun⟩
    cases hnf.symm.trans hnf'
    cases List.singleton_inj.mp hout
    cases (hapi.reads hset).symm.trans hread
    exact ⟨⟨obj', hset⟩, hwritten⟩
  · rintro ⟨⟨obj', hset⟩, hwritten⟩
    obtain ⟨f, hrun⟩ := returns_iff.mpr ⟨nf, spec, obj', hnf, hwritten, hset, rfl⟩
    exact ⟨f, obj', hrun, hapi.reads hset⟩

theorem faithful_payloadApi : Faithful payloadApi where
  reads := by
    rintro o o' spec h
    cases h
    rfl
  writes := fun _ => ⟨_, rfl⟩

/-- An NFDeployment that has references already. -/
def nfDeploymentWithRefs (ps : List ParametersRef) : KubeObject Payload :=
  { apiVersion := "workload.nephio.org/v1alpha1", kind := "NFDeployment", name := "upf"
    spec := some (.nfDeployment { parametersRefs := ps }) }

/-- What a first call returns for the NFDeployment with the references. -/
def returned (ps : List ParametersRef) (objs : List (KubeObject Payload)) :
    Except Go.Panic (Except String (List (KubeObject Payload))) :=
  (newFunction.updateResourceFn payloadApi .insertion .insertion
    (some (nfDeploymentWithRefs ps)) objs).map Prod.snd

/-- A reference to an object of the core group. -/
def coreRef (kind : String) (name : Option String) : ParametersRef :=
  { apiVersion := "v1", kind, name }

end Nephio.NfDeployFn
