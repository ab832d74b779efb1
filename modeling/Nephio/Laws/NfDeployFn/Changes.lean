import Nephio.Data.Alter
import Nephio.Laws.NfDeployFn.Isolation

/-!
# Laws.NfDeployFn.Changes: what the children bring

A child is read without regard to the state: it gives one `Change`, nothing, or an error. So a call
writes a spec exactly when every child can be read and the changes go through, and what the changes
leave is one closed form for each field of the state (`foldlM_apply_iff`): the last capacity, the
interface configs and the data networks of each network instance in the order of the children, and
the references that were not there yet.
-/

namespace Nephio.NfDeployFn

open Workload

variable {V Q : Type} {api : Api V Q} {sort : Go.SliceSort} {ord : Order}

/-! ## Reading a child -/

/-- What a child asks for. -/
inductive Change (Q : Type) where
  | capacity (q : Q)
  | dataNetwork (dnn : DataNetwork) (networkInstanceName : String)
  | interface (config : InterfaceConfig) (networkInstanceName : String)
  | dependency (refs : List ObjectReference)

def Change.apply (f : NfDeployFn Q) : Change Q → Option (NfDeployFn Q)
  | .capacity q => some { f with capacity := some q }
  | .dataNetwork dnn name => some (f.addDNNToNetworkInstance dnn name)
  | .interface config name => some (f.setInterfaceConfig config name)
  | .dependency refs => (refs.foldlM addDependencyRef f).toOption

/-- The changes of a child, which are at most one; `none` where it cannot be read. -/
def readCapacity (api : Api V Q) (o : KubeObject V) : Option (List (Change Q)) :=
  (api.capacity o).toOption.map fun q => [.capacity q]

/-- The data network of a child with pools. -/
def dataNetworkOf (o : KubeObject V) (pools : List Req.PoolStatus) : DataNetwork where
  name := some o.name
  pool := pools.filterMap fun pool => pool.ipClaim.ipPrefix.map fun ipPrefix => { ipPrefix }

def readDataNetwork (api : Api V Q) (o : KubeObject V) : Option (List (Change Q)) :=
  (api.dataNetwork o).toOption.map fun read =>
    match read.2.pools with
    | none => []
    | some pools => [.dataNetwork (dataNetworkOf o pools) read.1.networkInstance.name]

def readInterface (api : Api V Q) (o : KubeObject V) : Option (List (Change Q)) := do
  let read ← (api.interface o).toOption
  if (api.validate read.1).isSome then none
  else
    match read.2.ipClaimStatus, read.2.vlanClaimStatus with
    | some ipClaims, some vlanClaim =>
      let ips ← (ipClaims.foldlM (addresses api) (none, none)).toOption
      let networkInstance ← read.1.networkInstance
      some [.interface { name := o.name, ipv4 := ips.1, ipv6 := ips.2, vlanID := vlanClaim.vlanID }
        networkInstance.name]
    | _, _ => some []

def readDependency (api : Api V Q) (o : KubeObject V) : Option (List (Change Q)) :=
  (api.dependency o).toOption.map fun status => [.dependency status.injected]

/-- The readings of one call, in the order of the four loops. -/
def readings (api : Api V Q) (objs : List (KubeObject V)) : List (Option (List (Change Q))) :=
  (whereKind "Capacity" objs).map (readCapacity api) ++
  (whereKind "DataNetwork" objs).map (readDataNetwork api) ++
  (whereKind "Interface" objs).map (readInterface api) ++
  (whereKind "Dependency" objs).map (readDependency api)

/-- The changes of all children, where each can be read. -/
def changes (api : Api V Q) (objs : List (KubeObject V)) : Option (List (Change Q)) :=
  ((readings api objs).mapM id).map List.flatten

/-- The result of an update, where there is one. -/
def result {α : Type} : Except Go.Panic (Except String α) → Option α
  | .ok (.ok a) => some a
  | _ => none

section Update

variable (f : NfDeployFn Q) (o : KubeObject V)

theorem result_capacityUpdate :
    result (capacityUpdate api f o) = (readCapacity api o).bind fun cs => cs.foldlM Change.apply f := by
  unfold capacityUpdate readCapacity
  cases api.capacity o <;> rfl

theorem result_dnnUpdate :
    result (dnnUpdate api f o) =
      (readDataNetwork api o).bind fun cs => cs.foldlM Change.apply f := by
  unfold dnnUpdate readDataNetwork
  cases api.dataNetwork o with
  | error err => rfl
  | ok read =>
    simp only [Except.toOption, Option.map_some, Option.bind_some]
    cases read.2.pools <;> rfl

theorem result_interfaceUpdate :
    result (interfaceUpdate api f o) =
      (readInterface api o).bind fun cs => cs.foldlM Change.apply f := by
  unfold interfaceUpdate readInterface
  cases api.interface o with
  | error err => rfl
  | ok read =>
    simp only [Except.toOption, Option.bind_eq_bind, Option.bind_some]
    cases api.validate read.1 with
    | some err => rfl
    | none =>
      simp only [Option.isSome_none, Bool.false_eq_true, if_false]
      cases read.2.ipClaimStatus with
      | none => rfl
      | some ipClaims =>
        cases read.2.vlanClaimStatus with
        | none => rfl
        | some vlanClaim =>
          simp only
          cases ipClaims.foldlM (addresses api) (none, none) with
          | error err => rfl
          | ok ips =>
            simp only [Option.bind_some]
            cases read.1.networkInstance <;> rfl

theorem result_dependencyUpdate :
    result (dependencyUpdate api f o) =
      (readDependency api o).bind fun cs => cs.foldlM Change.apply f := by
  unfold dependencyUpdate readDependency
  cases api.dependency o with
  | error err => rfl
  | ok status =>
    simp only [Except.toOption, Option.map_some, Option.bind_some, List.foldlM_cons,
      List.foldlM_nil, Change.apply]
    cases status.injected.foldlM addDependencyRef f <;> rfl

end Update

/-! ## Reading all children, then changing the state -/

/-- A loop that ends without an error. -/
theorem untilError_eq_none_iff {σ α : Type} {step : σ → α → Except Go.Panic (Except String σ)}
    {l : List α} {s t : σ} :
    Fallible.untilError step s l = .ok (t, none) ↔
      l.foldlM (fun s a => result (step s a)) s = some t := by
  induction l generalizing s with
  | nil =>
    constructor
    · intro h
      cases h
      rfl
    · intro h
      cases h
      rfl
  | cons a l ih =>
    rw [List.foldlM_cons, Fallible.untilError]
    cases hstep : step s a with
    | error p => exact ⟨fun h => (by cases h), fun h => (by cases h)⟩
    | ok x =>
      cases x with
      | error err => exact ⟨fun h => (by cases h), fun h => (by cases h)⟩
      | ok s' => exact ih

/-- Whether the readings come first or one by one, the changes are the same. -/
theorem foldlM_readings_iff {rs : List (Option (List (Change Q)))} {f t : NfDeployFn Q} :
    rs.foldlM (fun f r => r.bind fun cs => cs.foldlM Change.apply f) f = some t ↔
      ∃ css, rs.mapM id = some css ∧ css.flatten.foldlM Change.apply f = some t := by
  induction rs generalizing f with
  | nil =>
    constructor
    · intro h
      exact ⟨[], rfl, h⟩
    · rintro ⟨css, hcss, h⟩
      cases hcss
      exact h
  | cons r rs ih =>
    rw [List.foldlM_cons, List.mapM_cons]
    cases r with
    | none =>
      constructor
      · intro h
        cases h
      · rintro ⟨css, hcss, -⟩
        cases hcss
    | some cs =>
      simp only [Option.bind_some, Option.bind_eq_bind, id]
      constructor
      · intro h
        obtain ⟨f', hf', h⟩ := Option.bind_eq_some_iff.mp h
        obtain ⟨css, hcss, h⟩ := ih.mp h
        refine ⟨cs :: css, ?_, ?_⟩
        · rw [hcss]
          rfl
        · rw [List.flatten_cons, List.foldlM_append, hf']
          exact h
      · rintro ⟨css, hcss, h⟩
        obtain ⟨css', hcss', heq⟩ := Option.bind_eq_some_iff.mp hcss
        cases heq
        rw [List.flatten_cons, List.foldlM_append] at h
        obtain ⟨f', hf', h⟩ := Option.bind_eq_some_iff.mp h
        exact Option.bind_eq_some_iff.mpr ⟨f', hf', ih.mpr ⟨css', hcss', h⟩⟩

/-- **The loops over the children** end without an error exactly when every child can be read and
the changes go through. -/
theorem updates_iff {f t : NfDeployFn Q} {objs : List (KubeObject V)} :
    Fallible.untilError (fun f e => e.1 f e.2) f (updates api objs) = .ok (t, none) ↔
      ∃ cs, changes api objs = some cs ∧ cs.foldlM Change.apply f = some t := by
  have hreadings : ∀ f : NfDeployFn Q,
      (updates api objs).foldlM (fun f e => result (e.1 f e.2)) f =
        (readings api objs).foldlM (fun f r => r.bind fun cs => cs.foldlM Change.apply f) f := by
    intro f
    simp only [updates, readings, List.foldlM_append, List.foldlM_map, result_capacityUpdate,
      result_dnnUpdate, result_interfaceUpdate, result_dependencyUpdate]
  rw [untilError_eq_none_iff, hreadings, foldlM_readings_iff]
  constructor
  · rintro ⟨css, hcss, h⟩
    exact ⟨css.flatten, by rw [changes, hcss]; rfl, h⟩
  · rintro ⟨cs, hcs, h⟩
    obtain ⟨css, hcss, rfl⟩ := Option.map_eq_some_iff.mp hcs
    exact ⟨css, hcss, h⟩

/-! ## References -/

/-- The reference as it is listed. -/
def refOf (ref : ObjectReference) : ParametersRef where
  name := some ref.name
  kind := ref.kind
  apiVersion := ref.apiVersion

/-- The references a state lists after a further one. -/
def insertRef (ps : List ParametersRef) (ref : ObjectReference) : List ParametersRef :=
  if refOf ref ∈ ps then ps else ps ++ [refOf ref]

/-- Every entry has a name. -/
def Named (ps : List ParametersRef) : Prop := ∀ p ∈ ps, p.name.isSome

instance (ps : List ParametersRef) : Decidable (Named ps) :=
  inferInstanceAs (Decidable (∀ p ∈ ps, p.name.isSome))

theorem eq_refOf_iff {p : ParametersRef} {ref : ObjectReference} :
    p = refOf ref ↔ p.name = some ref.name ∧ p.kind = ref.kind ∧ p.apiVersion = ref.apiVersion := by
  obtain ⟨name, kind, apiVersion⟩ := p
  simp only [refOf, ParametersRef.mk.injEq]

/-- The check ends at the entry, or at one without a name, or has seen every entry. -/
theorem checkDependencyExist_spec (ref : ObjectReference) (ps : List ParametersRef) :
    (checkDependencyExist ref ps = .ok true ∧ refOf ref ∈ ps) ∨
      (checkDependencyExist ref ps = .ok false ∧ refOf ref ∉ ps ∧ Named ps) ∨
      (checkDependencyExist ref ps = .error .nilPointer ∧ ¬ Named ps) := by
  induction ps with
  | nil => exact .inr (.inl ⟨rfl, List.not_mem_nil, nofun⟩)
  | cons p ps ih =>
    rw [checkDependencyExist]
    cases hname : p.name with
    | none =>
      refine .inr (.inr ⟨rfl, fun h => ?_⟩)
      have := h p List.mem_cons_self
      rw [hname] at this
      cases this
    | some name =>
      simp only
      by_cases heq : name = ref.name ∧ p.kind = ref.kind ∧ p.apiVersion = ref.apiVersion
      · rw [if_pos heq]
        have hp : p = refOf ref := eq_refOf_iff.mpr ⟨hname.trans (congrArg some heq.1), heq.2⟩
        exact .inl ⟨rfl, hp ▸ List.mem_cons_self⟩
      · rw [if_neg heq]
        have hp : refOf ref ≠ p := fun h => heq
          ⟨Option.some.inj (hname.symm.trans (eq_refOf_iff.mp h.symm).1), (eq_refOf_iff.mp h.symm).2⟩
        have hnamed : Named (p :: ps) ↔ Named ps := by
          unfold Named
          rw [List.forall_mem_cons, hname]
          exact and_iff_right rfl
        rcases ih with ⟨hc, hmem⟩ | ⟨hc, hmem, hn⟩ | ⟨hc, hn⟩
        · exact .inl ⟨hc, List.mem_cons_of_mem _ hmem⟩
        · exact .inr (.inl ⟨hc, fun h => (List.mem_cons.mp h).elim hp hmem, hnamed.mpr hn⟩)
        · exact .inr (.inr ⟨hc, fun h => hn (hnamed.mp h)⟩)

theorem named_insertRef {ps : List ParametersRef} (h : Named ps) (ref : ObjectReference) :
    Named (insertRef ps ref) := by
  unfold insertRef
  split
  · exact h
  · intro p hp
    rcases List.mem_append.mp hp with hp | hp
    · exact h p hp
    · rw [List.mem_singleton.mp hp]
      rfl

/-- `AddDependencyRef`: it panics at an entry without a name that it has to pass. -/
theorem addDependencyRef_iff {f t : NfDeployFn Q} {ref : ObjectReference} :
    (f.addDependencyRef ref).toOption = some t ↔
      (Named f.paramRef ∨ checkDependencyExist ref f.paramRef = .ok true) ∧
        t = { f with paramRef := insertRef f.paramRef ref } := by
  unfold addDependencyRef insertRef
  rcases checkDependencyExist_spec ref f.paramRef with ⟨hc, hmem⟩ | ⟨hc, hmem, hn⟩ | ⟨hc, hn⟩
  · rw [hc, if_pos hmem, and_iff_right (.inr rfl), eq_comm]
    exact Option.some_inj
  · rw [hc, if_neg hmem, and_iff_right (.inl hn), eq_comm]
    exact Option.some_inj
  · rw [hc]
    refine iff_of_false nofun ?_
    rintro ⟨h | h, -⟩
    · exact hn h
    · cases h

/-- The references that a call lists can be added. -/
def Accepts (ps : List ParametersRef) (refs : List ObjectReference) : Prop :=
  Named ps ∨ ∀ ref ∈ refs, checkDependencyExist ref ps = .ok true

theorem insertRef_of_check {ps : List ParametersRef} {ref : ObjectReference}
    (h : checkDependencyExist ref ps = .ok true) : insertRef ps ref = ps := by
  rcases checkDependencyExist_spec ref ps with ⟨-, hmem⟩ | ⟨hc, -⟩ | ⟨hc, -⟩
  · exact if_pos hmem
  · cases h.symm.trans hc
  · cases h.symm.trans hc

theorem foldl_insertRef_of_check {ps : List ParametersRef} {refs : List ObjectReference}
    (h : ∀ ref ∈ refs, checkDependencyExist ref ps = .ok true) : refs.foldl insertRef ps = ps := by
  induction refs with
  | nil => rfl
  | cons ref refs ih =>
    rw [List.foldl_cons, insertRef_of_check (h ref List.mem_cons_self)]
    exact ih fun ref' hmem => h ref' (List.mem_cons_of_mem _ hmem)

theorem named_foldl_insertRef {ps : List ParametersRef} (h : Named ps)
    (refs : List ObjectReference) : Named (refs.foldl insertRef ps) := by
  induction refs generalizing ps with
  | nil => exact h
  | cons ref refs ih => exact ih (named_insertRef h ref)

theorem accepts_append {ps : List ParametersRef} {refs refs' : List ObjectReference} :
    Accepts ps (refs ++ refs') ↔ Accepts ps refs ∧ Accepts (refs.foldl insertRef ps) refs' := by
  unfold Accepts
  by_cases hn : Named ps
  · exact iff_of_true (.inl hn) ⟨.inl hn, .inl (named_foldl_insertRef hn refs)⟩
  · rw [or_iff_right hn, or_iff_right hn, List.forall_mem_append]
    refine and_congr_right fun hall => ?_
    rw [foldl_insertRef_of_check hall, or_iff_right hn]

theorem accepts_singleton {ps : List ParametersRef} {ref : ObjectReference} :
    Accepts ps [ref] ↔ Named ps ∨ checkDependencyExist ref ps = .ok true :=
  or_congr_right List.forall_mem_singleton

theorem toOption_foldlM_cons {ε σ α : Type} (step : σ → α → Except ε σ) (s : σ) (a : α)
    (l : List α) :
    ((a :: l).foldlM step s).toOption =
      (step s a).toOption.bind fun s => (l.foldlM step s).toOption := by
  rw [List.foldlM_cons]
  cases step s a <;> rfl

theorem foldlM_addDependencyRef_iff {f t : NfDeployFn Q} {refs : List ObjectReference} :
    (refs.foldlM addDependencyRef f).toOption = some t ↔
      Accepts f.paramRef refs ∧ t = { f with paramRef := refs.foldl insertRef f.paramRef } := by
  induction refs generalizing f with
  | nil =>
    rw [and_iff_right (.inr nofun), eq_comm]
    exact Option.some_inj
  | cons ref refs ih =>
    rw [toOption_foldlM_cons, Option.bind_eq_some_iff,
      show ref :: refs = [ref] ++ refs from rfl, accepts_append, accepts_singleton,
      List.foldl_append]
    constructor
    · rintro ⟨f', hf', h⟩
      obtain ⟨hacc, rfl⟩ := addDependencyRef_iff.mp hf'
      obtain ⟨haccs, rfl⟩ := ih.mp h
      exact ⟨⟨hacc, haccs⟩, rfl⟩
    · rintro ⟨⟨hacc, haccs⟩, rfl⟩
      exact ⟨_, addDependencyRef_iff.mpr ⟨hacc, rfl⟩, ih.mpr ⟨haccs, rfl⟩⟩

/-! ## The state after the changes -/

/-- The capacities, the data networks and the interface configs, each with the name of its network
instance, and the references that the changes bring. A config without such a name is dropped. -/
def capacities (cs : List (Change Q)) : List Q :=
  cs.filterMap fun
    | .capacity q => some q
    | _ => none

@[inherit_doc capacities]
def networks (cs : List (Change Q)) : List (String × DataNetwork) :=
  cs.filterMap fun
    | .dataNetwork dnn name => some (name, dnn)
    | _ => none

@[inherit_doc capacities]
def configs (cs : List (Change Q)) : List (String × InterfaceConfig) :=
  cs.filterMap fun
    | .interface config name => if name = "" then none else some (name, config)
    | _ => none

@[inherit_doc capacities]
def references (cs : List (Change Q)) : List ObjectReference :=
  cs.flatMap fun
    | .dependency refs => refs
    | _ => []

def addNetwork (x : String × DataNetwork) : Keyed.Edit (Prod.fst : String × NetworkInstance → String) :=
  .alter x.1 { name := x.1 } fun nI => { nI with dataNetworks := nI.dataNetworks ++ [x.2] }

theorem upsertNetworkInstance_eq (f : NfDeployFn Q) (name : String)
    (change : NetworkInstance → NetworkInstance) :
    f.upsertNetworkInstance name change (change { name }) =
      { f with
        networkInstance := (Keyed.Edit.alter name { name } change).apply f.networkInstance } := by
  unfold upsertNetworkInstance
  rw [Keyed.alter_apply, Keyed.value]
  cases Keyed.lookup Prod.fst name f.networkInstance <;> rfl

theorem addDNNToNetworkInstance_eq (f : NfDeployFn Q) (dnn : DataNetwork) (name : String) :
    f.addDNNToNetworkInstance dnn name =
      { f with networkInstance := (addNetwork (name, dnn)).apply f.networkInstance } :=
  upsertNetworkInstance_eq f name fun nI => { nI with dataNetworks := nI.dataNetworks ++ [dnn] }

theorem setInterfaceConfig_eq (f : NfDeployFn Q) (config : InterfaceConfig) {name : String}
    (hname : name ≠ "") :
    f.setInterfaceConfig config name =
      { f with interfaceConfigsMap := (Keyed.Edit.append (name, config)).apply f.interfaceConfigsMap } := by
  unfold setInterfaceConfig
  rw [if_neg hname]
  rfl

/-- The state after changes that go through. -/
def changed (cs : List (Change Q)) (f : NfDeployFn Q) : NfDeployFn Q where
  capacity := (capacities cs).getLast?.or f.capacity
  networkInstance := Keyed.applyAll ((networks cs).map addNetwork) f.networkInstance
  interfaceConfigsMap := Keyed.applyAll ((configs cs).map .append) f.interfaceConfigsMap
  paramRef := (references cs).foldl insertRef f.paramRef

theorem apply_iff {c : Change Q} {f t : NfDeployFn Q} :
    c.apply f = some t ↔ Accepts f.paramRef (references [c]) ∧ t = changed [c] f := by
  cases c with
  | capacity q =>
    rw [and_iff_right (.inr nofun), eq_comm]
    exact Option.some_inj
  | dataNetwork dnn name =>
    rw [and_iff_right (.inr nofun), eq_comm, Change.apply, addDNNToNetworkInstance_eq]
    exact Option.some_inj
  | interface config name =>
    rw [and_iff_right (.inr nofun), eq_comm, Change.apply]
    by_cases hname : name = ""
    · simp only [setInterfaceConfig, hname, if_true, Option.some_inj]
      rfl
    · rw [setInterfaceConfig_eq f config hname, Option.some_inj]
      simp only [changed, configs, List.filterMap_cons, hname, if_false]
      rfl
  | dependency refs =>
    rw [Change.apply, foldlM_addDependencyRef_iff, references, List.flatMap_singleton]
    simp only [changed, references, List.flatMap_singleton]
    rfl

theorem changed_append (cs cs' : List (Change Q)) (f : NfDeployFn Q) :
    changed (cs ++ cs') f = changed cs' (changed cs f) := by
  simp only [changed, capacities, networks, configs, references, List.filterMap_append,
    List.flatMap_append, List.map_append, Keyed.applyAll_append, List.foldl_append,
    List.getLast?_append, Option.or_assoc]

/-- **What a run of changes leaves**, where it goes through. -/
theorem foldlM_apply_iff {cs : List (Change Q)} {f t : NfDeployFn Q} :
    cs.foldlM Change.apply f = some t ↔ Accepts f.paramRef (references cs) ∧ t = changed cs f := by
  induction cs generalizing f with
  | nil =>
    rw [and_iff_right (.inr nofun), eq_comm]
    exact Option.some_inj
  | cons c cs ih =>
    have hrefs : references (c :: cs) = references [c] ++ references cs := by
      rw [← List.singleton_append, references, List.flatMap_append]
      rfl
    have hchanged : changed (c :: cs) f = changed cs (changed [c] f) := changed_append [c] cs f
    rw [List.foldlM_cons, Option.bind_eq_bind, Option.bind_eq_some_iff, hrefs, accepts_append,
      hchanged]
    constructor
    · rintro ⟨f', hf', h⟩
      obtain ⟨hacc, rfl⟩ := apply_iff.mp hf'
      obtain ⟨haccs, rfl⟩ := ih.mp h
      exact ⟨⟨hacc, haccs⟩, rfl⟩
    · rintro ⟨⟨hacc, haccs⟩, rfl⟩
      exact ⟨_, apply_iff.mpr ⟨hacc, rfl⟩, ih.mpr ⟨haccs, rfl⟩⟩

/-- **What a call on a new function writes.** -/
theorem written_iff {nf spec : NFDeploymentSpec Q} {objs : List (KubeObject V)} :
    written api sort ord newFunction nf objs = .ok (.ok spec) ↔
      ∃ cs, changes api objs = some cs ∧ Accepts nf.parametersRefs (references cs) ∧
        spec = ((changed cs { newFunction with paramRef := nf.parametersRefs }).writeSpec
          sort ord nf).2 := by
  have hwritten : written api sort ord newFunction nf objs = .ok (.ok spec) ↔
      ∃ t, Fallible.untilError (fun f e => e.1 f e.2)
          { newFunction with paramRef := nf.parametersRefs } (updates api objs) = .ok (t, none) ∧
        spec = (t.writeSpec sort ord nf).2 := by
    unfold written updateSpec
    cases hrun : Fallible.untilError (fun f e => e.1 f e.2)
        { newFunction with paramRef := nf.parametersRefs } (updates api objs) with
    | error p => exact ⟨fun h => (by cases h), fun ⟨_, h, _⟩ => (by cases h)⟩
    | ok x =>
      obtain ⟨t, _ | err⟩ := x
      · constructor
        · intro h
          exact ⟨t, rfl, (Except.ok.inj (Except.ok.inj h)).symm⟩
        · rintro ⟨t', ht', rfl⟩
          cases ht'
          rfl
      · exact ⟨fun h => (by cases h), fun ⟨_, h, _⟩ => (by cases h)⟩
  rw [hwritten]
  constructor
  · rintro ⟨t, ht, rfl⟩
    obtain ⟨cs, hcs, h⟩ := updates_iff.mp ht
    obtain ⟨hacc, rfl⟩ := foldlM_apply_iff.mp h
    exact ⟨cs, hcs, hacc, rfl⟩
  · rintro ⟨cs, hcs, hacc, rfl⟩
    exact ⟨_, updates_iff.mpr ⟨cs, hcs, foldlM_apply_iff.mpr ⟨hacc, rfl⟩⟩, rfl⟩

/-- A call returns an object exactly when it reads, computes and writes a spec. -/
theorem returns_iff {f : NfDeployFn Q} {obj : KubeObject V} {objs out : List (KubeObject V)} :
    (∃ f', f.updateResourceFn api sort ord (some obj) objs = .ok (f', .ok out)) ↔
      ∃ nf spec obj', api.nfDeployment obj = .ok nf ∧
        written api sort ord f nf objs = .ok (.ok spec) ∧
        api.setSpec obj spec = .ok obj' ∧ out = [obj'] := by
  unfold updateResourceFn written
  simp only
  cases hnf : api.nfDeployment obj with
  | error err => exact ⟨fun ⟨_, h⟩ => (by cases h), fun ⟨_, _, _, h, _⟩ => (by cases h)⟩
  | ok nf =>
    simp only [Except.ok.injEq]
    cases hrun : f.updateSpec api sort ord nf objs with
    | error p =>
      constructor
      · rintro ⟨_, h⟩
        cases h
      · rintro ⟨_, _, _, rfl, h, -⟩
        rw [hrun] at h
        cases h
    | ok x =>
      obtain ⟨f', res⟩ := x
      constructor
      · rintro ⟨_, h⟩
        have hres : (res >>= fun spec => api.setSpec obj spec >>= fun o => pure [o]) = .ok out :=
          (Prod.mk.inj (Except.ok.inj h)).2
        obtain ⟨spec, rfl, hspec⟩ := Fallible.bind_eq_ok.mp hres
        obtain ⟨obj', hset, hout⟩ := Fallible.bind_eq_ok.mp hspec
        exact ⟨nf, spec, obj', rfl, by rw [hrun]; rfl, hset, (Except.ok.inj hout).symm⟩
      · rintro ⟨_, spec, obj', rfl, h, hset, rfl⟩
        rw [hrun] at h
        cases Except.ok.inj h
        refine ⟨f', congrArg Except.ok (Prod.ext rfl ?_)⟩
        show (api.setSpec obj spec >>= fun o => pure [o]) = _
        rw [hset]
        rfl

/-! ## The changes of each child -/

theorem mapM_id_eq_some_iff {α : Type} {rs : List (Option (List α))} {css : List (List α)} :
    rs.mapM id = some css ↔ (∀ r ∈ rs, r.isSome) ∧ css = rs.map (·.getD []) := by
  induction rs generalizing css with
  | nil =>
    rw [and_iff_right nofun, eq_comm]
    exact Option.some_inj
  | cons r rs ih =>
    rw [List.mapM_cons, List.forall_mem_cons, List.map_cons]
    cases r with
    | none => exact ⟨nofun, fun h => absurd h.1.1 (by simp)⟩
    | some cs =>
      simp only [id, Option.bind_eq_bind, Option.bind_some, Option.bind_eq_some_iff, ih]
      constructor
      · rintro ⟨css', ⟨hall, rfl⟩, h⟩
        exact ⟨⟨rfl, hall⟩, (Option.some.inj h).symm⟩
      · rintro ⟨⟨-, hall⟩, rfl⟩
        exact ⟨_, ⟨hall, rfl⟩, rfl⟩

theorem changes_eq_some_iff {objs : List (KubeObject V)} {cs : List (Change Q)} :
    changes api objs = some cs ↔
      (∀ r ∈ readings api objs, r.isSome) ∧ cs = (readings api objs).flatMap (·.getD []) := by
  rw [changes, Option.map_eq_some_iff]
  constructor
  · rintro ⟨css, hcss, rfl⟩
    obtain ⟨hall, rfl⟩ := mapM_id_eq_some_iff.mp hcss
    exact ⟨hall, rfl⟩
  · rintro ⟨hall, rfl⟩
    exact ⟨_, mapM_id_eq_some_iff.mpr ⟨hall, rfl⟩, rfl⟩

/-- What a child brings, with the name of its network instance. -/
def attachment (api : Api V Q) (o : KubeObject V) : List (String × InterfaceConfig) :=
  configs ((readInterface api o).getD [])

@[inherit_doc attachment]
def pooling (api : Api V Q) (o : KubeObject V) : List (String × DataNetwork) :=
  networks ((readDataNetwork api o).getD [])

section Children

theorem readCapacity_cases (o : KubeObject V) :
    readCapacity api o = none ∨ ∃ q, readCapacity api o = some [.capacity q] := by
  unfold readCapacity
  cases api.capacity o with
  | error err => exact .inl rfl
  | ok q => exact .inr ⟨q, rfl⟩

theorem readDataNetwork_cases (o : KubeObject V) :
    readDataNetwork api o = none ∨ readDataNetwork api o = some [] ∨
      ∃ dnn name, readDataNetwork api o = some [.dataNetwork dnn name] ∧ dnn.name = some o.name := by
  unfold readDataNetwork
  cases api.dataNetwork o with
  | error err => exact .inl rfl
  | ok read =>
    simp only [Except.toOption, Option.map_some]
    cases read.2.pools with
    | none => exact .inr (.inl rfl)
    | some pools => exact .inr (.inr ⟨_, _, rfl, rfl⟩)

theorem readInterface_cases (o : KubeObject V) :
    readInterface api o = none ∨ readInterface api o = some [] ∨
      ∃ config name, readInterface api o = some [.interface config name] ∧ config.name = o.name := by
  unfold readInterface
  cases api.interface o with
  | error err => exact .inl rfl
  | ok read =>
    simp only [Except.toOption, Option.bind_eq_bind, Option.bind_some]
    split
    · exact .inl rfl
    · split
      next ipClaims vlanClaim _ _ =>
        cases ipClaims.foldlM (addresses api) (none, none) with
        | error err => exact .inl rfl
        | ok ips =>
          cases read.1.networkInstance with
          | none => exact .inl rfl
          | some networkInstance => exact .inr (.inr ⟨_, _, rfl, rfl⟩)
      next => exact .inr (.inl rfl)

theorem readDependency_cases (o : KubeObject V) :
    readDependency api o = none ∨ ∃ refs, readDependency api o = some [.dependency refs] := by
  unfold readDependency
  cases api.dependency o with
  | error err => exact .inl rfl
  | ok status => exact .inr ⟨_, rfl⟩

/-- A child brings nothing but what its kind is for. -/
theorem parts_readCapacity (o : KubeObject V) :
    networks ((readCapacity api o).getD []) = [] ∧ configs ((readCapacity api o).getD []) = [] ∧
      references ((readCapacity api o).getD []) = [] := by
  rcases @readCapacity_cases _ _ api o with hr | ⟨q, hr⟩ <;> rw [hr] <;> exact ⟨rfl, rfl, rfl⟩

@[inherit_doc parts_readCapacity]
theorem parts_readDataNetwork (o : KubeObject V) :
    capacities ((readDataNetwork api o).getD []) = [] ∧
      configs ((readDataNetwork api o).getD []) = [] ∧
      references ((readDataNetwork api o).getD []) = [] := by
  rcases @readDataNetwork_cases _ _ api o with hr | hr | ⟨dnn, name, hr, -⟩ <;> rw [hr] <;>
    exact ⟨rfl, rfl, rfl⟩

@[inherit_doc parts_readCapacity]
theorem parts_readInterface (o : KubeObject V) :
    capacities ((readInterface api o).getD []) = [] ∧
      networks ((readInterface api o).getD []) = [] ∧
      references ((readInterface api o).getD []) = [] := by
  rcases @readInterface_cases _ _ api o with hr | hr | ⟨config, name, hr, -⟩ <;> rw [hr] <;>
    exact ⟨rfl, rfl, rfl⟩

@[inherit_doc parts_readCapacity]
theorem parts_readDependency (o : KubeObject V) :
    capacities ((readDependency api o).getD []) = [] ∧
      networks ((readDependency api o).getD []) = [] ∧
      configs ((readDependency api o).getD []) = [] := by
  rcases @readDependency_cases _ _ api o with hr | ⟨refs, hr⟩ <;> rw [hr] <;> exact ⟨rfl, rfl, rfl⟩

variable {objs : List (KubeObject V)} {cs : List (Change Q)}

theorem part_flatMap {γ ι : Type} {part : List (Change Q) → List γ} (hnil : part [] = [])
    (happend : ∀ xs ys, part (xs ++ ys) = part xs ++ part ys) (xs : List ι)
    (g : ι → List (Change Q)) : part (xs.flatMap g) = xs.flatMap fun x => part (g x) := by
  induction xs with
  | nil => exact hnil
  | cons x xs ih => rw [List.flatMap_cons, happend, ih, List.flatMap_cons]

/-- A part of the changes, put together from the children of each kind. -/
theorem part_changes {γ : Type} (part : List (Change Q) → List γ) (hnil : part [] = [])
    (happend : ∀ xs ys, part (xs ++ ys) = part xs ++ part ys) (h : changes api objs = some cs) :
    part cs =
      (whereKind "Capacity" objs).flatMap (fun o => part ((readCapacity api o).getD [])) ++
      (whereKind "DataNetwork" objs).flatMap (fun o => part ((readDataNetwork api o).getD [])) ++
      (whereKind "Interface" objs).flatMap (fun o => part ((readInterface api o).getD [])) ++
      (whereKind "Dependency" objs).flatMap fun o => part ((readDependency api o).getD []) := by
  obtain ⟨-, rfl⟩ := changes_eq_some_iff.mp h
  simp only [readings, List.flatMap_append, List.flatMap_map, happend, part_flatMap hnil happend]

theorem flatMap_eq_nil {α β : Type} (l : List α) : (l.flatMap fun _ => ([] : List β)) = [] :=
  List.flatMap_eq_nil_iff.mpr fun _ _ => rfl

variable (h : changes api objs = some cs)

include h

theorem capacities_changes :
    capacities cs =
      (whereKind "Capacity" objs).flatMap fun o => capacities ((readCapacity api o).getD []) := by
  rw [part_changes capacities rfl (fun _ _ => List.filterMap_append) h]
  simp only [parts_readDataNetwork, parts_readInterface, parts_readDependency, flatMap_eq_nil,
    List.append_nil]

theorem networks_changes : networks cs = (whereKind "DataNetwork" objs).flatMap (pooling api) := by
  rw [part_changes networks rfl (fun _ _ => List.filterMap_append) h]
  simp only [parts_readCapacity, parts_readInterface, parts_readDependency, flatMap_eq_nil,
    List.append_nil, List.nil_append]
  rfl

theorem configs_changes : configs cs = (whereKind "Interface" objs).flatMap (attachment api) := by
  rw [part_changes configs rfl (fun _ _ => List.filterMap_append) h]
  simp only [parts_readCapacity, parts_readDataNetwork, parts_readDependency, flatMap_eq_nil,
    List.append_nil, List.nil_append]
  rfl

theorem references_changes :
    references cs =
      (whereKind "Dependency" objs).flatMap fun o => references ((readDependency api o).getD []) := by
  rw [part_changes references rfl (fun _ _ => List.flatMap_append) h]
  simp only [parts_readCapacity, parts_readDataNetwork, parts_readInterface, flatMap_eq_nil,
    List.nil_append]

end Children

end Nephio.NfDeployFn
