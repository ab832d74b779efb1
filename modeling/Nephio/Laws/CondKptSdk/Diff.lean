import Nephio.Data.Loops
import Nephio.Laws.CondKptSdk.Populate

/-!
# Laws.CondKptSdk.Diff: the diff, child by child

The diff of a for-instance is the concatenation of the deltas of its children (`diff_eq_ok`), and a
delta puts its child into each list at most once (`about_childDelta`). So what the diff makes the
sdk do with one child is what the child's delta says.
-/

namespace Nephio.CondKptSdk

variable {V : Type}

namespace InventoryDiff

/-- The lists of the deltas one after the other. -/
def join (ds : List (InventoryDiff V)) : InventoryDiff V where
  deleteForCondition := ds.any deleteForCondition
  updateForCondition := ds.any updateForCondition
  deleteObjs := ds.flatMap deleteObjs
  updateObjs := ds.flatMap updateObjs
  createObjs := ds.flatMap createObjs
  deleteConditions := ds.flatMap deleteConditions
  createConditions := ds.flatMap createConditions
  updateDeleteAnnotations := ds.flatMap updateDeleteAnnotations

theorem foldl_append (d : InventoryDiff V) (ds : List (InventoryDiff V)) :
    ds.foldl (· ++ ·) d = d ++ join ds := by
  induction ds generalizing d with
  | nil =>
    change d = InventoryDiff.append d (join [])
    simp only [InventoryDiff.append, join, List.any_nil, Bool.or_false, List.flatMap_nil,
      List.append_nil]
  | cons e ds ih =>
    rw [List.foldl_cons, ih]
    change InventoryDiff.append (InventoryDiff.append d e) (join ds) =
      InventoryDiff.append d (join (e :: ds))
    simp only [InventoryDiff.append, join, List.any_cons, Bool.or_assoc, List.flatMap_cons,
      List.append_assoc]

theorem foldl_append_empty (ds : List (InventoryDiff V)) : ds.foldl (· ++ ·) {} = join ds := by
  rw [foldl_append]
  change InventoryDiff.append {} (join ds) = join ds
  simp only [InventoryDiff.append, Bool.false_or, List.nil_append]

end InventoryDiff

variable [DecidableEq V]

/-- What one child adds to the diff; nothing where its turn panics. -/
def childDelta (ready : Bool) (forRes : ResourceCtx V) (ref : ObjectReference)
    (res : ResourceCtx V) : InventoryDiff V :=
  match diffChild ready forRes ref res with
  | .ok d => d
  | .error _ => {}

theorem diffChild_eq_ok {ready : Bool} {forRes res : ResourceCtx V} {ref : ObjectReference}
    {d : InventoryDiff V} (h : diffChild ready forRes ref res = .ok d) :
    diffChild ready forRes ref res = .ok (childDelta ready forRes ref res) := by
  unfold childDelta
  rw [h]

/-- The diff of one for-instance. -/
def forDelta (ord : Order) (inv : Inv V) (F : ObjectReference) (forRes : ResourceCtx V) :
    InventoryDiff V :=
  .join ((ord.range (.diffOwn F) (inv.get .ownGVKKind [F, {}])).map fun e =>
    childDelta inv.ready forRes e.1 e.2)

/-- No turn of the diff panics. -/
def Inv.DiffCompletes (inv : Inv V) : Prop :=
  ∀ e ∈ inv.get .forGVKKind [{}], ∀ c ∈ inv.get .ownGVKKind [e.1, {}],
    ∃ d, diffChild inv.ready e.2 c.1 c.2 = .ok d

theorem diff_of_completes {ord : Order} {inv : Inv V} (h : inv.DiffCompletes) :
    inv.diff ord = .ok ((ord.range .diff (inv.get .forGVKKind [{}])).map fun e =>
      (e.1, forDelta ord inv e.1 e.2)) := by
  refine Fallible.mapM_eq_ok_map fun e he => ?_
  have hfor : diffFor inv.ready e.2 (ord.range (.diffOwn e.1) (inv.get .ownGVKKind [e.1, {}])) =
      .ok (forDelta ord inv e.1 e.2) := by
    have hchildren : ∀ c ∈ ord.range (.diffOwn e.1) (inv.get .ownGVKKind [e.1, {}]),
        diffChild inv.ready e.2 c.1 c.2 = .ok (childDelta inv.ready e.2 c.1 c.2) := by
      intro c hc
      obtain ⟨d, hd⟩ := h e ((ord.perm _ _).mem_iff.mp he) c ((ord.perm _ _).mem_iff.mp hc)
      exact diffChild_eq_ok hd
    refine Fallible.bind_eq_ok.mpr ⟨_, Fallible.mapM_eq_ok_map hchildren, ?_⟩
    rw [InventoryDiff.foldl_append_empty]
    rfl
  exact Fallible.bind_eq_ok.mpr ⟨_, hfor, rfl⟩

theorem completes_of_diff {ord : Order} {inv : Inv V}
    {ds : List (ObjectReference × InventoryDiff V)} (h : inv.diff ord = .ok ds) :
    inv.DiffCompletes := by
  intro e he c hc
  obtain ⟨y, hy⟩ := Fallible.forall_of_mapM_eq_ok h e ((ord.perm _ _).mem_iff.mpr he)
  obtain ⟨d, hd, -⟩ := Fallible.bind_eq_ok.mp hy
  obtain ⟨ys, hys, -⟩ := Fallible.bind_eq_ok.mp hd
  exact Fallible.forall_of_mapM_eq_ok hys c ((ord.perm _ _).mem_iff.mpr hc)

/-- **The diff**, when it completes: for each for-instance, the deltas of its children. -/
theorem diff_eq_ok {ord : Order} {inv : Inv V} {ds : List (ObjectReference × InventoryDiff V)} :
    inv.diff ord = .ok ds ↔ inv.DiffCompletes ∧
      ds = (ord.range .diff (inv.get .forGVKKind [{}])).map fun e =>
        (e.1, forDelta ord inv e.1 e.2) := by
  constructor
  · intro h
    have hcompletes := completes_of_diff h
    refine ⟨hcompletes, ?_⟩
    rw [diff_of_completes hcompletes] at h
    exact (Except.ok.inj h).symm
  · rintro ⟨hcompletes, rfl⟩
    exact diff_of_completes hcompletes

/-! ## The delta of a child -/

/-- Both specs are readable, and they differ. -/
def specsDiffer : Option V → Option V → Bool
  | some a, some b => a ≠ b
  | _, _ => false

/-- The child exists and is wanted with another spec; children of remote conditions are not
compared. -/
def specChanged (res : ResourceCtx V) : Bool :=
  match res.existingResource, res.newResource with
  | some existing, some new =>
    res.ownKind ≠ some .childRemoteCondition && specsDiffer existing.spec new.spec
  | _, _ => false

omit [DecidableEq V] in
/-- The child exists marked for deletion and is wanted again, and the diff gets to see it. -/
def unmarks (res : ResourceCtx V) : Bool :=
  match res.existingResource, res.newResource with
  | some existing, some new =>
    res.ownKind ≠ some .childRemoteCondition && existing.spec.isSome && new.spec.isSome &&
      existing.marked
  | _, _ => false

/-- Something about the child is not as it should be: its condition, its object, or what is in it. -/
def changed (res : ResourceCtx V) : Bool :=
  !(res.newResource.isSome && res.existingCondition.isSome) ||
    res.existingResource.isSome != res.newResource.isSome || specChanged res || unmarks res

/-- The delta of a child whose for-instance is in the package. -/
def presentDelta (ready : Bool) (fc : Option Condition) (ref : ObjectReference)
    (res : ResourceCtx V) : InventoryDiff V where
  updateForCondition := notFalse fc && changed res
  createConditions :=
    if res.existingCondition.isNone && (ready || res.newResource.isSome) then [⟨ref, res.ownKind⟩]
    else []
  deleteConditions :=
    if res.existingCondition.isSome && res.newResource.isNone && !keptKind res.ownKind then
      [⟨ref, res.ownKind⟩]
    else []
  createObjs :=
    if res.existingResource.isNone then
      res.newResource.toList.map fun o => ⟨⟨ref, res.ownKind⟩, o⟩
    else []
  updateObjs :=
    if specChanged res then res.newResource.toList.map fun o => ⟨⟨ref, res.ownKind⟩, o⟩ else []
  deleteObjs :=
    if res.newResource.isNone && !keptKind res.ownKind then
      res.existingResource.toList.map fun o => ⟨⟨ref, res.ownKind⟩, o⟩
    else []
  updateDeleteAnnotations :=
    if unmarks res then res.newResource.toList.map fun o => ⟨⟨ref, res.ownKind⟩, o⟩ else []

omit [DecidableEq V] in
theorem InventoryDiff.append_eq (d e : InventoryDiff V) : d ++ e = InventoryDiff.append d e := rfl

/-- The part of the turn that looks at the object. -/
theorem diffResource_eq (fc : Option Condition) (ref : ObjectReference) (res : ResourceCtx V) :
    diffResource fc ref res =
      if unmarks res ∧ fc = none then .error .nilPointer
      else .ok
        { updateForCondition := notFalse fc &&
            (res.existingResource.isSome != res.newResource.isSome || specChanged res ||
              unmarks res)
          createObjs := (presentDelta false fc ref res).createObjs
          updateObjs := (presentDelta false fc ref res).updateObjs
          deleteObjs := (presentDelta false fc ref res).deleteObjs
          updateDeleteAnnotations := (presentDelta false fc ref res).updateDeleteAnnotations } := by
  cases her : res.existingResource with
  | none =>
    cases hnr : res.newResource with
    | none => simp [diffResource, presentDelta, unmarks, specChanged, her, hnr]
    | some new => simp [diffResource, presentDelta, unmarks, specChanged, her, hnr]
  | some existing =>
    cases hnr : res.newResource with
    | none =>
      cases hkept : keptKind res.ownKind <;>
        simp [diffResource, presentDelta, unmarks, specChanged, her, hnr, hkept]
    | some new =>
      by_cases hkind : res.ownKind = some .childRemoteCondition
      · simp [diffResource, diffSpec, presentDelta, unmarks, specChanged, her, hnr, hkind]
      · cases hes : existing.spec with
        | none => simp [diffResource, diffSpec, presentDelta, unmarks, specChanged, specsDiffer,
            her, hnr, hkind, hes]
        | some existingSpec =>
          cases hns : new.spec with
          | none => simp [diffResource, diffSpec, presentDelta, unmarks, specChanged, specsDiffer,
              her, hnr, hkind, hes, hns]
          | some newSpec =>
            by_cases hspec : existingSpec = newSpec <;> cases hmark : existing.marked <;>
              cases fc <;>
              simp [diffResource, diffSpec, presentDelta, unmarks, specChanged, specsDiffer, her,
                hnr, hkind, hes, hns, hspec, hmark, notFalse, InventoryDiff.append_eq, InventoryDiff.append]

/-- The turn of a child whose for-instance is in the package. -/
theorem diffChild_present {ready : Bool} {forRes : ResourceCtx V} {forObj : KubeObject V}
    (hfor : forRes.existingResource = some forObj) (ref : ObjectReference) (res : ResourceCtx V) :
    diffChild ready forRes ref res =
      if unmarks res ∧ forRes.existingCondition = none then .error .nilPointer
      else .ok (presentDelta ready forRes.existingCondition ref res) := by
  simp only [diffChild, hfor, diffResource_eq]
  split_ifs
  · rfl
  · refine congrArg Except.ok ?_
    cases hec : res.existingCondition <;> cases hnr : res.newResource <;>
      cases hkept : keptKind res.ownKind <;> cases hnf : notFalse forRes.existingCondition <;>
      simp [diffCondition, presentDelta, changed, hec, hnr, hkept, hnf, InventoryDiff.append_eq,
        InventoryDiff.append]

omit [DecidableEq V] in
/-- The turn of a child whose for-instance is not in the package. -/
theorem diffChild_absent [DecidableEq V] {ready : Bool} {forRes : ResourceCtx V}
    (hfor : forRes.existingResource = none) (ref : ObjectReference) (res : ResourceCtx V) :
    diffChild ready forRes ref res = .ok (diffOrphan ref res) := by
  simp only [diffChild, hfor]

theorem childDelta_present {ready : Bool} {forRes : ResourceCtx V} {forObj : KubeObject V}
    (hfor : forRes.existingResource = some forObj) {ref : ObjectReference} {res : ResourceCtx V}
    (hok : ¬(unmarks res ∧ forRes.existingCondition = none)) :
    childDelta ready forRes ref res = presentDelta ready forRes.existingCondition ref res := by
  rw [childDelta, diffChild_present hfor, if_neg hok]

theorem childDelta_absent {ready : Bool} {forRes : ResourceCtx V}
    (hfor : forRes.existingResource = none) (ref : ObjectReference) (res : ResourceCtx V) :
    childDelta ready forRes ref res = diffOrphan ref res := by
  rw [childDelta, diffChild_absent hfor]

/-- **When the diff panics**: a wanted child is marked for deletion, and its for-instance, which is
in the package, has no condition. -/
theorem diffChild_ok_iff {ready : Bool} {forRes res : ResourceCtx V} {ref : ObjectReference} :
    (∃ d, diffChild ready forRes ref res = .ok d) ↔
      ¬(forRes.existingResource.isSome ∧ forRes.existingCondition = none ∧ unmarks res) := by
  cases hfor : forRes.existingResource with
  | none =>
    refine iff_of_true ⟨_, diffChild_absent hfor ref res⟩ ?_
    rintro ⟨h, -⟩
    cases h
  | some forObj =>
    rw [diffChild_present hfor]
    split_ifs with h
    · refine iff_of_false ?_ (not_not_intro ⟨rfl, h.2, h.1⟩)
      rintro ⟨d, hd⟩
      cases hd
    · refine iff_of_true ⟨_, rfl⟩ ?_
      rintro ⟨-, hnone, hunmarks⟩
      exact h ⟨hunmarks, hnone⟩

/-! ## Each list holds a child at most once -/

omit [DecidableEq V] in
/-- Every list of a delta holds its child only, and at most once. -/
structure InventoryDiff.About (ref : ObjectReference) (d : InventoryDiff V) : Prop where
  createConditions : (d.createConditions.map Child.ref).Sublist [ref]
  deleteConditions : (d.deleteConditions.map Child.ref).Sublist [ref]
  createObjs : (d.createObjs.map fun o => o.ref).Sublist [ref]
  updateObjs : (d.updateObjs.map fun o => o.ref).Sublist [ref]
  deleteObjs : (d.deleteObjs.map fun o => o.ref).Sublist [ref]
  updateDeleteAnnotations : (d.updateDeleteAnnotations.map fun o => o.ref).Sublist [ref]

omit [DecidableEq V] in
theorem sublist_ite_child (p : Prop) [Decidable p] (ref : ObjectReference)
    (kind : Option ResourceKind) :
    ((if p then [(⟨ref, kind⟩ : Child)] else []).map Child.ref).Sublist [ref] := by
  split_ifs
  · exact List.Sublist.refl _
  · exact List.nil_sublist _

omit [DecidableEq V] in
theorem sublist_ite_object (p : Prop) [Decidable p] (ref : ObjectReference)
    (kind : Option ResourceKind) (o : Option (KubeObject V)) :
    ((if p then o.toList.map fun o => (⟨⟨ref, kind⟩, o⟩ : Object V) else []).map
      fun o => o.ref).Sublist [ref] := by
  split_ifs
  · cases o with
    | none => exact List.nil_sublist _
    | some o => exact List.Sublist.refl _
  · exact List.nil_sublist _

theorem about_presentDelta (ready : Bool) (fc : Option Condition) (ref : ObjectReference)
    (res : ResourceCtx V) : (presentDelta ready fc ref res).About ref :=
  ⟨sublist_ite_child _ ref _, sublist_ite_child _ ref _, sublist_ite_object _ ref _ _,
    sublist_ite_object _ ref _ _, sublist_ite_object _ ref _ _, sublist_ite_object _ ref _ _⟩

omit [DecidableEq V] in
theorem about_diffOrphan (ref : ObjectReference) (res : ResourceCtx V) :
    (diffOrphan ref res).About ref := by
  refine ⟨List.nil_sublist _, sublist_ite_child _ ref _, List.nil_sublist _, List.nil_sublist _, ?_,
    List.nil_sublist _⟩
  simp only [diffOrphan]
  split
  · split_ifs
    · exact List.Sublist.refl _
    · exact List.nil_sublist _
  · exact List.nil_sublist _

omit [DecidableEq V] in
theorem InventoryDiff.about_empty (ref : ObjectReference) : ({} : InventoryDiff V).About ref :=
  ⟨List.nil_sublist _, List.nil_sublist _, List.nil_sublist _, List.nil_sublist _,
    List.nil_sublist _, List.nil_sublist _⟩

theorem about_childDelta (ready : Bool) (forRes : ResourceCtx V) (ref : ObjectReference)
    (res : ResourceCtx V) : (childDelta ready forRes ref res).About ref := by
  cases hfor : forRes.existingResource with
  | none =>
    rw [childDelta_absent hfor]
    exact about_diffOrphan ref res
  | some forObj =>
    rw [childDelta, diffChild_present hfor]
    split_ifs
    · exact InventoryDiff.about_empty ref
    · exact about_presentDelta ready _ ref res

end Nephio.CondKptSdk
