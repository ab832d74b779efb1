import Nephio.Laws.CondKptSdk.Answers

/-!
# Laws.CondKptSdk.Ready: when a for-instance is ready

`getReadyMap` looks for a condition that is missing or False. A status that is neither True nor False
passes it, and so does every watch of a for-instance that has no condition: `ready_iff_done_iff` says
that nothing else is overlooked.
-/

namespace Nephio.CondKptSdk

variable {V : Type}

/-- The path of a watch that is filed under a for-instance. -/
def specificWatchPath (F ref : ObjectReference) : List SdkObjectReference :=
  [⟨.forGVKKind, F⟩, ⟨.watchGVKKind, ref⟩]

/-- The status of the condition of a resource. -/
def ResourceCtx.status (res : ResourceCtx V) : Option ConditionStatus :=
  res.existingCondition.map Condition.status

namespace Inv

/-- A watch of a for-instance that owns it: the reason of the for condition is the watch. -/
def IsOwner (inv : Inv V) (F ref : ObjectReference) : Prop :=
  ∃ c, (inv.resources.ctxAt (forPath F)).existingCondition = some c ∧
    getConditionType ref = c.reason

/-- Every child of a for-instance is done, and so is every watch but its owner. -/
def Done (inv : Inv V) (F : ObjectReference) : Prop :=
  (∀ ref res, inv.resources.find (ownPath F ref) = some res →
    res.status = some .conditionTrue) ∧
  ∀ ref res, inv.resources.find (specificWatchPath F ref) = some res → ¬ inv.IsOwner F ref →
    res.status = some .conditionTrue

/-- A child or a watch that `getReadyMap` sees is not done. -/
def HeldBack (inv : Inv V) (F : ObjectReference) : Prop :=
  (∃ ref res, inv.resources.find (ownPath F ref) = some res ∧
    (res.status = none ∨ res.status = some .conditionFalse)) ∨
  ∃ ref res, inv.resources.find (specificWatchPath F ref) = some res ∧
    (res.status = none ∨ res.status = some .conditionFalse) ∧ ¬ inv.IsOwner F ref ∧
      (inv.resources.ctxAt (forPath F)).status.isSome

/-- A child or a watch that `getReadyMap` does not see is not done: its status is Unknown, or it is a
watch of a for-instance without a condition. -/
def Overlooks (inv : Inv V) (F : ObjectReference) : Prop :=
  (∃ ref res, inv.resources.find (ownPath F ref) = some res ∧
    res.status = some .conditionUnknown) ∨
  ∃ ref res, inv.resources.find (specificWatchPath F ref) = some res ∧
    res.status ≠ some .conditionTrue ∧ ¬ inv.IsOwner F ref ∧
      (res.status = some .conditionUnknown ∨ (inv.resources.ctxAt (forPath F)).status = none)

end Inv

theorem pending_iff {res : ResourceCtx V} :
    pending res = true ↔ res.status = none ∨ res.status = some .conditionFalse := by
  unfold pending ResourceCtx.status
  cases res.existingCondition with
  | none => exact iff_of_true rfl (Or.inl rfl)
  | some c =>
    simp only [decide_eq_true_eq, Option.map_some, reduceCtorEq, Option.some.injEq, false_or]

theorem status_cases (res : ResourceCtx V) :
    res.status = some .conditionTrue ∨ res.status = some .conditionUnknown ∨
      pending res = true := by
  rw [pending_iff]
  cases res.status with
  | none => exact Or.inr (Or.inr (Or.inl rfl))
  | some status => cases status <;> simp only [reduceCtorEq, Option.some.injEq, or_true, true_or]

section Ready

variable {inv : Inv V} {F : ObjectReference}

theorem watchPending_iff {ref : ObjectReference} {res : ResourceCtx V} :
    watchPending (inv.resources.ctxAt (forPath F)) ref res = true ↔
      pending res = true ∧ ¬ inv.IsOwner F ref ∧
        (inv.resources.ctxAt (forPath F)).status.isSome := by
  unfold watchPending Inv.IsOwner ResourceCtx.status
  rw [Bool.and_eq_true]
  refine and_congr_right fun _ => ?_
  cases (inv.resources.ctxAt (forPath F)).existingCondition with
  | none => simp only [Bool.false_eq_true, Option.map_none, Option.isSome_none, and_false]
  | some c =>
    simp only [ne_eq, decide_not, Bool.not_eq_true', decide_eq_false_iff_not, Option.some.injEq,
      exists_eq_left', Option.map_some, Option.isSome_some, and_true]

theorem mem_existingObjects {m : List (ObjectReference × ResourceCtx V)} {ref : ObjectReference}
    {o : KubeObject V} :
    (ref, o) ∈ existingObjects m ↔ ∃ res, (ref, res) ∈ m ∧ res.existingResource = some o := by
  unfold existingObjects
  rw [List.mem_filterMap]
  constructor
  · rintro ⟨⟨ref', res⟩, hmem, hres⟩
    obtain ⟨o', ho', heq⟩ := Option.map_eq_some_iff.mp hres
    cases heq
    exact ⟨res, hmem, ho'⟩
  · rintro ⟨res, hmem, hres⟩
    exact ⟨(ref, res), hmem, by rw [hres]; rfl⟩

variable (hnd : inv.resources.KeysNodup 2) (hF : F ≠ {})

include hnd hF

/-- A for-instance is ready where nothing that is seen holds it back. -/
theorem ready_iff_not_heldBack : (inv.readyCtxOf F).ready = true ↔ ¬ inv.HeldBack F := by
  have hown : ∀ ref res, (ref, res) ∈ inv.get .ownGVKKind [F, {}] ↔
      inv.resources.find (ownPath F ref) = some res :=
    fun _ _ => Inv.mem_get_under hnd (k := .ownGVKKind) nofun hF
  have hwatch : ∀ ref res, (ref, res) ∈ inv.get .watchGVKKind [F, {}] ↔
      inv.resources.find (specificWatchPath F ref) = some res :=
    fun _ _ => Inv.mem_get_under hnd (k := .watchGVKKind) nofun hF
  show ((_ : List _).all _ && (_ : List _).all _) = true ↔ _
  rw [Bool.and_eq_true, List.all_eq_true, List.all_eq_true, Inv.HeldBack, not_or]
  refine and_congr ?_ ?_
  · constructor
    · rintro hall ⟨ref, res, hres, hpending⟩
      have hnot := hall (ref, res) ((hown ref res).mpr hres)
      rw [pending_iff.mpr hpending] at hnot
      cases hnot
    · rintro hnone ⟨ref, res⟩ hmem
      rw [Bool.not_eq_true', ← Bool.not_eq_true]
      exact fun hpending => hnone ⟨ref, res, (hown ref res).mp hmem, pending_iff.mp hpending⟩
  · constructor
    · rintro hall ⟨ref, res, hres, hpending, hrest⟩
      have hnot := hall (ref, res) ((hwatch ref res).mpr hres)
      rw [watchPending_iff.mpr ⟨pending_iff.mpr hpending, hrest⟩] at hnot
      cases hnot
    · rintro hnone ⟨ref, res⟩ hmem
      rw [Bool.not_eq_true', ← Bool.not_eq_true]
      intro hpending
      obtain ⟨hpending, hrest⟩ := watchPending_iff.mp hpending
      exact hnone ⟨ref, res, (hwatch ref res).mp hmem, pending_iff.mp hpending, hrest⟩

omit hnd hF in
/-- What is not done is either seen or overlooked. -/
theorem not_done_iff : ¬ inv.Done F ↔ inv.HeldBack F ∨ inv.Overlooks F := by
  constructor
  · intro hdone
    by_contra hnone
    rw [not_or] at hnone
    refine hdone ⟨fun ref res hres => ?_, fun ref res hres howner => ?_⟩
    · rcases status_cases res with htrue | hunknown | hpending
      · exact htrue
      · exact absurd (Or.inl ⟨ref, res, hres, hunknown⟩) hnone.2
      · exact absurd (Or.inl ⟨ref, res, hres, pending_iff.mp hpending⟩) hnone.1
    · by_contra htrue
      -- whether the for-instance has a condition decides which of the two it is
      rcases status_cases res with h | hunknown | hpending
      · exact htrue h
      · exact hnone.2 (Or.inr ⟨ref, res, hres, htrue, howner, Or.inl hunknown⟩)
      · cases hfor : (inv.resources.ctxAt (forPath F)).status with
        | none => exact hnone.2 (Or.inr ⟨ref, res, hres, htrue, howner, Or.inr hfor⟩)
        | some status =>
          exact hnone.1 (Or.inr ⟨ref, res, hres, pending_iff.mp hpending, howner, by
            rw [hfor]; rfl⟩)
  · rintro ((⟨ref, res, hres, hstatus⟩ | ⟨ref, res, hres, hstatus, howner, -⟩) |
      (⟨ref, res, hres, hstatus⟩ | ⟨ref, res, hres, hstatus, howner, -⟩)) hdone
    · rcases hstatus with h | h <;> exact absurd ((hdone.1 ref res hres).symm.trans h) nofun
    · rcases hstatus with h | h <;> exact absurd ((hdone.2 ref res hres howner).symm.trans h) nofun
    · exact absurd ((hdone.1 ref res hres).symm.trans hstatus) nofun
    · exact hstatus (hdone.2 ref res hres howner)

/-- The entry of the ready map for a for-instance: it holds the objects that are filed under it, and
it is ready exactly where everything is done, unless the only things that are not done are overlooked.
`corev1.ObjectReference{}` is the wildcard of the tree and names no for-instance. -/
theorem ready_iff_done_iff {ctx : ReadyCtx V} (hctx : (F, ctx) ∈ inv.getReadyMap) :
    ((ctx.ready = true ↔ inv.Done F) ∧
      (∀ ref o, (ref, o) ∈ ctx.owns ↔
        ∃ res, inv.resources.find (ownPath F ref) = some res ∧ res.existingResource = some o) ∧
      ∀ ref o, (ref, o) ∈ ctx.watches ↔
        ∃ res, inv.resources.find (specificWatchPath F ref) = some res ∧
          res.existingResource = some o) ↔
    (inv.Overlooks F → inv.HeldBack F) := by
  obtain ⟨-, rfl⟩ := (mem_getReadyMap_iff hnd).mp hctx
  have howns : ∀ ref o, (ref, o) ∈ (inv.readyCtxOf F).owns ↔
      ∃ res, inv.resources.find (ownPath F ref) = some res ∧ res.existingResource = some o := by
    intro ref o
    refine mem_existingObjects.trans (exists_congr fun res => and_congr_left fun _ => ?_)
    exact Inv.mem_get_under hnd (k := .ownGVKKind) nofun hF
  have hwatches : ∀ ref o, (ref, o) ∈ (inv.readyCtxOf F).watches ↔
      ∃ res, inv.resources.find (specificWatchPath F ref) = some res ∧
        res.existingResource = some o := by
    intro ref o
    refine mem_existingObjects.trans (exists_congr fun res => and_congr_left fun _ => ?_)
    exact Inv.mem_get_under hnd (k := .watchGVKKind) nofun hF
  have hready : ((inv.readyCtxOf F).ready = true ↔ inv.Done F) ↔
      (inv.HeldBack F ↔ inv.HeldBack F ∨ inv.Overlooks F) := by
    rw [ready_iff_not_heldBack hnd hF, ← not_done_iff, not_iff_comm]
    exact iff_comm
  rw [and_iff_left ⟨howns, hwatches⟩, hready, iff_self_or]

end Ready

/-- An inventory with one for-instance, one child and one watch. -/
def inventoryOf (forCondition own watch : Option Condition) : Inv Unit where
  gvkResources := []
  resources := .node {} [(⟨.forGVKKind, { kind := "For", name := "f" }⟩,
    .node { existingCondition := forCondition }
      [(⟨.ownGVKKind, { kind := "Own", name := "o" }⟩, .node { existingCondition := own } []),
       (⟨.watchGVKKind, { kind := "Watch", name := "w" }⟩,
          .node { existingCondition := watch } [])])]

/-- A condition that has only a status. -/
def ofStatus (status : ConditionStatus) : Option Condition :=
  some { type := "", status := status }

theorem keysNodup_inventoryOf (forCondition own watch : Option Condition) :
    (inventoryOf forCondition own watch).resources.KeysNodup 2 := by
  simp only [inventoryOf, Resources.KeysNodup, Resources.resources, Keyed.keys, List.map_cons,
    List.map_nil, List.mem_cons, List.not_mem_nil, or_false, forall_eq_or_imp,
    forall_eq, and_true]
  decide

theorem false_child_not_done :
    ¬ (inventoryOf (ofStatus .conditionTrue) (ofStatus .conditionFalse)
      (ofStatus .conditionTrue)).Done { kind := "For", name := "f" } := by
  intro hdone
  have hnd := keysNodup_inventoryOf (ofStatus .conditionTrue) (ofStatus .conditionFalse)
    (ofStatus .conditionTrue)
  have hready := ((ready_iff_done_iff hnd (by decide)
    ((mem_getReadyMap_iff hnd).mpr ⟨rfl, rfl⟩)).mpr fun _ =>
      Or.inl ⟨{ kind := "Own", name := "o" }, _, rfl, Or.inr rfl⟩).1.mpr hdone
  exact absurd hready (by decide)

/-- A child that is Unknown, and a watch that is False where the for condition is missing, do not hold
the for-instance back. -/
theorem unknown_or_unset_ready :
    ((inventoryOf (ofStatus .conditionTrue) (ofStatus .conditionUnknown)
        (ofStatus .conditionTrue)).getReadyMap.map fun e => e.2.ready) = [true] ∧
    ((inventoryOf none (ofStatus .conditionTrue)
        (ofStatus .conditionFalse)).getReadyMap.map fun e => e.2.ready) = [true] := by
  decide

end Nephio.CondKptSdk
