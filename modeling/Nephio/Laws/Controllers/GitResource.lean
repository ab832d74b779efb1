import Nephio.Controllers.GitResource

/-!
# Laws.Controllers.GitResource: what a Reconcile does outside the custom resources

The git server changes by `delete` or by `ensure` of the resource of the request, and by nothing else
(`rest_reconcile`). A Reconcile sets the condition to Ready where `ensure` succeeds. When the resource
has a deletion timestamp and no call fails, the finalizer goes where `delete` succeeds
(`finalizer_removed_iff`).
-/

namespace Nephio.Controllers.GitResource

/-- What happens to the servers: a Reconcile, or a change of the custom resources by their users. -/
inductive Action (S K : Type) where
  | reconcile (call : Call K)
  | users (resources : List (Resource S)) (nodup : (Keyed.keys Resource.key resources).Nodup)

def step {S G K : Type} (actions : Actions S G K) (w : World S G) : Action S K → World S G
  | .reconcile call => (reconcile actions call w).world
  | .users resources nodup => { w with resources := resources, nodup := nodup }

variable {S G K : Type} {actions : Actions S G K} {call : Call K} {w : World S G}
  {cr : Resource S}

theorem key_of_get {key : ObjectKey} (h : w.get key = some cr) : cr.key = key :=
  Keyed.key_of_lookup Resource.key h

theorem get_put (cr : Resource S) : (w.put cr).get cr.key = some cr := by
  show Keyed.lookup Resource.key cr.key (Keyed.upsert Resource.key cr w.resources) = _
  rw [Keyed.lookup_upsert, if_pos rfl]

theorem get_remove (key : ObjectKey) : (w.remove key).get key = none := by
  show Keyed.lookup Resource.key key (Keyed.drop Resource.key key w.resources) = _
  rw [Keyed.lookup_drop, if_pos rfl]

/-! ## The rest of the world -/

@[simp] theorem rest_update (reply : Reply) (cr : Resource S) : (w.update reply cr).2.rest = w.rest := by
  unfold World.update
  split
  · rfl
  · simp only
    split_ifs <;> rfl

@[simp] theorem rest_updateStatus (reply : Reply) (cr : Resource S) :
    (w.updateStatus reply cr).2.rest = w.rest := by
  unfold World.updateStatus
  split
  · rfl
  · simp only
    split_ifs <;> rfl

@[simp] theorem rest_finish (result : Result) (cr : Resource S) :
    (finish call result cr w).world.rest = w.rest := rest_updateStatus _ _

@[simp] theorem rest_addFinalizer (reply : Reply) (cr : Resource S) :
    (addFinalizer reply cr w).2.2.rest = w.rest := by
  unfold addFinalizer
  split
  · rfl
  · exact rest_update _ _

@[simp] theorem key_addFinalizer (reply : Reply) (cr : Resource S) :
    (addFinalizer reply cr w).2.1.key = cr.key := by
  unfold addFinalizer
  split <;> rfl

@[simp] theorem rest_removeFinalizer (reply : Reply) (cr : Resource S) :
    (removeFinalizer reply cr w).2.2.rest = w.rest := by
  unfold removeFinalizer
  split_ifs
  · rfl
  · exact rest_update _ _

theorem rest_reconcileDeleted (cr : Resource S) :
    (reconcileDeleted actions call cr w).world.rest =
      if cr.deletionPolicy = .delete then (actions.delete call.calls cr w.rest).2 else w.rest := by
  have hdeleted : (if cr.deletionPolicy = .delete then actions.delete call.calls cr w.rest
      else (none, w.rest)).2 =
        if cr.deletionPolicy = .delete then (actions.delete call.calls cr w.rest).2 else w.rest := by
    split_ifs <;> rfl
  unfold reconcileDeleted
  simp only
  split
  · exact (rest_finish _ _).trans hdeleted
  · split
    · exact ((rest_finish _ _).trans (rest_removeFinalizer _ _)).trans hdeleted
    · exact (rest_removeFinalizer _ _).trans hdeleted

theorem rest_reconcilePresent (cr : Resource S) :
    (reconcilePresent actions call cr w).world.rest = w.rest ∨
      ∃ cr', cr'.key = cr.key ∧ (reconcilePresent actions call cr w).world.rest =
        (actions.ensure call.calls cr' w.rest).2 := by
  unfold reconcilePresent
  simp only [rest_addFinalizer]
  split
  · left
    rw [rest_finish, rest_addFinalizer]
  · right
    refine ⟨(addFinalizer call.update cr w).2.1, key_addFinalizer call.update cr, ?_⟩
    split
    · exact rest_finish _ _
    · exact rest_finish _ _

/-- **What a Reconcile does to the rest.** -/
theorem rest_reconcile (actions : Actions S G K) (call : Call K) (w : World S G) :
    (reconcile actions call w).world.rest = w.rest ∨
      ∃ cr, cr.key = call.req ∧
        ((reconcile actions call w).world.rest = (actions.delete call.calls cr w.rest).2 ∨
          (reconcile actions call w).world.rest = (actions.ensure call.calls cr w.rest).2) := by
  unfold reconcile
  split
  · exact Or.inl rfl
  · split
    · exact Or.inl rfl
    next cr hget =>
      have hkey := key_of_get hget
      split_ifs
      · exact Or.inl (rest_finish _ _)
      · rw [rest_reconcileDeleted]
        split_ifs
        · exact Or.inr ⟨cr, hkey, Or.inl rfl⟩
        · exact Or.inl rfl
      · rcases @rest_reconcilePresent S G K actions call w cr with hrest | ⟨cr', hkey', hrest⟩
        · exact Or.inl hrest
        · exact Or.inr ⟨cr', hkey'.trans hkey, Or.inr hrest⟩

/-! ## Ready -/

theorem ready_finish (result : Result) (cr : Resource S) (condition : ReadyCondition) :
    (finish call result (cr.setCondition condition) w).ready = decide (condition = .ready) := by
  simp only [finish, Resource.setCondition, Option.some.injEq]

theorem ready_reconcileDeleted (cr : Resource S) :
    (reconcileDeleted actions call cr w).ready = false := by
  unfold reconcileDeleted
  simp only
  split
  · rw [ready_finish]
    rfl
  · split
    · rw [ready_finish]
      rfl
    · rfl

theorem ready_reconcilePresent (h : (reconcilePresent actions call cr w).ready = true) :
    ∃ cr₀ cr', cr₀.key = cr.key ∧ (actions.ensure call.calls cr₀ w.rest).1 = .ok cr' ∧
      (reconcilePresent actions call cr w).world.rest =
        (actions.ensure call.calls cr₀ w.rest).2 := by
  unfold reconcilePresent at h ⊢
  simp only [rest_addFinalizer] at h ⊢
  split at h
  next =>
    rw [ready_finish] at h
    cases h
  next =>
    refine ⟨(addFinalizer call.update cr w).2.1, ?_⟩
    split at h
    next =>
      rw [ready_finish] at h
      cases h
    next cr' hensured =>
      refine ⟨cr', key_addFinalizer call.update cr, hensured, ?_⟩
      exact rest_finish _ _

/-- A Reconcile that sets the condition to Ready has ensured the object. -/
theorem ready_reconcile (h : (reconcile actions call w).ready = true) :
    ∃ cr cr', cr.key = call.req ∧ (actions.ensure call.calls cr w.rest).1 = .ok cr' ∧
      (reconcile actions call w).world.rest = (actions.ensure call.calls cr w.rest).2 := by
  unfold reconcile at h ⊢
  split at h
  next => cases h
  next =>
    split at h
    next => cases h
    next cr hget =>
      split_ifs at h ⊢ with hinitialized hdeleting
      · rw [ready_finish] at h
        cases h
      · rw [ready_reconcileDeleted] at h
        cases h
      · obtain ⟨cr₀, cr', hkey, hensured, hrest⟩ := ready_reconcilePresent h
        exact ⟨cr₀, cr', hkey.trans (key_of_get hget), hensured, hrest⟩

/-! ## The finalizer -/

/-- No call to the API server fails, and the git client is initialized. -/
structure Call.Clean (call : Call K) : Prop where
  get : call.get = none
  isInitialized : call.isInitialized = true
  update : call.update = .done

/-- The finalizer has been removed: the resource is gone, or does not have it. -/
def World.Released (w : World S G) (key : ObjectKey) : Prop :=
  ∀ cr, w.get key = some cr → finalizerExists cr = false

theorem finalizerExists_removeFinalizer (cr : Resource S) :
    finalizerExists cr.removeFinalizer = false := by
  simp only [finalizerExists, Resource.removeFinalizer, List.contains_eq_mem, List.mem_filter,
    ne_eq, decide_not, decide_true, Bool.not_true, Bool.false_eq_true, and_false, decide_false]

theorem released_iff {key : ObjectKey} (hget : w.get key = some cr) :
    w.Released key ↔ finalizerExists cr = false := by
  constructor
  · exact fun h => h cr hget
  · intro h cr' hcr'
    rw [← Option.some.inj (hget.symm.trans hcr')]
    exact h

theorem released_removeFinalizer (hget : w.get cr.key = some cr) :
    (removeFinalizer .done cr w).1 = none ∧
      (removeFinalizer .done cr w).2.2.Released cr.key := by
  unfold removeFinalizer
  cases hexists : finalizerExists cr with
  | false => exact ⟨rfl, (released_iff hget).mpr hexists⟩
  | true =>
    simp only [Bool.not_true, Bool.false_eq_true, if_false]
    have hget' : w.get cr.removeFinalizer.key = some cr := hget
    unfold World.update
    rw [hget']
    simp only [Reply.error, Reply.applied, if_true]
    refine ⟨rfl, ?_⟩
    split_ifs
    · intro cr' hcr'
      rw [show cr.key = cr.removeFinalizer.key from rfl, get_remove] at hcr'
      cases hcr'
    · exact (released_iff (@get_put S G w cr.removeFinalizer)).mpr
        (finalizerExists_removeFinalizer cr)

/-- An update of the status keeps the finalizers. -/
theorem released_finish_iff (hget : w.get cr.key = some cr) (result : Result)
    (condition : ReadyCondition) :
    (finish call result (cr.setCondition condition) w).world.Released cr.key ↔
      finalizerExists cr = false := by
  have hget' : w.get (cr.setCondition condition).key = some cr := hget
  unfold finish World.updateStatus
  rw [hget']
  simp only
  split_ifs
  · have hstatus := released_iff (@get_put S G w
      { cr with condition := (cr.setCondition condition).condition
                url := (cr.setCondition condition).url })
    exact hstatus
  · exact released_iff hget

/-- **When a Reconcile without a failure of the API server removes the finalizer** of a resource that
is being deleted. -/
theorem finalizer_removed_iff (hclean : call.Clean) (hget : w.get call.req = some cr)
    (hdeleting : cr.deleting = true) :
    (reconcile actions call w).world.Released call.req ↔
      finalizerExists cr = false ∨ cr.deletionPolicy ≠ .delete ∨
        (actions.delete call.calls cr w.rest).1 = none := by
  have hkey := key_of_get hget
  have hreconcile : reconcile actions call w = reconcileDeleted actions call cr w := by
    unfold reconcile
    simp only [hclean.get, hget, hclean.isInitialized, hdeleting, Bool.not_true,
      Bool.false_eq_true, if_false, if_true]
  rw [hreconcile, ← hkey]
  rw [← hkey] at hget
  unfold reconcileDeleted
  simp only [hclean.update]
  -- the custom resources are those of `w`, whatever the rest is
  have hgetRest : ∀ rest : G, ({ w with rest := rest } : World S G).get cr.key = some cr :=
    fun _ => hget
  have hreleased := fun rest => released_removeFinalizer (hgetRest rest)
  by_cases hpolicy : cr.deletionPolicy = .delete
  · simp only [hpolicy, if_true, ne_eq, not_true, false_or]
    cases herr : (actions.delete call.calls cr w.rest).1 with
    | some err =>
      simp only [reduceCtorEq, or_false]
      exact released_finish_iff (hgetRest _) _ _
    | none =>
      simp only [(hreleased _).1]
      exact iff_of_true (hreleased _).2 (Or.inr trivial)
  · simp only [hpolicy, if_false, (hreleased _).1]
    exact iff_of_true (hreleased _).2 (Or.inr (Or.inl hpolicy))

end Nephio.Controllers.GitResource
