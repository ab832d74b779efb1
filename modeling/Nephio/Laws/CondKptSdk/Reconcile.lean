import Nephio.Laws.CondKptSdk.Package

/-!
# Laws.CondKptSdk.Reconcile: the package after stage 1

Stage 1 on a documented package whose global watches succeed. It completes unless the diff panics
(`stage1_ok_iff`), and then every condition, item and inventory entry is what the views of the
package say: `lookup_stage1_own`, `items_stage1_own` and `entry_stage1_own` for a child that belongs
to one for-instance, `lookup_stage1_for` and `entry_stage1_for` for a for-instance, and the rest is
as it was.
-/

namespace Nephio.CondKptSdk

variable {V : Type}

namespace Sdk

/-! ## The script of stage 1 -/

theorem populateChildren_of_none {cfg : Config V} (h : cfg.populateOwnResourcesFn = none)
    (ord : Order) (r : Sdk V) : r.populateChildren cfg ord = r := by
  have hstep : ∀ (l : List (ObjectReference × ResourceCtx V)) (r : Sdk V),
      l.foldl (fun r e => populateFor cfg r e.1 e.2) r = r := by
    intro l
    induction l with
    | nil => exact fun r => rfl
    | cons e l ih =>
      intro r
      have hfor : populateFor cfg r e.1 e.2 = r := by simp only [populateFor, h]
      rw [List.foldl_cons, hfor, ih]
  exact hstep _ r

theorem stage1_eq [DecidableEq V] (cfg : Config V) (ord : Order) {r : Sdk V}
    (hready : r.inv.ready = true) :
    r.stage1 cfg ord = (r.populateChildren cfg.populating ord).updateChildren ord := by
  unfold stage1 Config.populating
  rw [hready]
  cases cfg.owns.isEmpty with
  | true =>
    simp only [Bool.not_true, Bool.and_false, Bool.false_eq_true, if_false, if_true]
    rw [populateChildren_of_none rfl]
  | false => rfl

/-- `Run` up to the end of stage 1. -/
def upToStage1 [DecidableEq V] (cfg : Config V) (ord : Order) (r : Sdk V) :
    Except Go.Panic (Sdk V) :=
  match r.populateInventory cfg with
  | .error err =>
    .ok (r.failForConditions cfg ("stage1: cannot populate inventory, err: " ++ err))
  | .ok r => (r.runWatches cfg ord).stage1 cfg ord

/-- No callback of a global watch fails. -/
def WatchesSucceed (cfg : Config V) (ord : Order) (r : Sdk V) : Prop :=
  ((r.filed cfg).callGlobalWatches ord).2 = none

instance {cfg : Config V} {ord : Order} {r : Sdk V} : Decidable (r.WatchesSucceed cfg ord) :=
  inferInstanceAs (Decidable (_ = _))

theorem runWatches_of_succeed {cfg : Config V} {ord : Order} {r : Sdk V}
    (h : r.WatchesSucceed cfg ord) : (r.filed cfg).runWatches cfg ord = r.filed cfg := by
  have hcall : (r.filed cfg).callGlobalWatches ord = (r.filed cfg, none) := by
    unfold WatchesSucceed at h
    unfold callGlobalWatches at h ⊢
    dsimp only at h ⊢
    split at h
    · rfl
    · cases h
  unfold runWatches
  rw [hcall]

theorem upToStage1_filed [DecidableEq V] (cfg : Config V) (ord : Order) (r : Sdk V) :
    r.upToStage1 cfg ord = ((r.filed cfg).runWatches cfg ord).stage1 cfg ord := by
  unfold upToStage1
  rw [populateInventory_filed]

theorem upToStage1_eq [DecidableEq V] {cfg : Config V} {ord : Order} {r : Sdk V}
    (h : r.WatchesSucceed cfg ord) : r.upToStage1 cfg ord = (r.filed cfg).stage1 cfg ord := by
  rw [upToStage1_filed, runWatches_of_succeed h]

/-- The diff panics for no child: a wanted child that is marked for deletion has a for-instance with
a condition. -/
def NoPanic (cfg : Config V) (r : Sdk V) : Prop :=
  ∀ F ref, r.Owns F ref ∨ r.Wants cfg F ref → unmarks (r.childCtx cfg F ref) →
    (r.conditionOf F).isSome

instance {cfg : Config V} {r : Sdk V} : Decidable (r.NoPanic cfg) :=
  decidable_of_iff (∀ e ∈ r.family cfg, unmarks (r.childCtx cfg e.1 e.2) →
      (r.conditionOf e.1).isSome)
    ⟨fun h F ref hown => h (F, ref) (mem_family.mpr hown),
      fun h e he => h e.1 e.2 (mem_family.mp he)⟩

section Stage1

variable [DecidableEq V] {cfg : Config V} {ord : Order} {r : Sdk V} (hfresh : r.inv.Fresh cfg)
  (hdoc : r.Documented cfg)

omit [DecidableEq V] in
/-- A child that is to be unmarked is wanted, so `PopulateOwnResourcesFn` answered. -/
theorem wanted_of_unmarks {F ref : ObjectReference} (h : unmarks (r.childCtx cfg F ref)) :
    ∃ objs, r.wanted cfg F = .ok objs ∧ (r.forObj F).isSome := by
  have hnew : (r.wantedObj cfg F ref).isSome := by
    by_contra hnone
    rw [unmarks_eq_false (Or.inr (Option.not_isSome_iff_eq_none.mp hnone))] at h
    cases h
  obtain ⟨obj, hobj, -⟩ := isSome_wantedObj.mp hnew
  obtain ⟨o, ho⟩ := exists_forObj_of_mem_wantedObjs hobj
  unfold wantedObjs at hobj
  cases hwanted : r.wanted cfg F with
  | ok objs => exact ⟨objs, rfl, by rw [ho]; rfl⟩
  | error err =>
    rw [hwanted] at hobj
    cases hobj

omit hdoc in
include hfresh in
theorem stage1_filed : (r.filed cfg).stage1 cfg ord =
    ((r.filed cfg).populateChildren cfg.populating ord).updateChildren ord := by
  have hready : (r.filed cfg).inv.ready = true := hfresh.ready
  exact stage1_eq cfg ord hready

omit [DecidableEq V] hdoc hfresh in
/-- The inventory that the diff of stage 1 reads. -/
theorem inv_populateChildren :
    ((r.filed cfg).populateChildren cfg.populating ord).inv = stage1Inv cfg ord r :=
  (populateChildren_writes cfg.populating ord (r.filed cfg)).inv

omit [DecidableEq V] hdoc in
include hfresh in
theorem ready_populateChildren :
    ((r.filed cfg).populateChildren cfg.populating ord).inv.ready = true := by
  rw [inv_populateChildren]
  exact hfresh.ready

include hfresh hdoc

theorem diffCompletes_iff : (stage1Inv cfg ord r).DiffCompletes ↔ r.NoPanic cfg := by
  have hchild : ∀ F ref, (r.Owns F ref ∨ r.Wants cfg F ref) →
      ((∃ d, diffChild (stage1Inv cfg ord r).ready (r.forCtx cfg F) ref (r.childCtx cfg F ref) =
        .ok d) ↔ (unmarks (r.childCtx cfg F ref) → (r.conditionOf F).isSome)) := by
    intro F ref _
    rw [diffChild_ok_iff]
    constructor
    · intro h hunmarks
      obtain ⟨objs, hwanted, hobj⟩ := wanted_of_unmarks hunmarks
      by_contra hnone
      refine h ⟨hobj, ?_, hunmarks⟩
      simp only [forCtx, hwanted]
      exact Option.not_isSome_iff_eq_none.mp hnone
    · rintro h ⟨-, hnone, hunmarks⟩
      obtain ⟨objs, hwanted, -⟩ := wanted_of_unmarks hunmarks
      simp only [forCtx, hwanted] at hnone
      have hsome := h hunmarks
      rw [hnone] at hsome
      cases hsome
  have hkeys : (stage1Inv cfg ord r).resources.KeysNodup 2 := keysNodup_stage1Inv hfresh
  constructor
  · intro h F ref hown
    have hsome : ((stage1Inv cfg ord r).resources.find (ownPath F ref)).isSome :=
      (isSome_stage1_own hfresh).mpr hown
    have hfor := (isSome_stage1_for hfresh).mp (isSome_for_of_own hsome)
    refine (hchild F ref hown).mp (h (F, _) ((Inv.mem_get_top hkeys (k := .forGVKKind) (by decide)).mpr
      ((find_stage1_for hfresh hdoc).mpr ⟨hfor, rfl⟩)) (ref, _) ?_)
    exact (Inv.mem_get_under hkeys (k := .ownGVKKind) (by decide)
      (role_ne_empty hfresh (ForInstance.role hfresh hfor))).mpr
      ((find_stage1_own hfresh).mpr ⟨hown, rfl⟩)
  · rintro h ⟨F, forRes⟩ hmem ⟨ref, res⟩ hmem'
    obtain ⟨hfor, rfl⟩ := (find_stage1_for hfresh hdoc).mp
      ((Inv.mem_get_top hkeys (k := .forGVKKind) (by decide)).mp hmem)
    obtain ⟨hown, rfl⟩ := (find_stage1_own hfresh).mp ((Inv.mem_get_under hkeys (k := .ownGVKKind)
      (by decide) (role_ne_empty hfresh (ForInstance.role hfresh hfor))).mp hmem')
    exact (hchild F ref hown).mpr (h F ref hown)

variable (ord) in
/-- The script of stage 1. -/
theorem stage1_writes (hpanic : r.NoPanic cfg) :
    ∃ r₁, (r.filed cfg).stage1 cfg ord = .ok r₁ ∧
      Writes (populateScript cfg.populating ord (r.filed cfg).inv ++
        readyScript ord (stage1Inv cfg ord r)) (r.filed cfg) r₁ := by
  have hpop := populateChildren_writes cfg.populating ord (r.filed cfg)
  have hcompletes : ((r.filed cfg).populateChildren cfg.populating ord).inv.DiffCompletes := by
    rw [inv_populateChildren]
    exact (diffCompletes_iff hfresh hdoc).mpr hpanic
  obtain ⟨r₁, hr₁, hw⟩ := updateChildren_ready ord (ready_populateChildren hfresh) hcompletes
    (hpop.nodup hdoc.types)
  refine ⟨r₁, ?_, hpop.trans (inv_populateChildren ▸ hw)⟩
  rw [stage1_filed hfresh]
  exact hr₁

variable (ord) in
/-- **When stage 1 completes.** -/
theorem stage1_ok_iff : (∃ r₁, (r.filed cfg).stage1 cfg ord = .ok r₁) ↔ r.NoPanic cfg := by
  constructor
  · rintro ⟨r₁, h⟩
    rw [stage1_filed hfresh] at h
    obtain ⟨ds, hds, -⟩ := Fallible.bind_eq_ok.mp h
    rw [inv_populateChildren] at hds
    exact (diffCompletes_iff hfresh hdoc).mp (completes_of_diff hds)
  · intro h
    obtain ⟨r₁, hr₁, -⟩ := stage1_writes ord hfresh hdoc h
    exact ⟨r₁, hr₁⟩

end Stage1

/-! ## The edits of `populateChildren` -/

/-- What `populateChildren` does to the condition of a for-instance. -/
def populateEdits (cfg : Config V) (r : Sdk V) (F : ObjectReference) : List ConditionEdit :=
  match r.wanted cfg F with
  | .error err => [.put (forCondition F (populateFailedMsg err) .conditionFalse)]
  | .ok objs => objs.flatMap fun obj => (populateChildScript r.inv F obj).conditions

theorem target_populateChildScript {inv : Inv V} {F : ObjectReference} {obj : KubeObject V}
    {e : ConditionEdit} (h : e ∈ (populateChildScript inv F obj).conditions) :
    ∃ msg, e = failEdit F msg := by
  unfold populateChildScript at h
  split at h
  · exact ⟨_, List.mem_singleton.mp h⟩
  · split at h
    · cases h
    · exact ⟨_, List.mem_singleton.mp h⟩

section PopulateEdits

variable {cfg : Config V} {ord : Order} {r : Sdk V} (hfresh : r.inv.Fresh cfg)
  (hdoc : r.Documented cfg)

/-- An edit of `populateChildren` replaces the for condition, or fails it. -/
theorem mem_populateEdits {F : ObjectReference} {e : ConditionEdit}
    (h : e ∈ r.populateEdits cfg F) :
    (r.forObj F).isSome ∧ e.target = getConditionType F := by
  unfold populateEdits at h
  cases hwanted : r.wanted cfg F with
  | error err =>
    rw [hwanted] at h
    obtain ⟨o, ho⟩ := exists_forObj_of_wanted_error hwanted
    rw [List.mem_singleton.mp h, ho]
    exact ⟨rfl, rfl⟩
  | ok objs =>
    rw [hwanted] at h
    obtain ⟨obj, hobj, he⟩ := List.mem_flatMap.mp h
    obtain ⟨msg, rfl⟩ := target_populateChildScript he
    have hmem : obj ∈ r.wantedObjs cfg F := by
      unfold wantedObjs
      rw [hwanted]
      exact hobj
    obtain ⟨o, ho⟩ := exists_forObj_of_mem_wantedObjs hmem
    rw [ho]
    exact ⟨rfl, rfl⟩

/-- Every edit that `populateChildren` makes for a for-instance is at its condition. -/
theorem target_populateForScript {inv : Inv V} {F : ObjectReference} {res : ResourceCtx V}
    {e : ConditionEdit} (h : e ∈ (populateForScript cfg inv F res).conditions) :
    e.target = getConditionType F := by
  unfold populateForScript at h
  split at h
  · split at h
    · unfold setForScript at h
      split_ifs at h
      · rw [List.mem_singleton.mp h]
        rfl
      · cases h
    · obtain ⟨obj, -, h⟩ := List.mem_flatMap.mp h
      obtain ⟨msg, rfl⟩ := target_populateChildScript h
      rfl
  · cases h

include hfresh

theorem conditions_populateForScript {F : ObjectReference} (hF : r.ForInstance cfg F)
    (hnamed : ∀ o, r.forObj F = some o → F.Named) :
    (populateForScript cfg.populating (r.filed cfg).inv F
      ((r.filed cfg).inv.resources.ctxAt (forPath F))).conditions = r.populateEdits cfg F := by
  rw [populateForScript_eq, populated_filed hfresh (ForInstance.role hfresh hF), populateEdits]
  cases hwanted : r.wanted cfg F with
  | error err =>
    obtain ⟨o, ho⟩ := exists_forObj_of_wanted_error hwanted
    simp only [setForScript, hnamed o ho, if_true]
  | ok objs => rfl

/-- The edits at the condition of a for-instance are its own. -/
theorem populate_conditions_at_for {F : ObjectReference} (hF : r.ForInstance cfg F)
    (hnamed : F.Named) :
    (populateScript cfg.populating ord (r.filed cfg).inv).conditions.filter
      (fun e => e.target = getConditionType F) = r.populateEdits cfg F := by
  obtain ⟨res, hres⟩ := Option.isSome_iff_exists.mp ((isSome_filed_for hfresh).mpr hF)
  have hkeys := keysNodup_filed hfresh
  rw [populateScript, Script.conditions_flatMap, Keyed.filter_flatMap_of_key Prod.fst
    (nodup_range_for hkeys _) ((mem_range_for hkeys).mpr hres)]
  · rw [(Resources.find_eq_some_iff.mp hres).2,
      conditions_populateForScript hfresh hF fun _ _ => hnamed]
    exact List.filter_eq_self.mpr fun e he => decide_eq_true (mem_populateEdits he).2
  · rintro ⟨F', res'⟩ hmem hne e he
    rw [decide_eq_false_iff_not]
    intro heq
    have hfind := (mem_range_for hkeys).mp hmem
    have hF' : r.ForInstance cfg F' := (isSome_filed_for hfresh).mp (by rw [hfind]; rfl)
    exact hne (hfresh.eq_of_for (ForInstance.role hfresh hF') (ForInstance.role hfresh hF)
      ((target_populateForScript he).symm.trans heq))

include hdoc

theorem mem_conditions_populateScript {e : ConditionEdit}
    (h : e ∈ (populateScript cfg.populating ord (r.filed cfg).inv).conditions) :
    ∃ F, r.ForInstance cfg F ∧ e ∈ r.populateEdits cfg F := by
  obtain ⟨⟨F, res⟩, hmem, he⟩ := List.mem_flatMap.mp h
  have hfind := (mem_range_for (keysNodup_filed hfresh)).mp hmem
  have hF : r.ForInstance cfg F := (isSome_filed_for hfresh).mp (by rw [hfind]; rfl)
  refine ⟨F, hF, ?_⟩
  rw [← conditions_populateForScript hfresh hF fun o ho =>
    (hdoc.forObj ho (ForInstance.role hfresh hF)).named, ← (Resources.find_eq_some_iff.mp hfind).2]
  exact he

/-- A type that is not one of a for-instance keeps its condition in `populateChildren`. -/
theorem lookup_populate_other {t : String}
    (hfor : ∀ F, r.ForInstance cfg F → F.Documented → getConditionType F ≠ t) :
    Keyed.lookup Condition.type t
        (Keyed.applyAll (populateScript cfg.populating ord (r.filed cfg).inv).conditions
          r.kptfile.conditions) =
      Keyed.lookup Condition.type t r.kptfile.conditions := by
  refine Keyed.lookup_applyAll_of_forall_ne (fun e he => ?_) _
  obtain ⟨F, hF, he⟩ := mem_conditions_populateScript hfresh hdoc he
  obtain ⟨hobj, htarget⟩ := mem_populateEdits he
  obtain ⟨o, ho⟩ := Option.isSome_iff_exists.mp hobj
  rw [htarget]
  exact hfor F hF (hdoc.forObj ho (ForInstance.role hfresh hF))

omit hfresh hdoc in
theorem items_populateScript {inv : Inv V} : (populateScript cfg ord inv).items = [] := by
  have hchild : ∀ F obj, (populateChildScript inv F obj).items = [] := by
    intro F obj
    unfold populateChildScript
    split
    · rfl
    · split <;> rfl
  have hfor : ∀ F res, (populateForScript cfg inv F res).items = [] := by
    intro F res
    unfold populateForScript
    split
    · split
      · unfold setForScript
        split_ifs <;> rfl
      · exact List.flatMap_eq_nil_iff.mpr fun obj _ => hchild F obj
    · rfl
  exact List.flatMap_eq_nil_iff.mpr fun e _ => hfor e.1 e.2

end PopulateEdits

/-! ## The package after stage 1 -/

/-- No other for-instance has or wants a child. -/
def Only (cfg : Config V) (r : Sdk V) (F ref : ObjectReference) : Prop :=
  ∀ F', r.Owns F' ref ∨ r.Wants cfg F' ref → F' = F

/-- No two for-instances have or want the same child. -/
def Disjoint (cfg : Config V) (r : Sdk V) : Prop :=
  ∀ F F' ref, r.Owns F ref ∨ r.Wants cfg F ref → r.Owns F' ref ∨ r.Wants cfg F' ref → F = F'

instance {cfg : Config V} {r : Sdk V} : Decidable (r.Disjoint cfg) :=
  decidable_of_iff (∀ e ∈ r.family cfg, ∀ e' ∈ r.family cfg, e.2 = e'.2 → e.1 = e'.1) <| by
    constructor
    · intro h F F' ref hown hown'
      exact h (F, ref) (mem_family.mpr hown) (F', ref) (mem_family.mpr hown') rfl
    · rintro h ⟨F, ref⟩ he ⟨F', ref'⟩ he' heq
      obtain rfl : ref = ref' := heq
      exact h F F' ref (mem_family.mp he) (mem_family.mp he')

/-- The diff resets the condition of a for-instance. -/
def Resets [DecidableEq V] (cfg : Config V) (r : Sdk V) (F : ObjectReference) : Prop :=
  (r.forObj F).isSome ∧ notFalse (r.forCtx cfg F).existingCondition ∧
    ∃ ref, (r.Owns F ref ∨ r.Wants cfg F ref) ∧ changed (r.childCtx cfg F ref)

instance [DecidableEq V] {cfg : Config V} {r : Sdk V} {F : ObjectReference} :
    Decidable (r.Resets cfg F) :=
  decidable_of_iff ((r.forObj F).isSome ∧ notFalse (r.forCtx cfg F).existingCondition ∧
      ∃ e ∈ r.family cfg, e.1 = F ∧ changed (r.childCtx cfg F e.2)) <| by
    refine and_congr_right fun _ => and_congr_right fun _ => ?_
    constructor
    · rintro ⟨⟨F', ref⟩, he, rfl, hchanged⟩
      exact ⟨ref, mem_family.mp he, hchanged⟩
    · rintro ⟨ref, hown, hchanged⟩
      exact ⟨(F, ref), mem_family.mpr hown, rfl, hchanged⟩

section Views

variable {cfg : Config V} {ord : Order} {r : Sdk V} (hfresh : r.inv.Fresh cfg)
  (hdoc : r.Documented cfg)

include hfresh

theorem only_stage1Inv {F ref : ObjectReference} (honly : r.Only cfg F ref) :
    (stage1Inv cfg ord r).Only F ref :=
  fun F' h => honly F' ((isSome_stage1_own hfresh).mp h)

omit hfresh in
theorem Disjoint.only (hdisj : r.Disjoint cfg) {F ref : ObjectReference}
    (hown : r.Owns F ref ∨ r.Wants cfg F ref) : r.Only cfg F ref :=
  fun F' h => hdisj F' F ref h hown

theorem forInstance_of_own {F ref : ObjectReference} (h : r.Owns F ref ∨ r.Wants cfg F ref) :
    r.ForInstance cfg F := by
  have hsome : ((stage1Inv cfg .insertion r).resources.find (ownPath F ref)).isSome :=
    (isSome_stage1_own hfresh).mpr h
  exact (isSome_stage1_for hfresh).mp (isSome_for_of_own hsome)

include hdoc

/-- A for-instance and a child do not share a condition type. -/
theorem type_for_ne_own {F F' ref : ObjectReference} (hF : r.ForInstance cfg F)
    (hFdoc : F.Documented) (hown : r.Owns F' ref ∨ r.Wants cfg F' ref) :
    getConditionType F ≠ getConditionType ref := by
  have hinv : (stage1Inv cfg .insertion r).Documented := documented_stage1Inv hfresh hdoc
  exact hinv.type_for_ne_own ((isSome_stage1_for hfresh).mpr hF) hFdoc.named
    ((isSome_stage1_own hfresh).mpr hown)

omit hdoc in
theorem resets_stage1Inv [DecidableEq V] {F : ObjectReference} :
    resets (stage1Inv cfg ord r) F (r.forCtx cfg F) ↔ r.Resets cfg F := by
  unfold resets Resets
  refine and_congr_right fun _ => and_congr_right fun _ => exists_congr fun ref => ?_
  constructor
  · rintro ⟨res, hres, hchanged⟩
    obtain ⟨hown, rfl⟩ := (find_stage1_own hfresh).mp hres
    exact ⟨hown, hchanged⟩
  · rintro ⟨hown, hchanged⟩
    exact ⟨_, (find_stage1_own hfresh).mpr ⟨hown, rfl⟩, hchanged⟩

end Views

section After

variable [DecidableEq V] {cfg : Config V} {ord : Order} {r r₁ : Sdk V}
  (hfresh : r.inv.Fresh cfg) (hdoc : r.Documented cfg)
  (h : (r.filed cfg).stage1 cfg ord = .ok r₁)

include hfresh hdoc h

theorem noPanic_of_stage1 : r.NoPanic cfg := (stage1_ok_iff ord hfresh hdoc).mp ⟨r₁, h⟩

theorem writes_of_stage1 :
    Writes (populateScript cfg.populating ord (r.filed cfg).inv ++
      readyScript ord (stage1Inv cfg ord r)) (r.filed cfg) r₁ := by
  obtain ⟨r₂, hr₂, hw⟩ := stage1_writes ord hfresh hdoc (noPanic_of_stage1 hfresh hdoc h)
  rw [h] at hr₂
  rw [Except.ok.inj hr₂]
  exact hw

theorem inv_stage1 :
    r₁.inv = (stage1Inv cfg ord r).write (readyScript ord (stage1Inv cfg ord r)).tree := by
  rw [(writes_of_stage1 hfresh hdoc h).inv, Script.tree_append, ← Inv.write_write]
  rfl

theorem conditions_stage1 :
    r₁.kptfile.conditions = Keyed.applyAll (readyScript ord (stage1Inv cfg ord r)).conditions
      (Keyed.applyAll (populateScript cfg.populating ord (r.filed cfg).inv).conditions
        r.kptfile.conditions) := by
  rw [(writes_of_stage1 hfresh hdoc h).conditions, Script.conditions_append, Keyed.applyAll_append]
  rfl

theorem items_stage1 :
    r₁.items = Keyed.upsertAll KubeObject.id (readyScript ord (stage1Inv cfg ord r)).items
      r.items := by
  rw [(writes_of_stage1 hfresh hdoc h).items, Script.items_append, items_populateScript,
    List.nil_append]
  rfl

theorem diffCompletes_of_stage1 : (stage1Inv cfg ord r).DiffCompletes :=
  (diffCompletes_iff hfresh hdoc).mpr (noPanic_of_stage1 hfresh hdoc h)

theorem lookup_stage1_own {F ref : ObjectReference} (honly : r.Only cfg F ref)
    (hown : r.Owns F ref ∨ r.Wants cfg F ref) :
    Keyed.lookup Condition.type (getConditionType ref) r₁.kptfile.conditions =
      childOutcome F ref (r.forCtx cfg F) (r.childCtx cfg F ref)
        (Keyed.lookup Condition.type (getConditionType ref) r.kptfile.conditions) := by
  have hF := forInstance_of_own hfresh hown
  rw [conditions_stage1 hfresh hdoc h, lookup_ready_own (documented_stage1Inv hfresh hdoc)
    hfresh.ready (diffCompletes_of_stage1 hfresh hdoc h) (only_stage1Inv hfresh honly)
    ((find_stage1_for hfresh hdoc).mpr ⟨hF, rfl⟩) ((find_stage1_own hfresh).mpr ⟨hown, rfl⟩),
    lookup_populate_other hfresh hdoc]
  exact fun F' hF' hF'doc => type_for_ne_own hfresh hdoc hF' hF'doc hown

theorem lookup_stage1_other {t : String}
    (hfor : ∀ F, r.ForInstance cfg F → F.Documented → getConditionType F ≠ t)
    (hown : ∀ F ref, r.Owns F ref ∨ r.Wants cfg F ref → getConditionType ref ≠ t) :
    Keyed.lookup Condition.type t r₁.kptfile.conditions =
      Keyed.lookup Condition.type t r.kptfile.conditions := by
  rw [conditions_stage1 hfresh hdoc h, Keyed.lookup_applyAll_of_forall_ne,
    lookup_populate_other hfresh hdoc hfor]
  intro e he heq
  rcases target_readyScript (keysNodup_stage1Inv hfresh) he with ⟨F, hF, hnamed, htarget⟩ |
    ⟨F, ref, href, htarget⟩
  · have hFdoc := ((documented_stage1Inv hfresh hdoc).fors F hF hnamed).1
    exact hfor F ((isSome_stage1_for hfresh).mp hF) hFdoc (htarget.symm.trans heq)
  · exact hown F ref ((isSome_stage1_own hfresh).mp href) (htarget.symm.trans heq)

open scoped Classical in
theorem lookup_stage1_for {F : ObjectReference} (hF : r.ForInstance cfg F) (hFdoc : F.Documented) :
    Keyed.lookup Condition.type (getConditionType F) r₁.kptfile.conditions =
      if r.Resets cfg F then some (forCondition F "update for condition" .conditionFalse)
      else (r.populateEdits cfg F).foldl (fun held e => e.act held)
        (Keyed.lookup Condition.type (getConditionType F) r.kptfile.conditions) := by
  rw [conditions_stage1 hfresh hdoc h, lookup_ready_for (documented_stage1Inv hfresh hdoc)
    hfresh.ready (diffCompletes_of_stage1 hfresh hdoc h)
    ((find_stage1_for hfresh hdoc).mpr ⟨hF, rfl⟩) hFdoc.named, Keyed.lookup_applyAll,
    populate_conditions_at_for hfresh hF hFdoc.named]
  simp only [resets_stage1Inv hfresh]

theorem items_stage1_own {F ref : ObjectReference} (honly : r.Only cfg F ref)
    (hown : r.Owns F ref ∨ r.Wants cfg F ref) :
    r₁.items.filter (fun o => o.ref = ref) =
      Keyed.upsertAll KubeObject.id (childItem (r.forCtx cfg F) (r.childCtx cfg F ref)).toList
        (r.items.filter fun o => o.ref = ref) := by
  have hF := forInstance_of_own hfresh hown
  rw [items_stage1 hfresh hdoc h, items_ready_own (documented_stage1Inv hfresh hdoc)
    hfresh.ready (diffCompletes_of_stage1 hfresh hdoc h) (only_stage1Inv hfresh honly)
    ((find_stage1_for hfresh hdoc).mpr ⟨hF, rfl⟩) ((find_stage1_own hfresh).mpr ⟨hown, rfl⟩)]

theorem items_stage1_other {ref : ObjectReference}
    (hown : ∀ F, ¬(r.Owns F ref ∨ r.Wants cfg F ref)) :
    r₁.items.filter (fun o => o.ref = ref) = r.items.filter fun o => o.ref = ref := by
  rw [items_stage1 hfresh hdoc h, Keyed.filter_upsertAll _ ref_of_id, List.filter_eq_nil_iff.mpr]
  · rfl
  · intro o ho heq
    obtain ⟨F, hF⟩ := ref_of_mem_items (documented_stage1Inv hfresh hdoc) ho
    rw [of_decide_eq_true heq] at hF
    exact hown F ((isSome_stage1_own hfresh).mp hF)

open scoped Classical in
/-- The inventory's entry of a for-instance after stage 1. -/
theorem entry_stage1_for {F : ObjectReference} (hF : r.ForInstance cfg F) (hFdoc : F.Documented) :
    r₁.inv.resources.ctxAt (forPath F) =
      if r.Resets cfg F then
        { r.forCtx cfg F with
          failed := false
          existingCondition := some (forCondition F "update for condition" .conditionFalse) }
      else r.forCtx cfg F := by
  rw [inv_stage1 hfresh hdoc h, entry_ready_for (documented_stage1Inv hfresh hdoc) hfresh.ready
    (diffCompletes_of_stage1 hfresh hdoc h) ((find_stage1_for hfresh hdoc).mpr ⟨hF, rfl⟩)
    hFdoc.named]
  simp only [resets_stage1Inv hfresh]

/-- The inventory's entry of a child after stage 1. -/
theorem entry_stage1_own {F ref : ObjectReference} (hown : r.Owns F ref ∨ r.Wants cfg F ref) :
    (r₁.inv.resources.ctxAt (ownPath F ref)).existingCondition =
        childEntry F ref (r.forCtx cfg F) (r.childCtx cfg F ref) ∧
      (r₁.inv.resources.ctxAt (ownPath F ref)).existingResource =
        (childItem (r.forCtx cfg F) (r.childCtx cfg F ref)).or (r.ownedItem F ref) := by
  have hF := forInstance_of_own hfresh hown
  rw [inv_stage1 hfresh hdoc h]
  exact entry_ready_own (documented_stage1Inv hfresh hdoc) hfresh.ready
    (diffCompletes_of_stage1 hfresh hdoc h) ((find_stage1_for hfresh hdoc).mpr ⟨hF, rfl⟩)
    ((find_stage1_own hfresh).mpr ⟨hown, rfl⟩)

theorem isSome_stage1 (p : List SdkObjectReference) :
    (r₁.inv.resources.find p).isSome ↔ ((stage1Inv cfg ord r).resources.find p).isSome := by
  rw [inv_stage1 hfresh hdoc h]
  exact isSome_readyScript (keysNodup_stage1Inv hfresh) p

end After

end Sdk

end Nephio.CondKptSdk
