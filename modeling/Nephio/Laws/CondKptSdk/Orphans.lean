import Nephio.Laws.CondKptSdk.Desired
import Nephio.Laws.CondKptSdk.NotReady
import Nephio.Laws.CondKptSdk.Readiness

/-!
# Laws.CondKptSdk.Orphans: for-instances that are gone

A for-instance whose object is not in the package any more is known from its condition and from its
children. Its children are marked for deletion, whether the function is ready or not
(`orphans_collected`). Its own condition is to go as well; only the branch of `updateChildren` for a
function that is not ready does that (`vanished_forgotten_iff`), so a Root function that is ready
takes it for the condition of a for-instance it has.
-/

namespace Nephio.CondKptSdk

variable {V : Type}

/-! ## The condition of a for-instance that is gone -/

section Vanished

variable [DecidableEq V] {ord : Order} {inv : Inv V}

/-- The diff asks to delete the condition of a for-instance that is not in the package. -/
theorem absent_of_deleteForCondition {F : ObjectReference} {forRes : ResourceCtx V}
    (h : (forDelta ord inv F forRes).deleteForCondition) : forRes.existingResource = none := by
  simp only [forDelta_eq, InventoryDiff.join, List.any_map, List.any_eq_true,
    Function.comp_apply] at h
  obtain ⟨⟨ref, res⟩, -, hflag⟩ := h
  cases hfor : forRes.existingResource with
  | none => rfl
  | some forObj =>
    rw [childDelta, diffChild_present hfor] at hflag
    split_ifs at hflag
    cases hflag

end Vanished

namespace Sdk

/-- Neither the Kptfile nor the inventory holds a condition of a for-instance. -/
def Forgotten (r : Sdk V) (F : ObjectReference) : Prop :=
  r.kptfile.getCondition (getConditionType F) = none ∧
    (r.inv.resources.ctxAt (forPath F)).existingCondition = none

/-- A Root function for Interfaces that owns IP claims. -/
def rootClaimsConfig : Config Nat := { claimsConfig .childRemote claimsWanted with root := true }

/-- Interface `n3` is gone; its condition and a claim of it are still there. -/
def vanishedPackage : Sdk Nat where
  items := [owned (interfaceRef "n3") (ipClaimObj "n3-ipv4" (some 2))]
  kptfile := { conditions := [forCondition (interfaceRef "n3") "" .conditionTrue,
    ownCondition (interfaceRef "n3") (ipClaimRef "n3-ipv4") "" .conditionTrue] }
  inv := claimsInv .childRemote

/-- The inventory of a package, where a watch has failed. -/
def idled (r : Sdk V) (cfg : Config V) : Sdk V := { r.filed cfg with inv := r.idleInv cfg }

end Sdk

/-! ## The children of a for-instance that is gone -/

section Initial

variable [DecidableEq V] {ready : Bool} {forRes res : ResourceCtx V} {ref : ObjectReference}

/-- The sdk does not mark an initial child. -/
theorem deleteObjs_initial (hkind : res.ownKind = some .childInitial) :
    (childDelta ready forRes ref res).deleteObjs = [] := by
  cases hfor : forRes.existingResource with
  | none =>
    rw [childDelta_absent hfor]
    simp only [diffOrphan, hkind, ne_eq, not_true_eq_false, if_false]
    split <;> rfl
  | some forObj =>
    have hkept : keptKind (some .childInitial) = true := rfl
    rw [childDelta, diffChild_present hfor]
    split_ifs
    · rfl
    · simp only [presentDelta, hkind, hkept, Bool.not_true, Bool.and_false, Bool.false_eq_true,
        if_false]

/-- Nor does it write it in any other way. -/
theorem not_mem_written_initial (hkind : res.ownKind = some .childInitial)
    {s : ObjectReference × ChildStep V} (hs : s ∈ (childDelta ready forRes ref res).steps)
    (o : KubeObject V) : o ∉ s.2.written := by
  intro ho
  rcases written_steps hs ho with ⟨x, hx, hwritten, -⟩ | ⟨x, hx, -⟩
  · rw [(objs_childDelta.1 x hx).2, hkind] at hwritten
    cases hwritten
  · rw [deleteObjs_initial hkind] at hx
    cases hx

end Initial

namespace Sdk

section Collected

variable [DecidableEq V] {cfg : Config V} {ord : Order} {r r₁ : Sdk V}
  (hfresh : r.inv.Fresh cfg) (hdoc : r.Documented cfg)

include hfresh hdoc

/-- The items of an initial child are as they were, when the function is ready. -/
theorem items_initial_ready (h : (r.filed cfg).stage1 cfg ord = .ok r₁) {ref : ObjectReference}
    (hkind : r.inv.ownKindOf ref = some .childInitial) :
    r₁.items.filter (fun o => o.ref = ref) = r.items.filter fun o => o.ref = ref := by
  have hinv : (stage1Inv cfg ord r).Documented := documented_stage1Inv hfresh hdoc
  rw [items_stage1 hfresh hdoc h, Keyed.filter_upsertAll _ ref_of_id, List.filter_eq_nil_iff.mpr]
  · rfl
  · intro o ho heq
    obtain ⟨F, forRes, hfind, ho⟩ := exists_of_mem_flatMap_diffs hinv.keys (perm_sortByRef _ _) ho
    rw [items_diffScript] at ho
    obtain ⟨s, hs, ho⟩ := List.mem_flatMap.mp ho
    obtain ⟨href, -⟩ := own_of_mem_items hinv hs ho
    obtain ⟨hnamed, ho⟩ := mem_items_script ho
    obtain ⟨res, hres, hs⟩ := exists_of_mem_steps hinv.keys (ne_empty_of_named hnamed) hs
    obtain ⟨-, rfl⟩ := (find_stage1_own hfresh).mp hres
    have hsref : s.1 = ref := href.symm.trans (of_decide_eq_true heq)
    have hsome : (r.ownedItem F s.1).isSome ∨ (r.wantedObj cfg F s.1).isSome := by
      rcases written_childDelta hs ho with hnew | ⟨existing, hexisting, -⟩
      · exact Or.inr (Option.isSome_iff_exists.mpr ⟨o, hnew⟩)
      · exact Or.inl (Option.isSome_iff_exists.mpr ⟨existing, hexisting⟩)
    exact not_mem_written_initial ((ownKind_childCtx hsome).trans (hsref ▸ hkind)) hs o ho

/-- The items of an initial child are as they were, when a watch fails. -/
theorem items_initial_idle {ref : ObjectReference}
    (hkind : r.inv.ownKindOf ref = some .childInitial) :
    (Keyed.upsertAll KubeObject.id (idleScript ord (r.idleInv cfg)).items r.items).filter
      (fun o => o.ref = ref) = r.items.filter fun o => o.ref = ref := by
  rw [Keyed.filter_upsertAll _ ref_of_id, List.filter_eq_nil_iff.mpr]
  · rfl
  · intro o ho heq
    obtain ⟨F, ref', forRes, res, hres, hfor, x, hx, rfl⟩ :=
      mem_items_idleScript (documented_idleInv hfresh hdoc).keys ho
    obtain ⟨-, rfl⟩ := (find_idle_own hfresh).mp hres
    have hitem : r.ownedItem F ref' = some x.obj := objs_childDelta.2 x hx
    have href : ref' = ref := (mem_of_ownedItem hitem).2.1.symm.trans (of_decide_eq_true heq)
    rw [deleteObjs_initial ((ownKind_childCtx (Or.inl (by rw [hitem]; rfl))).trans
      (href ▸ hkind))] at hx
    cases hx

omit hfresh hdoc in
/-- What `updateChildren` does to the object of a child of a for-instance that is gone. -/
theorem deleteObjs_orphan {F : ObjectReference} (habsent : r.forObj F = none) {o : KubeObject V}
    (hitem : r.ownedItem F o.ref = some o) (hkind : r.inv.ownKindOf o.ref ≠ some .childInitial)
    (ready : Bool) :
    (childDelta ready (r.forCtx cfg.mute F) o.ref (r.childCtx cfg.mute F o.ref)).deleteObjs =
      [⟨⟨o.ref, r.inv.ownKindOf o.ref⟩, o⟩] := by
  have hkind' : (r.childCtx cfg.mute F o.ref).ownKind = r.inv.ownKindOf o.ref :=
    ownKind_childCtx (Or.inl (by rw [hitem]; rfl))
  have hexisting : (r.childCtx cfg.mute F o.ref).existingResource = some o := hitem
  have hfor : (r.forCtx cfg.mute F).existingResource = none := habsent
  rw [childDelta_absent hfor]
  simp only [diffOrphan, hexisting, hkind', ne_eq, hkind, not_false_eq_true, if_true]

/-- The item `o` of `F` is marked for deletion in `r₁`, and its condition says so. -/
structure Collected (F : ObjectReference) (o : KubeObject V) (r₁ : Sdk V) : Prop where
  marked : mark o ∈ r₁.items
  only : ∀ o' ∈ r₁.items, o'.ref = o.ref → o' = mark o
  condition : ∃ c ∈ r₁.kptfile.conditions, c.type = getConditionType o.ref ∧
    c.status = .conditionFalse ∧ c.reason = getConditionType F

omit [DecidableEq V] hfresh hdoc in
/-- What an item of its own reference becomes when its marked version is written. -/
theorem collected_of_items (hrefs : (Keyed.keys KubeObject.ref r.items).Nodup) {o : KubeObject V}
    (ho : o ∈ r.items)
    (hitems : r₁.items.filter (fun o' => o'.ref = o.ref) =
      Keyed.upsertAll KubeObject.id [mark o] (r.items.filter fun o' => o'.ref = o.ref))
    {F : ObjectReference} {msg : String}
    (hlookup : Keyed.lookup Condition.type (getConditionType o.ref) r₁.kptfile.conditions =
      some (ownCondition F o.ref msg .conditionFalse)) : Collected F o r₁ := by
  have hone : r₁.items.filter (fun o' => o'.ref = o.ref) = [mark o] := by
    have hid : o.id = (mark o).id := rfl
    rw [hitems, Keyed.filter_key_eq KubeObject.ref hrefs ho]
    simp only [Keyed.upsertAll, List.foldl_cons, List.foldl_nil, Keyed.upsert, hid, if_true]
  obtain ⟨hmem, honly⟩ := Loops.of_filter_eq_singleton hone
  exact ⟨hmem, honly, _, Keyed.mem_of_lookup _ hlookup, rfl, rfl, rfl⟩

theorem collected_ready (h : (r.filed cfg).stage1 cfg ord = .ok r₁)
    (hrefs : (Keyed.keys KubeObject.ref r.items).Nodup) {F : ObjectReference}
    (habsent : r.forObj F = none) {o : KubeObject V} (ho : o ∈ r.items)
    (howns : r.Owns F o.ref) (hdecode : getGVKNFromConditionType o.owner = F)
    (honly : r.Only cfg F o.ref) (hkind : r.inv.ownKindOf o.ref ≠ some .childInitial) :
    Collected F o r₁ := by
  have hitem := ownedItem_of_mem hrefs ho hdecode
  have hkind' : (r.childCtx cfg F o.ref).ownKind = r.inv.ownKindOf o.ref :=
    ownKind_childCtx (Or.inl (by rw [hitem]; rfl))
  have hexisting : (r.childCtx cfg F o.ref).existingResource = some o := hitem
  have hfor : ¬ (r.forCtx cfg F).existingResource.isSome := by
    have hnone : (r.forCtx cfg F).existingResource = none := habsent
    rw [hnone]
    exact Bool.false_ne_true
  have hlookup := lookup_stage1_own hfresh hdoc h honly (Or.inl howns)
  have hitems := items_stage1_own hfresh hdoc h honly (Or.inl howns)
  simp only [childOutcome, hfor, orphanOutcome, hexisting, hkind', ne_eq, hkind, not_false_eq_true,
    Option.isSome_some, decide_true, Bool.and_self, if_true, if_false, Bool.false_eq_true]
    at hlookup
  simp only [childItem, hfor, orphanItem, hexisting, hkind', hkind, if_false, Bool.false_eq_true,
    Option.map_some, Option.toList_some] at hitems
  exact collected_of_items hrefs ho hitems hlookup

omit [DecidableEq V] hdoc in
/-- Items have distinct references, so only its owner has an entry with this item. -/
theorem owner_idle (hrefs : (Keyed.keys KubeObject.ref r.items).Nodup) {o : KubeObject V}
    (ho : o ∈ r.items) {F : ObjectReference} {res : ResourceCtx V}
    (hres : (r.idleInv cfg).resources.find (ownPath F o.ref) = some res)
    (hsome : res.existingResource.isSome) : F = getGVKNFromConditionType o.owner := by
  obtain ⟨-, rfl⟩ := (find_idle_own hfresh).mp hres
  obtain ⟨o', ho'⟩ := Option.isSome_iff_exists.mp hsome
  obtain ⟨hmem, href, hdecode⟩ := mem_of_ownedItem ho'
  rw [← hdecode, List.inj_on_of_nodup_map hrefs hmem ho href]

/-- A child whose object is to be deleted when a watch fails. -/
theorem collected_idle (hfail : ¬ r.WatchesSucceed cfg ord)
    (h : ((r.filed cfg).runWatches cfg ord).stage1 cfg ord = .ok r₁)
    (hrefs : (Keyed.keys KubeObject.ref r.items).Nodup) {F : ObjectReference}
    {o : KubeObject V} (ho : o ∈ r.items) (howns : r.Owns F o.ref)
    (hdecode : getGVKNFromConditionType o.owner = F)
    (hdelete : (childDelta false (r.forCtx cfg.mute F) o.ref
      (r.childCtx cfg.mute F o.ref)).deleteObjs = [⟨⟨o.ref, r.inv.ownKindOf o.ref⟩, o⟩]) :
    Collected F o r₁ := by
  obtain ⟨err, r₂, hr₂, hconditions, hitems, -⟩ := stage1_idle hfresh hdoc hfail
  rw [h] at hr₂
  rw [← Except.ok.inj hr₂] at hconditions hitems
  have hinv := documented_idleInv hfresh hdoc
  have hres := (find_idle_own hfresh).mpr ⟨howns, rfl⟩
  have hforRes := (find_idle_for hfresh hdoc).mpr
    ⟨forInstance_of_own hfresh (Or.inl howns), rfl⟩
  have honly : ∀ F' res', (r.idleInv cfg).resources.find (ownPath F' o.ref) = some res' →
      res'.existingResource.isSome → F' = F :=
    fun _ _ hres' hsome => (owner_idle hfresh hrefs ho hres' hsome).trans hdecode
  have hdelete : (childDelta (r.idleInv cfg).ready _ _ _).deleteObjs = _ := hdelete
  refine @collected_of_items V r r₁ hrefs o ho ?_ F "not ready" ?_
  · rw [hitems, Keyed.filter_upsertAll _ ref_of_id, idle_items_at_own hinv honly hforRes hres,
      hdelete]
    rfl
  · rw [hconditions, Keyed.lookup_applyAll, idle_conditions_at_own hinv honly hforRes hres, hdelete]
    rfl

end Collected

/-- **The children of a for-instance that is gone**, whether the function is ready or not. -/
theorem orphans_collected [DecidableEq V] {cfg : Config V} {ord : Order} {r r₁ : Sdk V}
    (hinv : newInventory cfg = .ok r.inv) (hdoc : r.Documented cfg)
    (hrefs : (Keyed.keys KubeObject.ref r.items).Nodup) (h : r.upToStage1 cfg ord = .ok r₁)
    {F : ObjectReference} (hF : r.inv.role F = some .forGVKKind) (hFdoc : F.Documented)
    (habsent : r.forObj F = none) {o : KubeObject V} (ho : o ∈ r.items)
    (href : r.inv.role o.ref = some .ownGVKKind) (howner : o.owner = getConditionType F) :
    (r.inv.ownKindOf o.ref ≠ some .childInitial → (∀ G, ¬ r.Wants cfg G o.ref) →
      (r.WatchesSucceed cfg ord → ∀ G, r.Owns G o.ref → G = F) → Collected F o r₁) ∧
    (r.inv.ownKindOf o.ref = some .childInitial →
      o ∈ r₁.items ∧ ∀ o' ∈ r₁.items, o'.ref = o.ref → o' = o) := by
  have hfresh := newInventory_fresh hinv
  have hdecode : getGVKNFromConditionType o.owner = F := by rw [howner, hFdoc.decode]
  have howns : r.Owns F o.ref := ⟨href, hF, mem_resourcesOf.mpr (Or.inr ⟨o, ho, rfl, hdecode⟩)⟩
  have hone := Keyed.filter_key_eq KubeObject.ref hrefs ho
  rw [upToStage1_filed] at h
  by_cases hwatches : r.WatchesSucceed cfg ord
  · rw [runWatches_of_succeed hwatches] at h
    refine ⟨fun hkind hwants hreason => ?_, fun hkind => ?_⟩
    · have honly : r.Only cfg F o.ref := fun G hG =>
        hG.elim (hreason hwatches G) fun hG => absurd hG (hwants G)
      exact collected_ready hfresh hdoc h hrefs habsent ho howns hdecode honly hkind
    · exact Loops.of_filter_eq_singleton
        ((items_initial_ready hfresh hdoc h hkind).trans hone)
  · refine ⟨fun hkind _ _ => ?_, fun hkind => ?_⟩
    · exact collected_idle hfresh hdoc hwatches h hrefs ho howns hdecode
        (deleteObjs_orphan habsent (ownedItem_of_mem hrefs ho hdecode) hkind false)
    · obtain ⟨err, r₂, hr₂, -, hitems, -⟩ := stage1_idle hfresh hdoc hwatches
      rw [h] at hr₂
      rw [← Except.ok.inj hr₂] at hitems
      refine Loops.of_filter_eq_singleton ?_
      rw [hitems, items_initial_idle hfresh hdoc hkind, hone]

theorem vanished_interface_collected :
    ∃ r₁, vanishedPackage.upToStage1 (claimsConfig .childRemote claimsWanted) .insertion =
        .ok r₁ ∧
      Collected (interfaceRef "n3")
        (owned (interfaceRef "n3") (ipClaimObj "n3-ipv4" (some 2))) r₁ := by
  have hrun : Fallible.okAnd (fun _ => true) (vanishedPackage.upToStage1
      (claimsConfig .childRemote claimsWanted) .insertion) = true := by
    decide +kernel
  obtain ⟨r₁, hr₁, -⟩ := Fallible.exists_of_okAnd hrun
  have hfamily : ∀ e ∈ vanishedPackage.family (claimsConfig .childRemote claimsWanted),
      ¬ vanishedPackage.Wants (claimsConfig .childRemote claimsWanted) e.1 e.2 ∧
        e.1 = interfaceRef "n3" := by
    decide +kernel
  exact ⟨r₁, hr₁, (orphans_collected (newInventory_claimsConfig _ _) (by decide +kernel)
    (by decide +kernel) hr₁ (by decide +kernel) (by decide +kernel) (by decide +kernel)
    (List.mem_singleton_self _) (by decide +kernel) (by decide +kernel)).1 (by decide +kernel)
    (fun G hG => (hfamily (G, _) (mem_family.mpr (Or.inr hG))).1 hG)
    fun _ G hG => (hfamily (G, _) (mem_family.mpr (Or.inl hG))).2⟩

/-- A claim of Interface `n3`, which is gone, with a condition that names Interface `n4`. -/
def disputedPackage : Sdk Nat where
  items := [interfaceObj "n4", owned (interfaceRef "n3") (ipClaimObj "n3-ipv4" (some 2))]
  kptfile := { conditions :=
    [ownCondition (interfaceRef "n4") (ipClaimRef "n3-ipv4") "" .conditionTrue] }
  inv := claimsInv .childRemote

/-- The diff of `n4` comes after that of `n3` and deletes the condition that `n3`'s has just set. -/
theorem disputed_claim_not_collected :
    newInventory (claimsConfig .childRemote claimsWanted) = .ok disputedPackage.inv ∧
      disputedPackage.Documented (claimsConfig .childRemote claimsWanted) ∧
      (Keyed.keys KubeObject.ref disputedPackage.items).Nodup ∧
      disputedPackage.forObj (interfaceRef "n3") = none ∧
      (∀ G, ¬ disputedPackage.Wants (claimsConfig .childRemote claimsWanted) G
        (ipClaimRef "n3-ipv4")) ∧
      ∃ r₁, disputedPackage.upToStage1 (claimsConfig .childRemote claimsWanted) .insertion =
          .ok r₁ ∧
        ¬ Collected (interfaceRef "n3")
          (owned (interfaceRef "n3") (ipClaimObj "n3-ipv4" (some 2))) r₁ := by
  refine ⟨newInventory_claimsConfig _ _, by decide +kernel, by decide +kernel,
    by decide +kernel, fun G hG => ?_, ?_⟩
  · have hfamily : ∀ e ∈ disputedPackage.family (claimsConfig .childRemote claimsWanted),
        e.2 = ipClaimRef "n3-ipv4" →
          ¬ disputedPackage.Wants (claimsConfig .childRemote claimsWanted) e.1 e.2 := by
      decide +kernel
    exact hfamily (G, _) (mem_family.mpr (Or.inr hG)) rfl hG
  · have hrun : Fallible.okAnd (fun r₁ => ∀ c ∈ r₁.kptfile.conditions,
        c.type ≠ getConditionType (ipClaimRef "n3-ipv4")) (disputedPackage.upToStage1
          (claimsConfig .childRemote claimsWanted) .insertion) = true := by
      decide +kernel
    obtain ⟨r₁, hr₁, hnone⟩ := Fallible.exists_of_okAnd hrun
    refine ⟨r₁, hr₁, fun hcollected => ?_⟩
    obtain ⟨c, hc, htype, -⟩ := hcollected.condition
    exact of_decide_eq_true hnone c hc htype

end Sdk

end Nephio.CondKptSdk
