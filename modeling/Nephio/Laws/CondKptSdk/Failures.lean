import Nephio.Laws.CondKptSdk.Frame

/-!
# Laws.CondKptSdk.Failures: what becomes of an error in stage 1

A populate failure is written to the Kptfile and to the inventory, with a flag that keeps stage 2
away from the for-instance. The rest of stage 1 goes through the children of the failed for-instance
all the same, and resets no condition that is False already, so the failure is final
(`populate_failure_final`).
-/

namespace Nephio.CondKptSdk

variable {V : Type} [DecidableEq V]

/-- A for condition that is False is not reset. -/
theorem updateForCondition_of_false {ord : Order} {inv : Inv V} {F : ObjectReference}
    {forRes : ResourceCtx V} (hobj : forRes.existingResource.isSome) {c : Condition}
    (hc : forRes.existingCondition = some c) (hfalse : c.status = .conditionFalse) :
    (forDelta ord inv F forRes).updateForCondition = false := by
  obtain ⟨o, ho⟩ := Option.isSome_iff_exists.mp hobj
  rw [forDelta_eq, InventoryDiff.join, List.any_eq_false]
  intro d hd
  obtain ⟨e, -, rfl⟩ := List.mem_map.mp hd
  have hsome : ¬ (unmarks e.2 ∧ forRes.existingCondition = none) := by
    rw [hc]
    intro h
    cases h.2
  simp only [childDelta_present ho hsome, presentDelta, hc, notFalse, hfalse,
    ne_eq, not_true_eq_false, decide_false, Bool.false_and, Bool.false_eq_true, not_false_eq_true]

namespace Sdk

section Failed

variable {cfg : Config V} {ord : Order} {r r₁ : Sdk V} (hfresh : r.inv.Fresh cfg)
  {F : ObjectReference} (hF : r.inv.role F = some .forGVKKind) (hnamed : F.Named) {err : String}
  (herr : r.wanted cfg F = .error err)

include hfresh hF hnamed herr

omit [DecidableEq V] in
/-- What `populateChildren` leaves in the inventory for a for-instance it fails on. -/
theorem ctxAt_stage1_failed :
    (stage1Inv cfg ord r).resources.ctxAt (forPath F) =
      { (r.filed cfg).inv.resources.ctxAt (forPath F) with
        failed := true
        existingCondition := some (forCondition F (populateFailedMsg err) .conditionFalse) } := by
  obtain ⟨o, ho⟩ := exists_forObj_of_wanted_error herr
  have hsome := (isSome_filed_for hfresh).mpr (forInstance_of_forObj hfresh ho hF)
  rw [stage1Inv, ctxAt_populate_for (keysNodup_filed hfresh) hsome, populated_filed hfresh hF, herr]
  exact if_pos hnamed

theorem updateForCondition_of_failed {forRes : ResourceCtx V}
    (hforRes : (stage1Inv cfg ord r).resources.find (forPath F) = some forRes) :
    (forDelta ord (stage1Inv cfg ord r) F forRes).updateForCondition = false := by
  obtain ⟨o, ho⟩ := exists_forObj_of_wanted_error herr
  have hctx := @ctxAt_stage1_failed V cfg ord r hfresh F hF hnamed err herr
  have heq := (Resources.find_eq_some_iff.mp hforRes).2
  refine updateForCondition_of_false ?_ (by rw [heq, hctx]) rfl
  rw [heq, hctx]
  show ((r.filed cfg).inv.resources.ctxAt (forPath F)).existingResource.isSome
  rw [ctxAt_filed hfresh, filedCtx, itemAt_for hF, ho]
  rfl

/-- The rest of stage 1 leaves it there. -/
theorem ctxAt_of_failed (h : (r.filed cfg).stage1 cfg ord = .ok r₁) :
    (r₁.inv.resources.ctxAt (forPath F)).failed = true := by
  obtain ⟨o, ho⟩ := exists_forObj_of_wanted_error herr
  have hsome : ((stage1Inv cfg ord r).resources.find (forPath F)).isSome :=
    (isSome_stage1_for hfresh).mpr (forInstance_of_forObj hfresh ho hF)
  obtain ⟨forRes, hforRes⟩ := Option.isSome_iff_exists.mp hsome
  have hkept := updateForCondition_of_failed hfresh hF hnamed herr hforRes
  rw [inv_of_stage1 hfresh h, Inv.resources_write, TreeWrite.ctxAt_applyAll,
    tree_at_for (keysNodup_stage1Inv hfresh) hnamed hforRes, if_neg (by rw [hkept]; decide),
    ctxAt_stage1_failed hfresh hF hnamed herr]
  rfl

/-- Stage 2 passes the for-instance by. -/
theorem failed_of_mem_getReadyMap (h : (r.filed cfg).stage1 cfg ord = .ok r₁) {ctx : ReadyCtx V}
    (hctx : (F, ctx) ∈ r₁.inv.getReadyMap) : ctx.failed = true := by
  obtain ⟨forRes, hfind, rfl⟩ := (mem_getReadyMap (keysNodup_of_stage1 hfresh h)).mp hctx
  have hfailed := ctxAt_of_failed hfresh hF hnamed herr h
  rw [← (Resources.find_eq_some_iff.mp hfind).2] at hfailed
  exact hfailed

/-- No edit of `updateChildren` is at the condition of the for-instance, unless a child shares its
type. -/
theorem target_ne_of_failed
    (hown : ∀ G ref, r.Owns G ref ∨ r.Wants cfg G ref → getConditionType ref ≠ getConditionType F)
    {e : ConditionEdit} (he : e ∈ (readyScript ord (stage1Inv cfg ord r)).conditions) :
    e.target ≠ getConditionType F := by
  have hkeys : (stage1Inv cfg ord r).resources.KeysNodup 2 := keysNodup_stage1Inv hfresh
  obtain ⟨G, forRes, hG, he⟩ := exists_of_mem_flatMap_diffs hkeys (perm_sortByRef _ _) he
  rcases mem_conditions_diffScript.mp he with ⟨hreset, -, rfl⟩ | ⟨s, hs, hnamed, rfl⟩
  · intro heq
    have hrole := ForInstance.role hfresh ((isSome_stage1_for hfresh).mp (by rw [hG]; rfl))
    obtain rfl : G = F := hfresh.eq_of_for hrole hF heq
    have hkept := updateForCondition_of_failed hfresh hF hnamed herr hG
    rw [hkept] at hreset
    cases hreset
  · rw [ChildStep.target_edit]
    obtain ⟨res, hres, -⟩ := exists_of_mem_steps hkeys (ne_empty_of_named hnamed.1) hs
    exact hown G s.1 ((isSome_stage1_own hfresh).mp (by rw [hres]; rfl))

theorem lookup_of_failed (h : (r.filed cfg).stage1 cfg ord = .ok r₁)
    (hown : ∀ G ref, r.Owns G ref ∨ r.Wants cfg G ref →
      getConditionType ref ≠ getConditionType F) :
    r₁.kptfile.getCondition (getConditionType F) =
      some (forCondition F (populateFailedMsg err) .conditionFalse) := by
  obtain ⟨o, ho⟩ := exists_forObj_of_wanted_error herr
  rw [(updateChildren_of_stage1 hfresh h).lookup fun e he =>
    target_ne_of_failed hfresh hF hnamed herr hown he]
  show Keyed.lookup Condition.type (getConditionType F) _ = _
  rw [(populateChildren_writes cfg.populating ord (r.filed cfg)).conditions, Keyed.lookup_applyAll,
    populate_conditions_at_for hfresh (forInstance_of_forObj hfresh ho hF) hnamed, populateEdits,
    herr]
  rfl

end Failed

/-! ## A populate failure is final -/

/-- The condition type of the specializer is none of a valid reference: its name would have a capital
letter. -/
theorem specialization_ne_of_valid {ref : ObjectReference} (href : ref.Valid) :
    specializationConditionType ≠ getConditionType ref := by
  intro heq
  have hkind := (kind_separators href.kind).2.2
  rcases href.written with ⟨hv, ht⟩ | ⟨group, version, -, -, -, ht⟩
  · have hsplit := congrArg (split · '.') (heq.trans ht)
    rw [show ("." : String) = String.singleton '.' from rfl] at hsplit
    simp only [split_append (label_separators hv).2.2, split_append hkind] at hsplit
    have hspec : split specializationConditionType '.' =
        ["nephio", "org", "Specializer", "specialize"] := by
      decide +kernel
    rw [hspec] at hsplit
    simp only [List.cons.injEq] at hsplit
    have hname : ref.name.toList.splitOn '.' = ["Specializer".toList, "specialize".toList] := by
      refine (List.map_injective_iff.mpr fun a b hab => ?_) hsplit.2.2.symm
      rw [← String.toList_ofList (l := a), hab, String.toList_ofList]
    have hlabels := href.name
    rw [isDNS1123Subdomain, hname] at hlabels
    revert hlabels
    simp only [Bool.and_eq_true]
    exact fun hlabels => absurd hlabels.2 (by decide)
  · have hslash : '/' ∈ specializationConditionType.toList := by
      rw [heq, ht]
      simp only [String.toList_append, List.mem_append]
      exact Or.inl (Or.inr (by decide))
    revert hslash
    decide +kernel

section Run

variable {cfg : Config V} {ord : Order} {r r' : Sdk V} (hfresh : r.inv.Fresh cfg)
  (hwatches : (r.ensured cfg).WatchesSucceed cfg ord) {F : ObjectReference}
  (hF : r.inv.role F = some .forGVKKind) {err : String} (herr : r.wanted cfg F = .error err)

include hfresh hwatches hF herr

/-- `UpdateResourceFn` is not called for the for-instance: whatever it answers there, the Run is the
same. -/
theorem run_of_agree (hnamed : F.Named) {fn fn' : UpdateResourceFn V}
    (hfn : cfg.updateResourceFn = some fn) (hagree : ∀ G, G ≠ F → fn' G = fn G) :
    r.run { cfg with updateResourceFn := some fn' } ord = r.run cfg ord := by
  have hs := fresh_ensured hfresh
  have hupdate : ∀ r₁, (((r.ensured cfg).filed cfg).runWatches cfg ord).stage1 cfg ord = .ok r₁ →
      r₁.updateResources { cfg with updateResourceFn := some fn' } ord =
        r₁.updateResources cfg ord := by
    intro r₁ h₁
    rw [runWatches_of_succeed hwatches] at h₁
    unfold updateResources
    by_cases hready : r₁.inv.ready
    · simp only [hfn, hready, if_true]
      refine congrArg Except.ok (List.foldl_ext _ _ _ fun acc e he => ?_)
      obtain ⟨G, ctx⟩ := e
      by_cases hG : G = F
      · have hctx : (G, ctx) ∈ r₁.inv.getReadyMap := (ord.perm _ _).mem_iff.mp he
        rw [hG] at hctx
        have hfailed := failed_of_mem_getReadyMap hs (by rw [inv_ensured]; exact hF) hnamed
          ((wanted_ensured F).trans herr) h₁ hctx
        simp only [updateFor, hfailed, Bool.or_true, if_true]
      · simp only [updateFor, handleUpdateResource, hagree G hG]
    · simp only [hready, Bool.false_eq_true, if_false]
  refine (run_eq _ _ _).trans (Eq.trans ?_ (run_eq cfg ord r).symm)
  show (((r.ensured cfg).filed cfg).runWatches cfg ord).stage1 cfg ord >>= _ = _
  cases h₁ : (((r.ensured cfg).filed cfg).runWatches cfg ord).stage1 cfg ord with
  | error panic => rfl
  | ok r₁ =>
    show r₁.updateResources { cfg with updateResourceFn := some fn' } ord >>= _ = _
    rw [hupdate r₁ h₁]
    rfl

/-- The condition of the failed for-instance at the end of the Run. -/
theorem getCondition_of_failed (hvalid : F.Valid)
    (hchildren : ∀ G ref, r.Owns G ref ∨ r.Wants cfg G ref → ref.Valid)
    (hreturned : ∀ obj ∈ r.returned cfg ord, r.inv.role obj.ref = some .ownGVKKind → obj.ref.Valid)
    (h : r.run cfg ord = .ok r') :
    r'.kptfile.getCondition (getConditionType F) =
      some (forCondition F (populateFailedMsg err) .conditionFalse) := by
  have hs := fresh_ensured hfresh
  have hFs : (r.ensured cfg).inv.role F = some .forGVKKind := by rw [inv_ensured]; exact hF
  have herrs : (r.ensured cfg).wanted cfg F = .error err := (wanted_ensured F).trans herr
  have hne : ∀ ref : ObjectReference, ref.Valid → r.inv.role ref = some .ownGVKKind →
      getConditionType ref ≠ getConditionType F := by
    intro ref href hrole heq
    rw [href.injective hvalid heq, hF] at hrole
    cases hrole
  have hown : ∀ G ref, (r.ensured cfg).Owns G ref ∨ (r.ensured cfg).Wants cfg G ref →
      getConditionType ref ≠ getConditionType F := by
    intro G ref hown
    rw [owns_ensured hfresh, wants_ensured] at hown
    exact hne ref (hchildren G ref hown) (hown.elim And.left And.left)
  obtain ⟨r₁, r₂, h₁, h₂, rfl⟩ := run_eq_ok.mp h
  have hstage := h₁
  rw [runWatches_of_succeed hwatches] at hstage
  have hready : r₁.inv.ready = true := by
    rw [inv_of_stage1 hs hstage]
    exact hs.ready
  obtain ⟨updateFn, hfn⟩ := Option.isSome_iff_exists.mp hfresh.updates
  obtain ⟨r₂', hr₂', hwrites⟩ := updateResources_writes hfn ord hready
  obtain rfl : r₂' = r₂ := Except.ok.inj (hr₂'.symm.trans h₂)
  rw [getCondition_runReadiness (specialization_ne_of_valid hvalid),
    hwrites.touches.lookup fun e he => ?_,
    lookup_of_failed hs hFs hvalid.named herrs hstage hown]
  intro htarget
  obtain ⟨G, ctx, hctx, hG, hfailed, heq | heq | ⟨obj, hobj, hrole, heq⟩⟩ :=
    target_stage2 hs hstage he
  · obtain rfl : G = F := hs.eq_of_for (ForInstance.role hs hG) hFs (heq.symm.trans htarget)
    rw [failed_of_mem_getReadyMap hs hFs hvalid.named herrs hstage hctx] at hfailed
    cases hfailed
  · -- the condition of another for-instance, under a type that reads as that one
    rw [htarget] at heq
    have hgvk := ((hs.role_for G).mp (ForInstance.role hs hG)).trans ((hs.role_for F).mp hFs).symm
    rw [← heq] at hgvk hctx
    rw [hvalid.decode_of_gvk hgvk] at hctx
    rw [failed_of_mem_getReadyMap hs hFs hvalid.named herrs hstage hctx] at hfailed
    cases hfailed
  · rw [inv_ensured] at hrole
    exact hne obj.ref (hreturned obj (mem_returned h₁ hready hfn hctx hobj) hrole) hrole
      (heq.symm.trans htarget)

end Run

/-- A function that cannot tell what Interface `n3` wants. -/
def failingConfig : Config Nat :=
  { claimsConfig .childRemote claimsWanted with
    populateOwnResourcesFn := some fun F _ =>
      if F.name = "n3" then .error "no cluster" else .ok (claimsWanted F.name) }

/-- An own GVK whose version has a dot: the text of `child` under it is that of the for-instance
named `Child.child`. -/
def dottedConfig : Config Nat where
  forRef := { apiVersion := "g/v", kind := "Parent" }
  owns := [({ apiVersion := "g/v.Parent", kind := "Child" }, .childLocal)]
  populateOwnResourcesFn := some fun F _ =>
    if F.name = "Child.child" then .error "no cluster"
    else .ok [{ apiVersion := "g/v.Parent", kind := "Child", name := "child" }]
  updateResourceFn := some fun _ o _ => .ok o.toList

def dottedPackage : Sdk Nat where
  items := [{ apiVersion := "g/v", kind := "Parent", name := "Child.child" },
    { apiVersion := "g/v", kind := "Parent", name := "p1" }]
  kptfile := { conditions := [] }
  inv := { gvkResources :=
    [({ apiVersion := "g/v", kind := "Parent" }, { gvkKind := .forGVKKind }),
      ({ apiVersion := "g/v.Parent", kind := "Child" },
        { gvkKind := .ownGVKKind, ownKind := some .childLocal })] }

end Sdk

end Nephio.CondKptSdk
