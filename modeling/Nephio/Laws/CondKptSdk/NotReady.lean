import Nephio.Laws.CondKptSdk.Run

/-!
# Laws.CondKptSdk.NotReady: a Run whose global watches fail

When a global watch fails, the function is not ready: the conditions of its for objects (of the
specializer, for a Root function) are failed, no children are asked for, and `updateChildren` only
forgets the conditions of for-instances that are gone and marks children. This is a script as well
(`idleScript`), read at one key in the same way.
-/

namespace Nephio.CondKptSdk

variable {V : Type} [DecidableEq V]

/-- The script of `updateChildren` when the function is not ready. -/
def idleScript (ord : Order) (inv : Inv V) : Script V :=
  .flatMap (ord.range .notReadyDiff (diffs ord inv)) fun e => notReadyScript e.1 e.2

theorem updateChildren_idle (ord : Order) {r : Sdk V} (hready : r.inv.ready = false)
    (hdiff : r.inv.DiffCompletes)
    (hnodup : (Keyed.keys Condition.type r.kptfile.conditions).Nodup) :
    ∃ r', r.updateChildren ord = .ok r' ∧ Writes (idleScript ord r.inv) r r' := by
  have h := updateChildren_writes (@diff_of_completes V _ ord r.inv hdiff) hnodup
  rw [hready] at h
  exact h

section Reading

variable {ord : Order} {inv : Inv V}

/-- The objects of one child that a for-instance's diff deletes. -/
theorem deleteObjs_forDelta (hnd : inv.resources.KeysNodup 2) {F ref : ObjectReference}
    (hF : F ≠ {}) {forRes res : ResourceCtx V}
    (hres : inv.resources.find (ownPath F ref) = some res) :
    (forDelta ord inv F forRes).deleteObjs.filter (fun x => x.ref = ref) =
      (childDelta inv.ready forRes ref res).deleteObjs := by
  have hmem : (ref, res) ∈ diffChildren ord inv F := (mem_diffChildren hnd hF).mpr hres
  rw [forDelta_eq]
  simp only [InventoryDiff.join, List.flatMap_map]
  exact filter_section (nodup_diffChildren hnd hF)
    (fun e _ => (about_childDelta inv.ready forRes e.1 e.2).deleteObjs) hmem (List.Perm.refl _)

/-- An object that a for-instance's diff deletes is that of a child of its. -/
theorem exists_of_mem_deleteObjs (hnd : inv.resources.KeysNodup 2) {F : ObjectReference}
    (hF : F ≠ {}) {forRes : ResourceCtx V} {x : Object V}
    (hx : x ∈ (forDelta ord inv F forRes).deleteObjs) :
    ∃ res, inv.resources.find (ownPath F x.ref) = some res ∧
      x ∈ (childDelta inv.ready forRes x.ref res).deleteObjs := by
  rw [forDelta_eq] at hx
  simp only [InventoryDiff.join, List.flatMap_map] at hx
  obtain ⟨⟨ref, res⟩, hmem, hx⟩ := List.mem_flatMap.mp hx
  have href : x.ref = ref := List.mem_singleton.mp
    ((about_childDelta inv.ready forRes ref res).deleteObjs.subset (List.mem_map_of_mem hx))
  rw [href]
  exact ⟨res, (mem_diffChildren hnd hF).mp hmem, hx⟩

omit [DecidableEq V] in
theorem mem_conditions_notReadyScript {F : ObjectReference} {d : InventoryDiff V}
    {e : ConditionEdit} :
    e ∈ (notReadyScript F d).conditions ↔
      (d.deleteForCondition ∧ F.Named ∧ e = .remove (getConditionType F)) ∨
      ∃ x ∈ d.deleteObjs, (F.Named ∧ x.ref.Named) ∧
        e = .put (ownCondition F x.ref "not ready" .conditionFalse) := by
  rw [notReadyScript, Script.conditions_append, List.mem_append, Script.conditions_flatMap,
    List.mem_flatMap]
  refine or_congr ?_ (exists_congr fun x => and_congr_right fun _ => ?_)
  · unfold deleteForScript
    split_ifs with hdelete hnamed <;> simp [*]
  · unfold markOwnScript
    split_ifs with hnamed <;> simp [hnamed, putOwnScript]

omit [DecidableEq V] in
theorem mem_items_notReadyScript {F : ObjectReference} {d : InventoryDiff V} {o : KubeObject V} :
    o ∈ (notReadyScript F d).items ↔
      ∃ x ∈ d.deleteObjs, (F.Named ∧ x.ref.Named) ∧ o = mark x.obj := by
  have hfor : (if d.deleteForCondition then deleteForScript F else ({} : Script V)).items = [] := by
    unfold deleteForScript
    split_ifs <;> rfl
  rw [notReadyScript, Script.items_append, hfor, List.nil_append, Script.items_flatMap,
    List.mem_flatMap]
  refine exists_congr fun x => and_congr_right fun _ => ?_
  unfold markOwnScript
  split_ifs with hnamed <;> simp [hnamed, putOwnScript, mark]

omit [DecidableEq V] in
theorem path_of_mem_markOwnScript {F ref : ObjectReference} {obj : KubeObject V} {msg : String}
    {w : TreeWrite V} (hw : w ∈ (markOwnScript F ref obj msg).tree) : w.path = ownPath F ref := by
  unfold markOwnScript at hw
  split_ifs at hw
  · rw [Script.tree_append, List.nil_append, putOwnScript] at hw
    rw [List.mem_singleton.mp hw]
    rfl
  · cases hw

omit [DecidableEq V] in
/-- A write to the tree when a watch has failed clears a for-instance or sets one of its children. -/
theorem mem_tree_notReadyScript {F : ObjectReference} {d : InventoryDiff V} {w : TreeWrite V}
    (hw : w ∈ (notReadyScript F d).tree) :
    w = .clear (forPath F) ∨ ∃ ref, w.path = ownPath F ref := by
  rw [notReadyScript, Script.tree_append, List.mem_append] at hw
  rcases hw with hw | hw
  · left
    split_ifs at hw
    · unfold deleteForScript at hw
      split_ifs at hw
      · exact List.mem_singleton.mp hw
      · cases hw
    · cases hw
  · right
    obtain ⟨x, -, hw⟩ := List.mem_flatMap.mp hw
    exact ⟨x.ref, path_of_mem_markOwnScript hw⟩

/-- **The edits of `updateChildren` when not ready**: each forgets a for-instance that is gone, or
is at a child whose object is there. -/
theorem target_idleScript (hnd : inv.resources.KeysNodup 2) {e : ConditionEdit}
    (he : e ∈ (idleScript ord inv).conditions) :
    (∃ F forRes, inv.resources.find (forPath F) = some forRes ∧ F.Named ∧
        (forDelta ord inv F forRes).deleteForCondition ∧ e = .remove (getConditionType F)) ∨
      ∃ F ref res, inv.resources.find (ownPath F ref) = some res ∧ res.existingResource.isSome ∧
        e = .put (ownCondition F ref "not ready" .conditionFalse) := by
  obtain ⟨F, forRes, hfind, he⟩ := exists_of_mem_flatMap_diffs hnd (ord.perm _ _) he
  rcases mem_conditions_notReadyScript.mp he with ⟨hdelete, hnamed, rfl⟩ | ⟨x, hx, hnamed, rfl⟩
  · exact Or.inl ⟨F, forRes, hfind, hnamed, hdelete, rfl⟩
  · obtain ⟨res, hres, hx⟩ := exists_of_mem_deleteObjs hnd (ne_empty_of_named hnamed.1) hx
    exact Or.inr ⟨F, x.ref, res, hres, by rw [objs_childDelta.2 x hx]; rfl, rfl⟩

/-- The objects written when not ready are those of children, marked. -/
theorem mem_items_idleScript (hnd : inv.resources.KeysNodup 2) {o : KubeObject V}
    (ho : o ∈ (idleScript ord inv).items) :
    ∃ F ref forRes res, inv.resources.find (ownPath F ref) = some res ∧
      inv.resources.find (forPath F) = some forRes ∧
      ∃ x ∈ (childDelta inv.ready forRes ref res).deleteObjs, o = mark x.obj := by
  obtain ⟨F, forRes, hfind, ho⟩ := exists_of_mem_flatMap_diffs hnd (ord.perm _ _) ho
  obtain ⟨x, hx, hnamed, rfl⟩ := mem_items_notReadyScript.mp ho
  obtain ⟨res, hres, hx⟩ := exists_of_mem_deleteObjs hnd (ne_empty_of_named hnamed.1) hx
  exact ⟨F, x.ref, forRes, res, hres, hfind, x, hx, rfl⟩

section Documented

variable (hdoc : inv.Documented)

include hdoc

/-- The edit at the condition of a for-instance. -/
theorem idle_conditions_at_for {F : ObjectReference} {forRes : ResourceCtx V}
    (hforRes : inv.resources.find (forPath F) = some forRes) (hnamed : F.Named) :
    (idleScript ord inv).conditions.filter (fun e => e.target = getConditionType F) =
      if (forDelta ord inv F forRes).deleteForCondition then [.remove (getConditionType F)]
      else [] := by
  have hsome : (inv.resources.find (forPath F)).isSome := by rw [hforRes]; rfl
  have hmarks : ∀ F' d, ∀ x ∈ (forDelta ord inv F' d).deleteObjs, F'.Named →
      getConditionType x.ref ≠ getConditionType F := by
    intro F' d x hx hF'
    obtain ⟨res, hres, -⟩ := exists_of_mem_deleteObjs hdoc.keys (ne_empty_of_named hF') hx
    have hown : (inv.resources.find (ownPath F' x.ref)).isSome := by rw [hres]; rfl
    exact (hdoc.type_for_ne_own hsome hnamed hown).symm
  rw [idleScript, Script.conditions_flatMap,
    filter_flatMap_diffs hdoc.keys (ord.perm _ _) hforRes]
  · have hnil : (Script.flatMap (forDelta ord inv F forRes).deleteObjs fun x =>
        markOwnScript F x.ref x.obj "not ready").conditions.filter
          (fun e => e.target = getConditionType F) = [] := by
      rw [List.filter_eq_nil_iff]
      intro e he heq
      obtain ⟨x, hx, he⟩ := List.mem_flatMap.mp he
      simp only [markOwnScript] at he
      split_ifs at he with hsn
      · rw [Script.conditions_append, putOwnScript, List.append_nil] at he
        rw [List.mem_singleton.mp he] at heq
        exact hmarks F forRes x hx hnamed (of_decide_eq_true heq)
      · cases he
    rw [notReadyScript, Script.conditions_append, List.filter_append, hnil, List.append_nil]
    unfold deleteForScript
    split_ifs
    · exact List.filter_eq_self.mpr fun e he => by
        rw [List.mem_singleton.mp he]
        exact decide_eq_true rfl
    · rfl
  · intro F' d hne hF' e he
    rw [decide_eq_false_iff_not]
    intro heq
    rcases mem_conditions_notReadyScript.mp he with ⟨-, hFn, rfl⟩ | ⟨x, hx, hsn, rfl⟩
    · exact hne ((hdoc.fors F' (by rw [hF']; rfl) hFn).1.injective (hdoc.fors F hsome hnamed).1 heq)
    · exact hmarks F' d x hx hsn.1 heq

/-- The edit at the condition of a child that one for-instance has an object for. -/
theorem idle_conditions_at_own {F ref : ObjectReference} {forRes res : ResourceCtx V}
    (honly : ∀ F' res', inv.resources.find (ownPath F' ref) = some res' →
      res'.existingResource.isSome → F' = F)
    (hforRes : inv.resources.find (forPath F) = some forRes)
    (hres : inv.resources.find (ownPath F ref) = some res) :
    (idleScript ord inv).conditions.filter (fun e => e.target = getConditionType ref) =
      (childDelta inv.ready forRes ref res).deleteObjs.map fun _ =>
        .put (ownCondition F ref "not ready" .conditionFalse) := by
  have hsome : (inv.resources.find (ownPath F ref)).isSome := by rw [hres]; rfl
  obtain ⟨hFdoc, hrefdoc, -⟩ := hdoc.owns F ref hsome
  rw [idleScript, Script.conditions_flatMap,
    filter_flatMap_diffs hdoc.keys (ord.perm _ _) hforRes]
  · have hfor : (if (forDelta ord inv F forRes).deleteForCondition then deleteForScript F
        else ({} : Script V)).conditions.filter (fun e => e.target = getConditionType ref) = [] := by
      rw [List.filter_eq_nil_iff]
      intro e he heq
      unfold deleteForScript at he
      split_ifs at he with hdelete hFn
      · rw [List.mem_singleton.mp he] at heq
        exact hdoc.type_for_ne_own (by rw [hforRes]; rfl) hFn hsome (of_decide_eq_true heq)
      · cases he
      · cases he
    rw [notReadyScript, Script.conditions_append, List.filter_append, hfor, List.nil_append,
      Script.conditions_flatMap, Loops.filter_flatMap_eq (q := fun x : Object V => x.ref = ref),
      deleteObjs_forDelta hdoc.keys (ne_empty_of_named hFdoc.named) hres, List.map_eq_flatMap]
    · refine List.flatMap_congr fun x hx => ?_
      have href : x.ref = ref := List.mem_singleton.mp
        ((about_childDelta inv.ready forRes ref res).deleteObjs.subset (List.mem_map_of_mem hx))
      rw [href, markOwnScript, if_pos ⟨hFdoc.named, hrefdoc.named⟩]
      rfl
    · intro x hx e he
      obtain ⟨res', hres', -⟩ := exists_of_mem_deleteObjs hdoc.keys
        (ne_empty_of_named hFdoc.named) hx
      unfold markOwnScript at he
      split_ifs at he
      · rw [Script.conditions_append, putOwnScript, List.append_nil] at he
        rw [List.mem_singleton.mp he]
        exact decide_eq_decide.mpr ⟨fun heq => hdoc.own_of_type_eq hsome (by rw [hres']; rfl) heq,
          fun heq => congrArg getConditionType heq⟩
      · cases he
  · intro F' d hne hF' e he
    rw [decide_eq_false_iff_not]
    intro heq
    rcases mem_conditions_notReadyScript.mp he with ⟨-, hFn, rfl⟩ | ⟨x, hx, hsn, rfl⟩
    · exact hdoc.type_for_ne_own (by rw [hF']; rfl) hFn hsome heq
    · obtain ⟨res', hres', hx⟩ := exists_of_mem_deleteObjs hdoc.keys (ne_empty_of_named hsn.1) hx
      have href := hdoc.own_of_type_eq hsome (by rw [hres']; rfl) heq
      rw [href] at hres'
      exact hne (honly F' res' hres' (by rw [objs_childDelta.2 x hx]; rfl))

/-- The objects written under the reference of a child that one for-instance has an object for. -/
theorem idle_items_at_own {F ref : ObjectReference} {forRes res : ResourceCtx V}
    (honly : ∀ F' res', inv.resources.find (ownPath F' ref) = some res' →
      res'.existingResource.isSome → F' = F)
    (hforRes : inv.resources.find (forPath F) = some forRes)
    (hres : inv.resources.find (ownPath F ref) = some res) :
    (idleScript ord inv).items.filter (fun o => o.ref = ref) =
      (childDelta inv.ready forRes ref res).deleteObjs.map fun x => mark x.obj := by
  have hsome : (inv.resources.find (ownPath F ref)).isSome := by rw [hres]; rfl
  obtain ⟨hFdoc, hrefdoc, -⟩ := hdoc.owns F ref hsome
  have hobj : ∀ {F' d} {x : Object V}, x ∈ (forDelta ord inv F' d).deleteObjs → F'.Named →
      ∃ res', inv.resources.find (ownPath F' x.ref) = some res' ∧
        res'.existingResource.isSome ∧ x.obj.ref = x.ref := by
    intro F' d x hx hF'
    obtain ⟨res', hres', hx⟩ := exists_of_mem_deleteObjs hdoc.keys (ne_empty_of_named hF') hx
    have hx := objs_childDelta.2 x hx
    exact ⟨res', hres', by rw [hx]; rfl, hdoc.refs F' x.ref res' hres' x.obj (Or.inl hx)⟩
  rw [idleScript, Script.items_flatMap, filter_flatMap_diffs hdoc.keys (ord.perm _ _) hforRes]
  · have hfor : (if (forDelta ord inv F forRes).deleteForCondition then deleteForScript F
        else ({} : Script V)).items = [] := by
      unfold deleteForScript
      split_ifs <;> rfl
    rw [notReadyScript, Script.items_append, hfor, List.nil_append, Script.items_flatMap,
      Loops.filter_flatMap_eq (q := fun x : Object V => x.ref = ref),
      deleteObjs_forDelta hdoc.keys (ne_empty_of_named hFdoc.named) hres, List.map_eq_flatMap]
    · refine List.flatMap_congr fun x hx => ?_
      have href : x.ref = ref := List.mem_singleton.mp
        ((about_childDelta inv.ready forRes ref res).deleteObjs.subset (List.mem_map_of_mem hx))
      rw [href, markOwnScript, if_pos ⟨hFdoc.named, hrefdoc.named⟩]
      rfl
    · intro x hx o ho
      obtain ⟨-, -, -, href⟩ := hobj hx hFdoc.named
      unfold markOwnScript at ho
      split_ifs at ho
      · rw [Script.items_append, putOwnScript, List.nil_append] at ho
        have horef : o.ref = x.ref := by
          rw [List.mem_singleton.mp ho]
          exact href
        rw [horef]
      · cases ho
  · intro F' d hne hF' o ho
    rw [decide_eq_false_iff_not]
    intro heq
    obtain ⟨x, hx, hsn, rfl⟩ := mem_items_notReadyScript.mp ho
    obtain ⟨res', hres', hexisting, href⟩ := hobj hx hsn.1
    have hxref : x.ref = ref := href.symm.trans heq
    rw [hxref] at hres'
    exact hne (honly F' res' hres' hexisting)

end Documented

/-- A for-instance that is gone, and still has children, is forgotten. -/
theorem idle_tree_at_for (hnd : inv.resources.KeysNodup 2) {F : ObjectReference}
    (hnamed : F.Named) {forRes : ResourceCtx V}
    (hforRes : inv.resources.find (forPath F) = some forRes) :
    (idleScript ord inv).tree.filter (fun w => w.path = forPath F) =
      if (forDelta ord inv F forRes).deleteForCondition then [.clear (forPath F)] else [] := by
  rw [idleScript, Script.tree_flatMap, filter_flatMap_diffs hnd (ord.perm _ _) hforRes]
  · have hnil : (Script.flatMap (forDelta ord inv F forRes).deleteObjs fun x =>
        markOwnScript F x.ref x.obj "not ready").tree.filter (fun w => w.path = forPath F) = [] := by
      rw [List.filter_eq_nil_iff]
      intro w hw heq
      obtain ⟨x, -, hw⟩ := List.mem_flatMap.mp hw
      rw [path_of_mem_markOwnScript hw] at heq
      cases of_decide_eq_true heq
    rw [notReadyScript, Script.tree_append, List.filter_append, hnil, List.append_nil]
    unfold deleteForScript
    split_ifs
    · exact List.filter_eq_self.mpr fun w hw => by
        rw [List.mem_singleton.mp hw]
        exact decide_eq_true rfl
    · rfl
  · intro F' d hne hF' w hw
    rw [decide_eq_false_iff_not]
    intro heq
    rcases mem_tree_notReadyScript hw with rfl | ⟨ref, hown⟩
    · cases heq
      exact hne rfl
    · rw [hown] at heq
      cases heq

end Reading

omit [DecidableEq V]

/-- The configuration of a function that asks for no children. -/
def Config.mute (cfg : Config V) : Config V := { cfg with populateOwnResourcesFn := none }

namespace Sdk

variable {cfg : Config V} {ord : Order} {r : Sdk V}

/-! ## A function that asks for no children -/

theorem populating_mute (cfg : Config V) : cfg.mute.populating.populateOwnResourcesFn = none := by
  unfold Config.populating
  split_ifs <;> rfl

theorem wanted_mute (F : ObjectReference) : r.wanted cfg.mute F = .ok [] := by
  unfold wanted
  rw [populating_mute]

theorem not_wants_mute {F ref : ObjectReference} : ¬ r.Wants cfg.mute F ref := by
  rintro ⟨-, -, obj, hobj, -⟩
  simp only [wantedObjs, wanted_mute, List.not_mem_nil] at hobj

theorem wantedObj_mute (F ref : ObjectReference) : r.wantedObj cfg.mute F ref = none := by
  simp only [wantedObj, wantedObjs, wanted_mute, List.filter_nil, List.getLast?_nil,
    Option.map_none]

theorem fresh_mute (hfresh : r.inv.Fresh cfg) : r.inv.Fresh cfg.mute :=
  ⟨hfresh.resources, hfresh.ready, hfresh.role_for, hfresh.ownKind, hfresh.forRef_named,
    hfresh.updates⟩

theorem documented_mute (hdoc : r.Documented cfg) : r.Documented cfg.mute where
  types := hdoc.types
  forItem := hdoc.forItem
  forCondition := hdoc.forCondition
  ownItem := hdoc.ownItem
  ownCondition := hdoc.ownCondition
  wanted F _ obj hobj := by simp only [wantedObjs, wanted_mute, List.not_mem_nil] at hobj

/-- Nothing is filed as wanted. -/
theorem stage1Inv_mute (cfg : Config V) (ord : Order) (r : Sdk V) :
    stage1Inv cfg.mute ord r = (r.filed cfg).inv := by
  have hnil : (populateScript cfg.mute.populating ord (r.filed cfg).inv).tree = [] := by
    refine List.flatMap_eq_nil_iff.mpr fun e _ => ?_
    simp only [populateForScript, populating_mute]
  change (r.filed cfg).inv.write (populateScript cfg.mute.populating ord (r.filed cfg).inv).tree = _
  rw [hnil, Inv.write_nil]

/-! ## The package when a watch fails -/

/-- The inventory when a global watch has failed. -/
def idleInv (cfg : Config V) (r : Sdk V) : Inv V := { (r.filed cfg).inv with ready := false }

/-- What a failed watch does to the conditions. -/
def watchEdits (cfg : Config V) (r : Sdk V) (err : String) : List ConditionEdit :=
  if cfg.root then [.put (failedCondition err)]
  else (r.forObjs cfg).map fun o => failEdit o.ref err

theorem runWatches_of_fail (h : ¬ r.WatchesSucceed cfg ord) :
    ∃ err, (r.filed cfg).runWatches cfg ord =
      { r.filed cfg with
        inv := r.idleInv cfg
        kptfile := { r.kptfile with
          conditions := Keyed.applyAll (r.watchEdits cfg err) r.kptfile.conditions } } := by
  have hcall : ∃ err, (r.filed cfg).callGlobalWatches ord =
      ({ r.filed cfg with inv := r.idleInv cfg }, some err) := by
    unfold WatchesSucceed at h
    unfold callGlobalWatches at h ⊢
    dsimp only at h ⊢
    split at h
    · exact absurd rfl h
    · exact ⟨_, rfl⟩
  have hfail : ∀ (err : String) (os : List (KubeObject V)) (k : KptFile),
      os.foldl (fun k o => k.setConditionRefFailed o.ref err) k =
        { k with conditions := Keyed.applyAll (os.map fun o => failEdit o.ref err) k.conditions } := by
    intro err os
    induction os with
    | nil => exact fun k => rfl
    | cons o os ih =>
      intro k
      rw [List.foldl_cons, ih]
      rfl
  obtain ⟨err, hcall⟩ := hcall
  refine ⟨err, ?_⟩
  unfold runWatches watchEdits
  rw [hcall]
  cases cfg.root with
  | true => rfl
  | false =>
    simp only [Bool.false_eq_true, if_false, failForConditions, hfail]
    rfl

variable (hfresh : r.inv.Fresh cfg) (hdoc : r.Documented cfg)

section Entries

include hfresh

theorem keysNodup_idleInv : (r.idleInv cfg).resources.KeysNodup 2 := keysNodup_filed hfresh

theorem find_idle_own {F ref : ObjectReference} {res : ResourceCtx V} :
    (r.idleInv cfg).resources.find (ownPath F ref) = some res ↔
      r.Owns F ref ∧ res = r.childCtx cfg.mute F ref := by
  have h : (stage1Inv cfg.mute .insertion r).resources.find (ownPath F ref) = some res ↔
      (r.Owns F ref ∨ r.Wants cfg.mute F ref) ∧ res = r.childCtx cfg.mute F ref :=
    find_stage1_own (fresh_mute hfresh)
  simp only [stage1Inv_mute, not_wants_mute, or_false] at h
  exact h

include hdoc

theorem find_idle_for {F : ObjectReference} {res : ResourceCtx V} :
    (r.idleInv cfg).resources.find (forPath F) = some res ↔
      r.ForInstance cfg F ∧ res = r.forCtx cfg.mute F := by
  have h : (stage1Inv cfg.mute .insertion r).resources.find (forPath F) = some res ↔
      r.ForInstance cfg.mute F ∧ res = r.forCtx cfg.mute F :=
    find_stage1_for (fresh_mute hfresh) (documented_mute hdoc)
  rw [stage1Inv_mute] at h
  exact h

theorem documented_idleInv : (r.idleInv cfg).Documented := by
  have h : (stage1Inv cfg.mute .insertion r).Documented :=
    documented_stage1Inv (fresh_mute hfresh) (documented_mute hdoc)
  rw [stage1Inv_mute] at h
  exact ⟨h.keys, h.fors, h.owns, h.refs⟩

end Entries

section After

variable [DecidableEq V]

include hfresh hdoc

/-- A child that is not wanted does not make the diff panic. -/
theorem diffCompletes_idle : (r.idleInv cfg).DiffCompletes := by
  have hkeys := (documented_idleInv hfresh hdoc).keys
  rintro ⟨F, forRes⟩ hF ⟨ref, res⟩ hres
  have hfor := (find_idle_for hfresh hdoc).mp
    ((Inv.mem_get_top hkeys (k := .forGVKKind) nofun).mp hF)
  obtain ⟨-, rfl⟩ := (find_idle_own hfresh).mp ((Inv.mem_get_under hkeys (k := .ownGVKKind)
    nofun (role_ne_empty hfresh (ForInstance.role hfresh hfor.1))).mp hres)
  refine diffChild_ok_iff.mpr fun hpanic => ?_
  have hunmarks : unmarks (r.childCtx cfg.mute F ref) = false :=
    unmarks_eq_false (Or.inr (wantedObj_mute F ref))
  rw [hunmarks] at hpanic
  cases hpanic.2.2

/-- **Stage 1 when a watch fails** always completes. -/
theorem stage1_idle (hfail : ¬ r.WatchesSucceed cfg ord) :
    ∃ err r₁, ((r.filed cfg).runWatches cfg ord).stage1 cfg ord = .ok r₁ ∧
      r₁.kptfile.conditions = Keyed.applyAll (idleScript ord (r.idleInv cfg)).conditions
        (Keyed.applyAll (r.watchEdits cfg err) r.kptfile.conditions) ∧
      r₁.items = Keyed.upsertAll KubeObject.id (idleScript ord (r.idleInv cfg)).items r.items ∧
      r₁.inv = (r.idleInv cfg).write (idleScript ord (r.idleInv cfg)).tree := by
  obtain ⟨err, hrun⟩ := runWatches_of_fail hfail
  obtain ⟨r₁, hr₁, hw⟩ := @updateChildren_idle V _ ord ((r.filed cfg).runWatches cfg ord)
    (by rw [hrun]; rfl) (by rw [hrun]; exact diffCompletes_idle hfresh hdoc)
    (by rw [hrun]; exact Keyed.nodup_keys_applyAll hdoc.types _)
  refine ⟨err, r₁, ?_, ?_, ?_, ?_⟩
  · rw [← hr₁, stage1, hrun]
    rfl
  · rw [hw.conditions, hrun]
  · rw [hw.items, hrun]
    rfl
  · rw [hw.inv, hrun]

omit [DecidableEq V] hdoc in
/-- A failed watch touches the condition of the specializer, or those of the for objects. -/
theorem target_watchEdits {err : String} {e : ConditionEdit} (he : e ∈ r.watchEdits cfg err) :
    (cfg.root ∧ e.target = specializationConditionType) ∨
      ∃ F, (r.forObj F).isSome ∧ r.ForInstance cfg F ∧ e = failEdit F err := by
  unfold watchEdits at he
  split_ifs at he with hroot
  · rw [List.mem_singleton.mp he]
    exact Or.inl ⟨hroot, rfl⟩
  · obtain ⟨o, ho, rfl⟩ := List.mem_map.mp he
    obtain ⟨hmem, hgvk⟩ := List.mem_filter.mp ho
    have hrole : r.inv.role o.ref = some .forGVKKind :=
      (hfresh.role_for o.ref).mpr (of_decide_eq_true hgvk)
    have hobj : (r.forObj o.ref).isSome := by
      rw [forObj, List.getLast?_isSome]
      exact List.ne_nil_of_mem (List.mem_filter.mpr ⟨hmem, decide_eq_true rfl⟩)
    obtain ⟨o', ho'⟩ := Option.isSome_iff_exists.mp hobj
    exact Or.inr ⟨o.ref, hobj, forInstance_of_forObj hfresh ho' hrole, rfl⟩

omit hfresh hdoc in
/-- The condition of the specializer is about no documented reference. -/
theorem specialization_ne {ref : ObjectReference} (href : ref.Documented) :
    specializationConditionType ≠ getConditionType ref := by
  intro heq
  have hdecode := decode_specialization
  rw [heq, href.decode] at hdecode
  rw [hdecode] at href
  exact href.kind_ne rfl

omit [DecidableEq V] in
/-- A failed watch does not touch the condition of a child. -/
theorem lookup_watch_own {F ref : ObjectReference} (hown : r.Owns F ref) (err : String) :
    Keyed.lookup Condition.type (getConditionType ref)
        (Keyed.applyAll (r.watchEdits cfg err) r.kptfile.conditions) =
      Keyed.lookup Condition.type (getConditionType ref) r.kptfile.conditions := by
  refine Keyed.lookup_applyAll_of_forall_ne (fun e he => ?_) _
  rcases target_watchEdits hfresh he with ⟨-, htarget⟩ | ⟨G, hobj, hG, rfl⟩
  · rw [htarget]
    exact specialization_ne (hdoc.child (Or.inl hown)).2
  · obtain ⟨o, ho⟩ := Option.isSome_iff_exists.mp hobj
    exact type_for_ne_own hfresh hdoc hG (hdoc.forObj ho (ForInstance.role hfresh hG))
      (Or.inl hown)

end After

end Sdk

end Nephio.CondKptSdk
