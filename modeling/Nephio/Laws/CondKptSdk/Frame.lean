import Nephio.Laws.CondKptSdk.Desired
import Nephio.Laws.CondKptSdk.Touches

/-!
# Laws.CondKptSdk.Frame: the frame of a Run

Which conditions and items a Run can write at all (`MayWriteType`, `MayWriteItem`), for any package:
condition types need not be distinct, nor references well formed. Everything else is as it was
(`run_frame`), and so are all watched objects.
-/

namespace Nephio.CondKptSdk

variable {V : Type}

/-! ## Stage 1 -/

theorem target_populateScript {cfg : Config V} {ord : Order} {inv : Inv V}
    (hnd : inv.resources.KeysNodup 2) {e : ConditionEdit}
    (h : e ∈ (populateScript cfg ord inv).conditions) :
    ∃ F, (inv.resources.find (forPath F)).isSome ∧ e.target = getConditionType F := by
  obtain ⟨⟨F, res⟩, hmem, he⟩ := List.mem_flatMap.mp h
  have hfind := (mem_range_for hnd).mp hmem
  exact ⟨F, by rw [hfind]; rfl, Sdk.target_populateForScript he⟩

namespace Sdk

section Stage1

variable [DecidableEq V] {cfg : Config V} {ord : Order} {r r₁ : Sdk V} (hfresh : r.inv.Fresh cfg)

include hfresh

/-- What the update of the children touches, after they are populated. -/
theorem updateChildren_of_stage1 (h : (r.filed cfg).stage1 cfg ord = .ok r₁) :
    Touches (readyScript ord (stage1Inv cfg ord r))
      ((r.filed cfg).populateChildren cfg.populating ord) r₁ := by
  rw [stage1_filed hfresh] at h
  obtain ⟨-, htouches⟩ := updateChildren_touches h
  rw [ready_populateChildren hfresh, if_pos rfl, inv_populateChildren] at htouches
  exact htouches

theorem stage1_touches (h : (r.filed cfg).stage1 cfg ord = .ok r₁) :
    Touches (populateScript cfg.populating ord (r.filed cfg).inv ++
      readyScript ord (stage1Inv cfg ord r)) (r.filed cfg) r₁ :=
  (populateChildren_writes cfg.populating ord (r.filed cfg)).touches.trans
    (updateChildren_of_stage1 hfresh h)

theorem inv_of_stage1 (h : (r.filed cfg).stage1 cfg ord = .ok r₁) :
    r₁.inv = (stage1Inv cfg ord r).write (readyScript ord (stage1Inv cfg ord r)).tree := by
  rw [(stage1_touches hfresh h).inv, Script.tree_append, ← Inv.write_write]
  rfl

omit hfresh in
theorem stage1_idle_touches (hfail : ¬ r.WatchesSucceed cfg ord)
    (h : ((r.filed cfg).runWatches cfg ord).stage1 cfg ord = .ok r₁) :
    ∃ err, Touches ({ conditions := r.watchEdits cfg err } ++ idleScript ord (r.idleInv cfg))
      { r.filed cfg with inv := r.idleInv cfg } r₁ := by
  obtain ⟨err, hrun⟩ := runWatches_of_fail hfail
  refine ⟨err, ?_⟩
  rw [hrun] at h
  have hwatch : Writes { conditions := r.watchEdits cfg err }
      { r.filed cfg with inv := r.idleInv cfg }
      { r.filed cfg with
        inv := r.idleInv cfg
        kptfile := { r.kptfile with
          conditions := Keyed.applyAll (r.watchEdits cfg err) r.kptfile.conditions } } :=
    ⟨rfl, rfl, rfl⟩
  obtain ⟨-, htouches⟩ := updateChildren_touches h
  exact hwatch.touches.trans htouches

/-- The edits of stage 1 are at for-instances and at children. -/
theorem target_stage1 {e : ConditionEdit}
    (h : e ∈ (populateScript cfg.populating ord (r.filed cfg).inv ++
      readyScript ord (stage1Inv cfg ord r)).conditions) :
    (∃ F, r.ForInstance cfg F ∧ e.target = getConditionType F) ∨
      ∃ F ref, (r.Owns F ref ∨ r.Wants cfg F ref) ∧ e.target = getConditionType ref := by
  rcases List.mem_append.mp h with h | h
  · obtain ⟨F, hF, htarget⟩ := target_populateScript (keysNodup_filed hfresh) h
    exact Or.inl ⟨F, (isSome_filed_for hfresh).mp hF, htarget⟩
  · rcases target_readyScript (keysNodup_stage1Inv hfresh) h with ⟨F, hF, -, htarget⟩ |
      ⟨F, ref, href, htarget⟩
    · exact Or.inl ⟨F, (isSome_stage1_for hfresh).mp hF, htarget⟩
    · exact Or.inr ⟨F, ref, (isSome_stage1_own hfresh).mp href, htarget⟩

theorem isSome_of_stage1 (h : (r.filed cfg).stage1 cfg ord = .ok r₁) (p : List SdkObjectReference) :
    (r₁.inv.resources.find p).isSome ↔ ((stage1Inv cfg ord r).resources.find p).isSome := by
  rw [inv_of_stage1 hfresh h]
  exact isSome_readyScript (keysNodup_stage1Inv hfresh) p

theorem keysNodup_of_stage1 (h : (r.filed cfg).stage1 cfg ord = .ok r₁) :
    r₁.inv.resources.KeysNodup 2 := by
  rw [inv_of_stage1 hfresh h]
  exact TreeWrite.keysNodup_applyAll (keysNodup_stage1Inv hfresh) _

/-- The for condition that the inventory holds after stage 1 was read under a type that reads as the
for-instance, or was set by the sdk. -/
theorem forCondition_of_stage1 (h : (r.filed cfg).stage1 cfg ord = .ok r₁) {F : ObjectReference}
    (hF : r.ForInstance cfg F) {c : Condition}
    (hc : (r₁.inv.resources.ctxAt (forPath F)).existingCondition = some c) :
    c.type = getConditionType F ∨
      (c ∈ r.kptfile.conditions ∧ getGVKNFromConditionType c.type = F) := by
  have hrole := ForInstance.role hfresh hF
  have hbefore : ∀ {c}, ((stage1Inv cfg ord r).resources.ctxAt (forPath F)).existingCondition =
      some c → c.type = getConditionType F ∨
        (c ∈ r.kptfile.conditions ∧ getGVKNFromConditionType c.type = F) := by
    intro c hc
    have hfiled : ((r.filed cfg).inv.resources.ctxAt (forPath F)).existingCondition =
        r.conditionOf F := by
      rw [ctxAt_filed hfresh, filedCtx, ← conditionAt_for hrole]
    have hread : ∀ {c}, r.conditionOf F = some c →
        c ∈ r.kptfile.conditions ∧ getGVKNFromConditionType c.type = F := by
      intro c hc
      obtain ⟨hmem, heq⟩ := List.mem_filter.mp (List.mem_of_getLast? hc)
      exact ⟨hmem, of_decide_eq_true heq⟩
    rw [stage1Inv, ctxAt_populate_for (keysNodup_filed hfresh)
      ((isSome_filed_for hfresh).mpr hF)] at hc
    split at hc
    · exact Or.inr (hread (hfiled.symm.trans hc))
    · split_ifs at hc
      · left
        rw [← Option.some.inj hc]
        rfl
      · exact Or.inr (hread (hfiled.symm.trans hc))
  have hsome : ((stage1Inv cfg ord r).resources.find (forPath F)).isSome :=
    (isSome_stage1_for hfresh).mpr hF
  obtain ⟨forRes, hforRes⟩ := Option.isSome_iff_exists.mp hsome
  rw [inv_of_stage1 hfresh h, Inv.resources_write, TreeWrite.ctxAt_applyAll] at hc
  by_cases hnamed : F.Named
  · rw [tree_at_for (keysNodup_stage1Inv hfresh) hnamed hforRes] at hc
    split_ifs at hc
    · left
      rw [← Option.some.inj hc]
      rfl
    · exact hbefore hc
  · rw [List.filter_eq_nil_iff.mpr] at hc
    · exact hbefore hc
    · intro w hw heq
      obtain ⟨F', forRes', -, hw⟩ := exists_of_mem_flatMap_diffs (keysNodup_stage1Inv hfresh)
        (perm_sortByRef _ _) hw
      rcases path_of_mem_tree hw with ⟨hF', hpath⟩ | ⟨s, -, -, hpath⟩
      · rw [hpath] at heq
        cases of_decide_eq_true heq
        exact hnamed hF'
      · rw [hpath] at heq
        cases of_decide_eq_true heq

/-- The edits of a for-instance's turn in stage 2 are at its condition, or at one of an object that
was returned for it. -/
theorem target_updateFor (h : (r.filed cfg).stage1 cfg ord = .ok r₁)
    {updateFn : UpdateResourceFn V} {F : ObjectReference} {ctx : ReadyCtx V}
    (hctx : (F, ctx) ∈ r₁.inv.getReadyMap) {e : ConditionEdit}
    (he : e ∈ (updateForScript updateFn ord r₁.inv F ctx).conditions) :
    r.ForInstance cfg F ∧
      (e.target = getConditionType F ∨ getGVKNFromConditionType e.target = F ∨
        ∃ obj ∈ returnedObjs updateFn ord F ctx, r.inv.role obj.ref = some .ownGVKKind ∧
          e.target = getConditionType obj.ref) := by
  obtain ⟨forRes, hfind, rfl⟩ := (mem_getReadyMap (keysNodup_of_stage1 hfresh h)).mp hctx
  have hF : r.ForInstance cfg F :=
    (isSome_stage1_for hfresh).mp ((isSome_of_stage1 hfresh h (forPath F)).mp (by rw [hfind]; rfl))
  refine ⟨hF, ?_⟩
  rcases mem_conditions_updateForScript he with ⟨err, rfl⟩ | ⟨obj, hobj, he⟩
  · exact Or.inl rfl
  · rcases (target_updateResourceScript he).2 with ⟨c, hc, heq⟩ | ⟨-, -, heq⟩ | ⟨-, hrole, -, heq⟩
    · -- the condition of the inventory is written back under its own type
      have hc : (r₁.inv.resources.ctxAt (forPath F)).existingCondition = some c := by
        rw [← (Resources.find_eq_some_iff.mp hfind).2]
        exact hc
      rw [heq]
      exact (forCondition_of_stage1 hfresh h hF hc).imp_right fun hread => Or.inl hread.2
    · exact Or.inl heq
    · rw [inv_of_stage1 hfresh h] at hrole
      exact Or.inr (Or.inr ⟨obj, hobj, hrole, heq⟩)

theorem target_stage2 (h : (r.filed cfg).stage1 cfg ord = .ok r₁) {updateFn : UpdateResourceFn V}
    {e : ConditionEdit} (he : e ∈ (stage2Script updateFn ord r₁.inv).conditions) :
    ∃ F ctx, (F, ctx) ∈ r₁.inv.getReadyMap ∧ r.ForInstance cfg F ∧ ctx.failed = false ∧
      (e.target = getConditionType F ∨ getGVKNFromConditionType e.target = F ∨
        ∃ obj ∈ returnedObjs updateFn ord F ctx, r.inv.role obj.ref = some .ownGVKKind ∧
          e.target = getConditionType obj.ref) := by
  obtain ⟨⟨F, ctx⟩, hctx, he⟩ := List.mem_flatMap.mp he
  have hmem : (F, ctx) ∈ r₁.inv.getReadyMap := (ord.perm _ _).mem_iff.mp hctx
  obtain ⟨hF, htarget⟩ := target_updateFor hfresh h hmem he
  exact ⟨F, ctx, hmem, hF, (ready_of_mem_updateForScript he).2, htarget⟩

end Stage1

/-! ## What a Run can write -/

section MayWrite

variable [DecidableEq V]

/-- The objects that `UpdateResourceFn` returns in a Run. -/
def returned (cfg : Config V) (ord : Order) (r : Sdk V) : List (KubeObject V) :=
  match (((r.ensured cfg).filed cfg).runWatches cfg ord).stage1 cfg ord, cfg.updateResourceFn with
  | .ok r₁, some updateFn =>
    if r₁.inv.ready then
      r₁.inv.getReadyMap.flatMap fun e => returnedObjs updateFn ord e.1 e.2
    else []
  | _, _ => []

omit [DecidableEq V] in
/-- An item that the function owns: of an own GVK, and a for-instance is its owner. -/
def ChildItem (r : Sdk V) (o : KubeObject V) : Prop :=
  r.inv.role o.ref = some .ownGVKKind ∧
    r.inv.role (getGVKNFromConditionType o.owner) = some .forGVKKind

/-- The types of the conditions that a Run can write: those of the for-instances in the inventory,
of the children they have or want, and of the own objects that stage 2 returns. -/
def MayWriteType (cfg : Config V) (ord : Order) (r : Sdk V) (t : String) : Prop :=
  (cfg.root ∧ t = specializationConditionType) ∨
  (∃ F, (r.ensured cfg).ForInstance cfg F ∧
    (t = getConditionType F ∨ getGVKNFromConditionType t = F)) ∨
  (∃ F ref, (r.Owns F ref ∨ r.Wants cfg F ref) ∧ t = getConditionType ref) ∨
  ∃ obj ∈ r.returned cfg ord, r.inv.role obj.ref = some .ownGVKKind ∧ t = getConditionType obj.ref

/-- The items that a Run can write: for objects, children that for-instances have or want, and what
stage 2 returns. -/
def MayWriteItem (cfg : Config V) (ord : Order) (r : Sdk V) (o : KubeObject V) : Prop :=
  r.inv.role o.ref = some .forGVKKind ∨ (∃ o' ∈ r.items, o'.id = o.id ∧ r.ChildItem o') ∨
    (∃ F, r.Wants cfg F o.ref) ∨
    ∃ obj ∈ r.returned cfg ord, obj.id = o.id ∧
      (r.inv.role obj.ref = some .forGVKKind ∨ r.inv.role obj.ref = some .ownGVKKind)

end MayWrite

theorem ref_eq_of_id {a b : KubeObject V} (h : a.id = b.id) : a.ref = b.ref := by
  simp only [KubeObject.id, Prod.mk.injEq] at h
  simp only [KubeObject.ref, h]

/-- Writing objects leaves an item of another identity alone. -/
theorem filter_upsertAll_of_ne {os items : List (KubeObject V)} {o : KubeObject V}
    (h : ∀ o' ∈ os, o'.id ≠ o.id) :
    (Keyed.upsertAll KubeObject.id os items).filter (fun x => x.id = o.id) =
      items.filter fun x => x.id = o.id := by
  have hid : ∀ a b : KubeObject V, a.id = b.id → decide (a.id = o.id) = decide (b.id = o.id) :=
    fun a b hab => by rw [hab]
  rw [Keyed.filter_upsertAll _ hid, List.filter_eq_nil_iff.mpr]
  · rfl
  · intro o' ho' heq
    exact h o' ho' (of_decide_eq_true heq)

section Written

variable [DecidableEq V] {cfg : Config V} {ord : Order} {r r₁ : Sdk V} (hfresh : r.inv.Fresh cfg)

include hfresh

/-- An object that stage 1 writes is a child that a for-instance has or wants. -/
theorem mem_items_stage1 {o : KubeObject V}
    (ho : o ∈ (readyScript ord (stage1Inv cfg ord r)).items) :
    (∃ o' ∈ r.items, o'.id = o.id ∧ r.ChildItem o') ∨ ∃ F, r.Wants cfg F o.ref := by
  have hnd : (stage1Inv cfg ord r).resources.KeysNodup 2 := keysNodup_stage1Inv hfresh
  obtain ⟨F, forRes, -, ho⟩ := exists_of_mem_flatMap_diffs hnd (perm_sortByRef _ _) ho
  rw [items_diffScript] at ho
  obtain ⟨s, hs, ho⟩ := List.mem_flatMap.mp ho
  obtain ⟨hnamed, ho⟩ := mem_items_script ho
  obtain ⟨res, hres, hs⟩ := exists_of_mem_steps hnd (ne_empty_of_named hnamed) hs
  have hsome : ((stage1Inv cfg ord r).resources.find (ownPath F s.1)).isSome := by rw [hres]; rfl
  obtain ⟨href, hF⟩ := roles_of_isSome_own hfresh hsome
  obtain ⟨-, rfl⟩ := (find_stage1_own hfresh).mp hres
  rcases written_childDelta hs ho with hnew | ⟨existing, hexisting, rfl⟩
  · obtain ⟨obj, hobj, rfl⟩ := Option.map_eq_some_iff.mp (show r.wantedObj cfg F s.1 = some o from hnew)
    obtain ⟨hmem, hobjref⟩ := List.mem_filter.mp (List.mem_of_getLast? hobj)
    have hobjref : obj.ref = s.1 := of_decide_eq_true hobjref
    exact Or.inr ⟨F, by rw [← hobjref] at href; exact ⟨href, hF, obj, hmem, rfl⟩⟩
  · obtain ⟨hmem, hexistingref, howner⟩ := mem_of_ownedItem hexisting
    exact Or.inl ⟨existing, hmem, rfl, hexistingref ▸ href, howner ▸ hF⟩

/-- So is one that is written when a watch fails. -/
theorem mem_items_idle {o : KubeObject V} (ho : o ∈ (idleScript ord (r.idleInv cfg)).items) :
    ∃ o' ∈ r.items, o'.id = o.id ∧ r.ChildItem o' := by
  obtain ⟨F, ref, forRes, res, hres, -, x, hx, rfl⟩ := mem_items_idleScript (keysNodup_idleInv hfresh)
    ho
  obtain ⟨⟨href, hF, -⟩, rfl⟩ := (find_idle_own hfresh).mp hres
  obtain ⟨hmem, hxref, howner⟩ := mem_of_ownedItem (objs_childDelta.2 x hx)
  exact ⟨x.obj, hmem, rfl, hxref ▸ href, howner ▸ hF⟩

/-- The for objects that the inventory holds when a watch has failed. -/
theorem forObj_of_idle {F : ObjectReference} (hF : r.inv.role F = some .forGVKKind) :
    (((r.idleInv cfg).write (idleScript ord (r.idleInv cfg)).tree).resources.ctxAt
      (forPath F)).existingResource = r.forObj F := by
  have hfiled : ((r.idleInv cfg).resources.ctxAt (forPath F)).existingResource = r.forObj F := by
    rw [← itemAt_for hF]
    exact congrArg ResourceCtx.existingResource (ctxAt_filed hfresh (forPath F))
  have hkeep : ∀ (ws : List (TreeWrite V)) (ctx : ResourceCtx V),
      (∀ w ∈ ws, w = .clear (forPath F)) →
        (ws.foldl (fun ctx w => w.on ctx) ctx).existingResource = ctx.existingResource := by
    intro ws
    induction ws with
    | nil => exact fun ctx _ => rfl
    | cons w ws ih =>
      intro ctx hws
      rw [List.foldl_cons, ih _ fun w' hw' => hws w' (List.mem_cons_of_mem _ hw'),
        hws w List.mem_cons_self]
      rfl
  rw [Inv.resources_write, TreeWrite.ctxAt_applyAll, hkeep, hfiled]
  intro w hw
  obtain ⟨hw, hpath⟩ := List.mem_filter.mp hw
  have hpath : w.path = forPath F := of_decide_eq_true hpath
  obtain ⟨F', forRes, -, hw⟩ := exists_of_mem_flatMap_diffs (keysNodup_idleInv hfresh)
    (ord.perm _ _) hw
  rcases mem_tree_notReadyScript hw with rfl | ⟨ref, hown⟩
  · exact congrArg TreeWrite.clear hpath
  · rw [hown] at hpath
    cases hpath

/-- Then no for-instance is added to the inventory. -/
theorem isSome_idle {F : ObjectReference} :
    (((r.idleInv cfg).write (idleScript ord (r.idleInv cfg)).tree).resources.find
      (forPath F)).isSome ↔ r.ForInstance cfg F := by
  rw [Inv.resources_write, TreeWrite.isSome_find_applyAll, ← isSome_filed_for hfresh]
  refine or_iff_left_of_imp ?_
  rintro ⟨w, hw, hreach⟩
  obtain ⟨F', forRes, hforRes, hw⟩ := exists_of_mem_flatMap_diffs (keysNodup_idleInv hfresh)
    (ord.perm _ _) hw
  rcases mem_tree_notReadyScript hw with rfl | ⟨ref, hown⟩
  · cases hreach
  · cases w with
    | clear path => cases hreach
    | set kc x newResource failed path =>
      obtain rfl : path = ownPath F' ref := hown
      obtain ⟨heq, -⟩ := List.cons_prefix_cons.mp hreach
      cases heq
      exact hforRes ▸ rfl

/-- When the function is not ready, stage 2 removes for objects only. -/
theorem items_notReady {r₂ : Sdk V}
    (hinv : r₁.inv = (r.idleInv cfg).write (idleScript ord (r.idleInv cfg)).tree)
    (h : r₁.updateResources cfg ord = .ok r₂) {o : KubeObject V}
    (ho : r.inv.role o.ref ≠ some .forGVKKind) :
    r₂.items.filter (fun x => x.id = o.id) = r₁.items.filter fun x => x.id = o.id := by
  have hready : r₁.inv.ready = false := by rw [hinv]; rfl
  have hnd : r₁.inv.resources.KeysNodup 2 := by
    rw [hinv]
    exact TreeWrite.keysNodup_applyAll (keysNodup_filed hfresh) _
  unfold updateResources at h
  simp only [hready, Bool.false_eq_true, if_false] at h
  refine Fallible.foldlM_invariant (fun s : Sdk V =>
    s.items.filter (fun x => x.id = o.id) = r₁.items.filter fun x => x.id = o.id) ?_ rfl h
  rintro s s' ⟨F, ctx⟩ hmem hs hstep
  cases hobj : ctx.forObj with
  | none =>
    rw [hobj] at hstep
    exact Except.ok.inj hstep ▸ hs
  | some forObj =>
    simp only [hobj] at hstep
    split_ifs at hstep
    · -- the object has the for role, so the items of `o` are not among those removed
      obtain ⟨forRes, hfind, rfl⟩ := (mem_getReadyMap hnd).mp ((ord.perm _ _).mem_iff.mp hmem)
      have hfor : r.ForInstance cfg F := by
        rw [hinv] at hfind
        exact (isSome_idle hfresh).mp (by rw [hfind]; rfl)
      have hrole : r.inv.role forObj.ref = some .forGVKKind := by
        have hctx : (r₁.inv.resources.ctxAt (forPath F)).existingResource = some forObj := by
          rw [← (Resources.find_eq_some_iff.mp hfind).2]
          exact hobj
        rw [hinv, forObj_of_idle hfresh (ForInstance.role hfresh hfor)] at hctx
        rw [(mem_of_forObj hctx).2]
        exact ForInstance.role hfresh hfor
      obtain ⟨items, hitems, hs'⟩ := Fallible.bind_eq_ok.mp hstep
      rw [← Except.ok.inj hs', ← hs]
      have hkept := congrArg (List.filter fun x : KubeObject V => x.id = o.id)
        (Go.filter_removeLoop hitems)
      have hother : ∀ os : List (KubeObject V), (os.filter fun x => !x.isGVKNNEqual forObj).filter
          (fun x => x.id = o.id) = os.filter fun x => x.id = o.id := by
        intro os
        rw [List.filter_filter]
        refine List.filter_congr fun x _ => ?_
        by_cases hx : x.id = o.id
        · have hne : x.isGVKNNEqual forObj = false := by
            rw [Bool.eq_false_iff]
            intro heq
            have href : x.ref = forObj.ref := by
              simp only [KubeObject.isGVKNNEqual, decide_eq_true_eq] at heq
              simp only [KubeObject.ref, heq]
            rw [ref_eq_of_id hx] at href
            exact ho (href ▸ hrole)
          simp only [hx, decide_true, hne, Bool.not_false, Bool.and_self]
        · simp only [hx, decide_false, Bool.false_and]
      rw [hother, hother] at hkept
      exact hkept
    · exact Except.ok.inj hstep ▸ hs

end Written

/-! ## The frame -/

section Run

variable [DecidableEq V] {cfg : Config V} {ord : Order} {r r₁ r₂ : Sdk V}
  (hfresh : r.inv.Fresh cfg)
  (h₁ : (((r.ensured cfg).filed cfg).runWatches cfg ord).stage1 cfg ord = .ok r₁)
  (h₂ : r₁.updateResources cfg ord = .ok r₂)

omit [DecidableEq V] in
theorem fresh_ensured (hfresh : r.inv.Fresh cfg) : (r.ensured cfg).inv.Fresh cfg := by
  rw [inv_ensured]
  exact hfresh

theorem filter_ensured_frame {t : String} (ht : ¬ r.MayWriteType cfg ord t) :
    (r.ensured cfg).kptfile.conditions.filter (fun c => c.type = t) =
      r.kptfile.conditions.filter fun c => c.type = t := by
  by_cases hroot : cfg.root
  · refine filter_ensured (decide_eq_false fun heq => ht (Or.inl ⟨hroot, ?_⟩))
    exact heq.symm
  · unfold ensured
    rw [if_neg hroot]

include h₁ in
theorem mem_returned (hready : r₁.inv.ready = true) {updateFn : UpdateResourceFn V}
    (hfn : cfg.updateResourceFn = some updateFn) {F : ObjectReference} {ctx : ReadyCtx V}
    (hctx : (F, ctx) ∈ r₁.inv.getReadyMap) {obj : KubeObject V}
    (hobj : obj ∈ returnedObjs updateFn ord F ctx) : obj ∈ r.returned cfg ord := by
  simp only [returned, h₁, hfn, hready, if_true]
  exact List.mem_flatMap.mpr ⟨(F, ctx), hctx, hobj⟩

include hfresh h₁

theorem stage1_items_frame {o : KubeObject V} (ho : ¬ r.MayWriteItem cfg ord o) :
    r₁.items.filter (fun x => x.id = o.id) = r.items.filter fun x => x.id = o.id := by
  have hs := fresh_ensured hfresh
  have hchild : ∀ x ∈ (r.ensured cfg).items, x.id = o.id → ¬ (r.ensured cfg).ChildItem x := by
    intro x hx hid hchild
    rw [items_ensured] at hx
    unfold ChildItem at hchild
    rw [inv_ensured] at hchild
    exact ho (Or.inr (Or.inl ⟨x, hx, hid, hchild⟩))
  by_cases hw : (r.ensured cfg).WatchesSucceed cfg ord
  · rw [runWatches_of_succeed hw] at h₁
    rw [(stage1_touches hs h₁).items, filter_upsertAll_of_ne]
    · exact congrArg _ items_ensured
    · intro o' ho' heq
      rw [Script.items_append, items_populateScript, List.nil_append] at ho'
      rcases mem_items_stage1 hs ho' with ⟨x, hx, hid, hown⟩ | ⟨F, hwants⟩
      · exact hchild x hx (hid.trans heq) hown
      · rw [ref_eq_of_id heq] at hwants
        exact ho (Or.inr (Or.inr (Or.inl ⟨F, wants_ensured.mp hwants⟩)))
  · obtain ⟨err, htouches⟩ := stage1_idle_touches hw h₁
    rw [htouches.items, filter_upsertAll_of_ne]
    · exact congrArg _ items_ensured
    · intro o' ho' heq
      obtain ⟨x, hx, hid, hown⟩ := mem_items_idle hs ho'
      exact hchild x hx (hid.trans heq) hown

theorem stage1_conditions_frame {t : String} (ht : ¬ r.MayWriteType cfg ord t) :
    r₁.kptfile.conditions.filter (fun c => c.type = t) =
      r.kptfile.conditions.filter fun c => c.type = t := by
  have hs := fresh_ensured hfresh
  have hfor : ∀ F, (r.ensured cfg).ForInstance cfg F → getConditionType F ≠ t :=
    fun F hF heq => ht (Or.inr (Or.inl ⟨F, hF, Or.inl heq.symm⟩))
  have hown : ∀ F ref, (r.ensured cfg).Owns F ref ∨ (r.ensured cfg).Wants cfg F ref →
      getConditionType ref ≠ t := by
    intro F ref hown heq
    rw [owns_ensured hfresh, wants_ensured] at hown
    exact ht (Or.inr (Or.inr (Or.inl ⟨F, ref, hown, heq.symm⟩)))
  rw [← filter_ensured_frame ht]
  by_cases hw : (r.ensured cfg).WatchesSucceed cfg ord
  · rw [runWatches_of_succeed hw] at h₁
    refine (stage1_touches hs h₁).conditions t fun e he => ?_
    rcases target_stage1 hs he with ⟨F, hF, htarget⟩ | ⟨F, ref, href, htarget⟩
    · exact htarget ▸ hfor F hF
    · exact htarget ▸ hown F ref href
  · obtain ⟨err, htouches⟩ := stage1_idle_touches hw h₁
    refine htouches.conditions t fun e he => ?_
    rcases List.mem_append.mp he with he | he
    · rcases target_watchEdits hs he with ⟨hroot, htarget⟩ | ⟨F, -, hF, rfl⟩
      · exact htarget ▸ fun heq => ht (Or.inl ⟨hroot, heq.symm⟩)
      · exact hfor F hF
    · rcases target_idleScript (keysNodup_idleInv hs) he with ⟨F, forRes, hforRes, -, -, rfl⟩ |
        ⟨F, ref, res, hres, -, rfl⟩
      · exact hfor F ((isSome_filed_for hs).mp (by
          rw [show (filed cfg (r.ensured cfg)).inv.resources.find (forPath F) = some forRes from
            hforRes]
          rfl))
      · exact hown F ref (Or.inl ((find_idle_own hs).mp hres).1)

include h₂

theorem stage2_items_frame {o : KubeObject V} (ho : ¬ r.MayWriteItem cfg ord o) :
    r₂.items.filter (fun x => x.id = o.id) = r₁.items.filter fun x => x.id = o.id := by
  have hs := fresh_ensured hfresh
  by_cases hw : (r.ensured cfg).WatchesSucceed cfg ord
  · have hstage := h₁
    rw [runWatches_of_succeed hw] at hstage
    have hinv := inv_of_stage1 hs hstage
    have hready : r₁.inv.ready = true := by
      rw [hinv]
      exact hs.ready
    obtain ⟨updateFn, hfn⟩ := Option.isSome_iff_exists.mp hfresh.updates
    obtain ⟨r₂', hr₂', hwrites⟩ := updateResources_writes hfn ord hready
    obtain rfl : r₂' = r₂ := Except.ok.inj (hr₂'.symm.trans h₂)
    rw [hwrites.items, filter_upsertAll_of_ne]
    intro o' ho' heq
    obtain ⟨⟨F, ctx⟩, hctx, ho'⟩ := List.mem_flatMap.mp ho'
    obtain ⟨hret, hrole⟩ := mem_items_updateForScript ho'
    rw [hinv] at hrole
    refine ho (Or.inr (Or.inr (Or.inr ⟨o', ?_, heq, ?_⟩)))
    · exact mem_returned h₁ hready hfn ((ord.perm _ _).mem_iff.mp hctx) hret
    · have hroles : (r.ensured cfg).inv = r.inv := inv_ensured
      rw [← hroles]
      exact hrole
  · obtain ⟨err, htouches⟩ := stage1_idle_touches hw h₁
    refine items_notReady hs ?_ h₂ ?_
    · rw [htouches.inv]
      rfl
    · rw [inv_ensured]
      exact fun hrole => ho (Or.inl hrole)

theorem stage2_conditions_frame {t : String} (ht : ¬ r.MayWriteType cfg ord t) :
    r₂.kptfile.conditions.filter (fun c => c.type = t) =
      r₁.kptfile.conditions.filter fun c => c.type = t := by
  have hs := fresh_ensured hfresh
  by_cases hw : (r.ensured cfg).WatchesSucceed cfg ord
  · have hstage := h₁
    rw [runWatches_of_succeed hw] at hstage
    have hinv := inv_of_stage1 hs hstage
    have hready : r₁.inv.ready = true := by
      rw [hinv]
      exact hs.ready
    obtain ⟨updateFn, hfn⟩ := Option.isSome_iff_exists.mp hfresh.updates
    obtain ⟨r₂', hr₂', hwrites⟩ := updateResources_writes hfn ord hready
    obtain rfl : r₂' = r₂ := Except.ok.inj (hr₂'.symm.trans h₂)
    refine hwrites.touches.conditions t fun e he htarget => ?_
    obtain ⟨F, ctx, hctx, hF, -, heq | heq | ⟨obj, hobj, hrole, heq⟩⟩ := target_stage2 hs hstage he
    · exact ht (Or.inr (Or.inl ⟨F, hF, Or.inl (htarget.symm.trans heq)⟩))
    · exact ht (Or.inr (Or.inl ⟨F, hF, Or.inr (htarget ▸ heq)⟩))
    · rw [inv_ensured] at hrole
      exact ht (Or.inr (Or.inr (Or.inr ⟨obj, mem_returned h₁ hready hfn hctx hobj, hrole,
        htarget.symm.trans heq⟩)))
  · obtain ⟨err, htouches⟩ := stage1_idle_touches hw h₁
    have hready : r₁.inv.ready = false := by
      rw [htouches.inv]
      rfl
    rw [(updateResources_notReady hready h₂).1]

omit hfresh h₁ h₂ in
theorem readiness_conditions_frame {t : String} (ht : ¬ r.MayWriteType cfg ord t) :
    (r₂.runReadiness cfg).kptfile.conditions.filter (fun c => c.type = t) =
      r₂.kptfile.conditions.filter fun c => c.type = t := by
  unfold runReadiness
  split_ifs with hroot
  · refine (setConditions_writes r₂ _).touches.conditions t fun e he htarget => ?_
    refine ht (Or.inl ⟨(Bool.and_eq_true_iff.mp hroot).1, ?_⟩)
    rw [← htarget, List.mem_singleton.mp he]
    split_ifs <;> rfl
  · rfl

omit [DecidableEq V] hfresh h₁ h₂ in
theorem getCondition_runReadiness {t : String} (ht : specializationConditionType ≠ t) :
    (r₂.runReadiness cfg).kptfile.getCondition t = r₂.kptfile.getCondition t := by
  unfold runReadiness
  split_ifs with hroot
  · refine (setConditions_writes r₂ _).touches.lookup fun e he => ?_
    rw [List.mem_singleton.mp he]
    split_ifs <;> exact ht
  · rfl

omit [DecidableEq V] hfresh h₁ h₂ in
theorem items_runReadiness : (r₂.runReadiness cfg).items = r₂.items := by
  unfold runReadiness
  split_ifs <;> rfl

omit hfresh h₁ h₂ in
theorem not_mayWriteItem_of_role {o : KubeObject V} (hfor : r.inv.role o.ref ≠ some .forGVKKind)
    (hown : r.inv.role o.ref ≠ some .ownGVKKind) : ¬ r.MayWriteItem cfg ord o := by
  rintro (hrole | ⟨x, -, hid, hrole, -⟩ | ⟨F, hrole, -⟩ | ⟨x, -, hid, hrole⟩)
  · exact hfor hrole
  · exact hown (ref_eq_of_id hid ▸ hrole)
  · exact hown hrole
  · rw [ref_eq_of_id hid] at hrole
    exact hrole.elim hfor hown

end Run

/-- A Run that completes leaves alone every item and every condition it cannot write, and with them
all watched objects. -/
theorem run_frame [DecidableEq V] {cfg : Config V} {ord : Order} {r r' : Sdk V}
    (hinv : newInventory cfg = .ok r.inv) (h : r.run cfg ord = .ok r') :
    (∀ o : KubeObject V, ¬ r.MayWriteItem cfg ord o →
      r'.items.filter (fun x => x.id = o.id) = r.items.filter fun x => x.id = o.id) ∧
    (∀ t, ¬ r.MayWriteType cfg ord t →
      r'.kptfile.conditions.filter (fun c => c.type = t) =
        r.kptfile.conditions.filter fun c => c.type = t) ∧
    ∀ o : KubeObject V, r.inv.role o.ref = some .watchGVKKind →
      r'.items.filter (fun x => x.id = o.id) = r.items.filter fun x => x.id = o.id := by
  have hfresh := newInventory_fresh hinv
  obtain ⟨r₁, r₂, h₁, h₂, rfl⟩ := run_eq_ok.mp h
  have hitems : ∀ o, ¬ r.MayWriteItem cfg ord o →
      (r₂.runReadiness cfg).items.filter (fun x => x.id = o.id) =
        r.items.filter fun x => x.id = o.id := by
    intro o ho
    rw [items_runReadiness, stage2_items_frame hfresh h₁ h₂ ho, stage1_items_frame hfresh h₁ ho]
  refine ⟨hitems, fun t ht => ?_, fun o ho => hitems o (not_mayWriteItem_of_role ?_ ?_)⟩
  · rw [readiness_conditions_frame ht, stage2_conditions_frame hfresh h₁ h₂ ht,
      stage1_conditions_frame hfresh h₁ ht]
  · rw [ho]
    decide
  · rw [ho]
    decide

/-! ## Conditions with another reason -/

section Stray

variable [DecidableEq V]

/-- The conditions that are about for-instances, about own children by their reason, or about what
the callbacks return. -/
def Tracked (cfg : Config V) (ord : Order) (r : Sdk V) (c : Condition) : Prop :=
  (cfg.root ∧ c.type = specializationConditionType) ∨
  (∃ F, (r.ensured cfg).ForInstance cfg F ∧ c.type = getConditionType F) ∨
  (r.inv.role (getGVKNFromConditionType c.type) = some .ownGVKKind ∧
    (r.ensured cfg).ForInstance cfg (getGVKNFromConditionType c.reason)) ∨
  (∃ F ref, r.Wants cfg F ref ∧ c.type = getConditionType ref) ∨
  ∃ obj ∈ r.returned cfg ord, c.type = getConditionType obj.ref

end Stray

def settingsObj : KubeObject Nat := { apiVersion := "v1", kind := "ConfigMap", name := "settings" }

/-- The condition of the claim `n3-old`, by another function. -/
def strayCondition : Condition where
  type := getConditionType (ipClaimRef "n3-old")
  status := .conditionTrue
  reason := "elsewhere"

/-- Interface `n3` has the claim `n3-old`, which it does not want. -/
def strayPackage : Sdk Nat where
  items := [interfaceObj "n3", owned (interfaceRef "n3") (ipClaimObj "n3-old" (some 2)), settingsObj]
  kptfile := { conditions := [strayCondition] }
  inv := claimsInv .childRemote

theorem settings_kept :
    ∃ r', strayPackage.run (claimsConfig .childRemote claimsWanted) .insertion = .ok r' ∧
      r'.items.filter (fun x => x.id = settingsObj.id) = [settingsObj] := by
  have hrun : Fallible.okAnd (fun _ => true) (strayPackage.run
      (claimsConfig .childRemote claimsWanted) .insertion) = true := by
    decide +kernel
  obtain ⟨r', hr', -⟩ := Fallible.exists_of_okAnd hrun
  exact ⟨r', hr', (run_frame (newInventory_claimsConfig _ _) hr').1 settingsObj
    (not_mayWriteItem_of_role (by decide +kernel) (by decide +kernel))⟩

/-- The claim is marked for deletion, and the condition that is not about `n3` is overwritten. -/
theorem stray_condition_overwritten :
    newInventory (claimsConfig .childRemote claimsWanted) = .ok strayPackage.inv ∧
      strayCondition ∈ strayPackage.kptfile.conditions ∧
      ¬ strayPackage.Tracked (claimsConfig .childRemote claimsWanted) .insertion strayCondition ∧
      ∃ r', strayPackage.run (claimsConfig .childRemote claimsWanted) .insertion = .ok r' ∧
        strayCondition ∉ r'.kptfile.conditions := by
  have hfresh : (strayPackage.ensured (claimsConfig .childRemote claimsWanted)).inv.Fresh
      (claimsConfig .childRemote claimsWanted) :=
    newInventory_fresh (newInventory_claimsConfig .childRemote claimsWanted)
  have hfors : ∀ e ∈ ((strayPackage.ensured (claimsConfig .childRemote claimsWanted)).filed
      (claimsConfig .childRemote claimsWanted)).inv.get .forGVKKind [{}],
      e.1 ≠ getGVKNFromConditionType "elsewhere" ∧ strayCondition.type ≠ getConditionType e.1 := by
    decide +kernel
  have hfor : ∀ F, (strayPackage.ensured (claimsConfig .childRemote claimsWanted)).ForInstance
      (claimsConfig .childRemote claimsWanted) F →
      F ≠ getGVKNFromConditionType "elsewhere" ∧ strayCondition.type ≠ getConditionType F := by
    intro F hF
    obtain ⟨ctx, hctx⟩ := Option.isSome_iff_exists.mp ((isSome_filed_for hfresh).mpr hF)
    exact hfors (F, ctx) ((Inv.mem_get_top (keysNodup_filed hfresh) (by decide)).mpr hctx)
  have hwants : ∀ e ∈ strayPackage.family (claimsConfig .childRemote claimsWanted),
      strayPackage.Wants (claimsConfig .childRemote claimsWanted) e.1 e.2 →
        strayCondition.type ≠ getConditionType e.2 := by
    decide +kernel
  have hrun : Fallible.okAnd (fun r' => strayCondition ∉ r'.kptfile.conditions)
      (strayPackage.run (claimsConfig .childRemote claimsWanted) .insertion) = true := by
    decide +kernel
  obtain ⟨r', hr', hgone⟩ := Fallible.exists_of_okAnd hrun
  refine ⟨newInventory_claimsConfig _ _, List.mem_singleton_self _, ?_, r', hr',
    of_decide_eq_true hgone⟩
  rintro (⟨hroot, -⟩ | ⟨F, hF, htype⟩ | ⟨-, hreason⟩ | ⟨F, ref, hF, htype⟩ | ⟨obj, hobj, htype⟩)
  · cases hroot
  · exact (hfor F hF).2 htype
  · exact (hfor _ hreason).1 rfl
  · exact hwants (F, ref) (mem_family.mpr (Or.inr hF)) hF htype
  · revert obj
    decide +kernel

end Sdk

end Nephio.CondKptSdk
