import Nephio.Laws.CondKptSdk.Children
import Nephio.Laws.Kptfile.ConditionType

/-!
# Laws.CondKptSdk.Outcome: the package after `updateChildren`

The script of `updateChildren` in the ready state, read at one key. A child that no other
for-instance has an entry for ends with its `outcome`: the condition in the Kptfile
(`lookup_ready_own`), the object in the items (`items_ready_own`) and the entry in the inventory
(`entry_ready_own`). A for-instance's own condition is reset or stays (`lookup_ready_for`), and what
is no child of anything stays as it was.
-/

namespace Nephio.CondKptSdk

variable {V : Type} [DecidableEq V]

/-- The diff of an inventory whose diff completes. -/
def diffs (ord : Order) (inv : Inv V) : List (ObjectReference × InventoryDiff V) :=
  (ord.range .diff (inv.get .forGVKKind [{}])).map fun e => (e.1, forDelta ord inv e.1 e.2)

/-- The script of `updateChildren` in the ready state. -/
def readyScript (ord : Order) (inv : Inv V) : Script V :=
  .flatMap (Sdk.sortByRef Prod.fst (diffs ord inv)) fun e => diffScript e.1 e.2

theorem updateChildren_ready (ord : Order) {r : Sdk V} (hready : r.inv.ready = true)
    (hdiff : r.inv.DiffCompletes)
    (hnodup : (Keyed.keys Condition.type r.kptfile.conditions).Nodup) :
    ∃ r', r.updateChildren ord = .ok r' ∧ Writes (readyScript ord r.inv) r r' := by
  have h := updateChildren_writes (@diff_of_completes V _ ord r.inv hdiff) hnodup
  rw [hready] at h
  exact h

/-! ## Well-formed inventories -/

omit [DecidableEq V] in
/-- The references of the inventory are in the documented form, each with its role, and objects are
filed under their own references. A for-instance that a watch was filed under can be without a
name; nothing is ever written for it. -/
structure Inv.Documented (inv : Inv V) : Prop where
  keys : inv.resources.KeysNodup 2
  fors : ∀ F, (inv.resources.find (forPath F)).isSome → F.Named →
    F.Documented ∧ inv.role F = some .forGVKKind
  owns : ∀ F ref, (inv.resources.find (ownPath F ref)).isSome →
    F.Documented ∧ ref.Documented ∧ inv.role ref = some .ownGVKKind
  refs : ∀ F ref res, inv.resources.find (ownPath F ref) = some res → ∀ o,
    res.existingResource = some o ∨ res.newResource = some o → o.ref = ref

omit [DecidableEq V] in
/-- No other for-instance has an entry for a child. -/
def Inv.Only (inv : Inv V) (F ref : ObjectReference) : Prop :=
  ∀ F', (inv.resources.find (ownPath F' ref)).isSome → F' = F

theorem ne_empty_of_named {F : ObjectReference} (h : F.Named) : F ≠ {} := by
  rintro rfl
  exact h.1 rfl

omit [DecidableEq V] in
/-- A child's for-instance is in the inventory too. -/
theorem isSome_for_of_own {inv : Inv V} {F ref : ObjectReference}
    (h : (inv.resources.find (ownPath F ref)).isSome) : (inv.resources.find (forPath F)).isSome :=
  Resources.isSome_find_of_prefix ⟨[⟨.ownGVKKind, ref⟩], rfl⟩ h

namespace Inv.Documented

variable {inv : Inv V} (hdoc : inv.Documented)

include hdoc

omit [DecidableEq V] in
/-- A for-instance and a child do not share a condition type. -/
theorem type_for_ne_own {F F' ref : ObjectReference}
    (hF : (inv.resources.find (forPath F)).isSome) (hnamed : F.Named)
    (href : (inv.resources.find (ownPath F' ref)).isSome) :
    getConditionType F ≠ getConditionType ref := by
  intro heq
  obtain ⟨hFdoc, hrole⟩ := hdoc.fors F hF hnamed
  obtain ⟨-, hrefdoc, hrole'⟩ := hdoc.owns F' ref href
  rw [hFdoc.injective hrefdoc heq, hrole'] at hrole
  cases hrole

omit [DecidableEq V] in
theorem own_of_type_eq {F ref F' ref' : ObjectReference}
    (h : (inv.resources.find (ownPath F ref)).isSome)
    (h' : (inv.resources.find (ownPath F' ref')).isSome)
    (heq : getConditionType ref' = getConditionType ref) : ref' = ref :=
  (hdoc.owns F' ref' h').2.1.injective (hdoc.owns F ref h).2.1 heq

end Inv.Documented

/-! ## The shape of the script -/

omit [DecidableEq V] in
/-- A step of several children is one of their steps. -/
theorem mem_steps_join {β : Type} {δ : ObjectReference × β → InventoryDiff V}
    {cs : List (ObjectReference × β)} (hnd : (cs.map Prod.fst).Nodup)
    (habout : ∀ e ∈ cs, (δ e).About e.1) {s : ObjectReference × ChildStep V}
    (h : s ∈ (InventoryDiff.join (cs.map δ)).steps) :
    ∃ e ∈ cs, s.1 = e.1 ∧ s ∈ (δ e).steps := by
  have hmem : s.1 ∈ cs.map Prod.fst := by
    by_contra hmem
    have hnil := steps_at_nil habout hmem
    rw [List.filter_eq_nil_iff] at hnil
    exact hnil s h (by simp)
  obtain ⟨e, he, hse⟩ := List.mem_map.mp hmem
  refine ⟨e, he, hse.symm, ?_⟩
  rw [← steps_at hnd habout he]
  exact List.mem_filter.mpr ⟨h, decide_eq_true hse.symm⟩

omit [DecidableEq V] in
/-- The steps of a child's delta are about the child. -/
theorem InventoryDiff.About.ref_of_mem_steps {ref : ObjectReference} {d : InventoryDiff V}
    (h : d.About ref) {s : ObjectReference × ChildStep V} (hs : s ∈ d.steps) : s.1 = ref := by
  have hone : ∀ {α : Type} {l : List α} {f : α → ObjectReference}, (l.map f).Sublist [ref] →
      ∀ x ∈ l, f x = ref := fun hl x hx =>
    List.mem_singleton.mp (hl.subset (List.mem_map_of_mem hx))
  simp only [InventoryDiff.steps, List.mem_append, List.mem_map, (perm_sortByRef _ _).mem_iff] at hs
  rcases hs with ((((⟨c, hc, rfl⟩ | ⟨c, hc, rfl⟩) | ⟨x, hx, rfl⟩) | ⟨x, hx, rfl⟩) | ⟨x, hx, rfl⟩) |
    ⟨x, hx, rfl⟩
  · exact hone h.createConditions c hc
  · exact hone h.deleteConditions c hc
  · exact hone h.createObjs x hx
  · exact hone h.updateObjs x hx
  · exact hone h.deleteObjs x hx
  · exact hone h.updateDeleteAnnotations x hx

section Reading

variable {ord : Order} {inv : Inv V} (hdoc : inv.Documented)

/-- The children of a for-instance, in the order of the diff. -/
def diffChildren (ord : Order) (inv : Inv V) (F : ObjectReference) :
    List (ObjectReference × ResourceCtx V) :=
  ord.range (.diffOwn F) (inv.get .ownGVKKind [F, {}])

omit [DecidableEq V] in
theorem mem_diffChildren (hnd : inv.resources.KeysNodup 2) {F ref : ObjectReference} (hF : F ≠ {})
    {res : ResourceCtx V} :
    (ref, res) ∈ diffChildren ord inv F ↔ inv.resources.find (ownPath F ref) = some res := by
  rw [diffChildren, (ord.perm _ _).mem_iff]
  exact Inv.mem_get_under hnd (k := .ownGVKKind) nofun hF

omit [DecidableEq V] in
theorem nodup_diffChildren (hnd : inv.resources.KeysNodup 2) {F : ObjectReference} (hF : F ≠ {}) :
    ((diffChildren ord inv F).map Prod.fst).Nodup :=
  ((ord.perm _ _).map Prod.fst).nodup_iff.mpr
    (Inv.nodup_get_under hnd (k := .ownGVKKind) nofun hF)

theorem forDelta_eq (F : ObjectReference) (forRes : ResourceCtx V) :
    forDelta ord inv F forRes = .join ((diffChildren ord inv F).map fun e =>
      childDelta inv.ready forRes e.1 e.2) := rfl

/-- A step of a for-instance's diff is one of a child of its. -/
theorem exists_of_mem_steps (hnd : inv.resources.KeysNodup 2) {F : ObjectReference} (hF : F ≠ {})
    {forRes : ResourceCtx V} {s : ObjectReference × ChildStep V}
    (h : s ∈ (forDelta ord inv F forRes).steps) :
    ∃ res, inv.resources.find (ownPath F s.1) = some res ∧
      s ∈ (childDelta inv.ready forRes s.1 res).steps := by
  obtain ⟨⟨ref, res⟩, hmem, href, hs⟩ := mem_steps_join (nodup_diffChildren hnd hF)
    (fun e _ => about_childDelta inv.ready forRes e.1 e.2) h
  simp only at href hs
  exact ⟨res, href ▸ (mem_diffChildren hnd hF).mp hmem, href ▸ hs⟩

/-- The steps that a for-instance's diff takes for one child. -/
theorem steps_forDelta (hnd : inv.resources.KeysNodup 2) {F ref : ObjectReference} (hF : F ≠ {})
    {forRes res : ResourceCtx V} (hres : inv.resources.find (ownPath F ref) = some res) :
    (forDelta ord inv F forRes).steps.filter (fun s => s.1 = ref) =
      (childDelta inv.ready forRes ref res).steps := by
  rw [forDelta_eq]
  exact steps_at (nodup_diffChildren hnd hF)
    (fun e _ => about_childDelta inv.ready forRes e.1 e.2) ((mem_diffChildren hnd hF).mpr hres)

theorem mem_diffs (hnd : inv.resources.KeysNodup 2) {F : ObjectReference} {d : InventoryDiff V} :
    (F, d) ∈ diffs ord inv ↔
      ∃ forRes, inv.resources.find (forPath F) = some forRes ∧ d = forDelta ord inv F forRes := by
  rw [diffs, List.mem_map]
  constructor
  · rintro ⟨⟨F', forRes⟩, hmem, heq⟩
    simp only [Prod.mk.injEq] at heq
    obtain ⟨rfl, rfl⟩ := heq
    exact ⟨forRes, (mem_range_for hnd).mp hmem, rfl⟩
  · rintro ⟨forRes, hfind, rfl⟩
    exact ⟨(F, forRes), (mem_range_for hnd).mpr hfind, rfl⟩

theorem nodup_diffs (hnd : inv.resources.KeysNodup 2) :
    (Keyed.keys Prod.fst (diffs ord inv)).Nodup := by
  rw [diffs, Keyed.keys, List.map_map]
  exact nodup_range_for hnd .diff

/-- A turn of the loop over the diffs is that of a for-instance. -/
theorem exists_of_mem_flatMap_diffs (hnd : inv.resources.KeysNodup 2)
    {l : List (ObjectReference × InventoryDiff V)} (hl : l.Perm (diffs ord inv)) {β : Type}
    {g : ObjectReference × InventoryDiff V → List β} {y : β} (hy : y ∈ l.flatMap g) :
    ∃ F forRes, inv.resources.find (forPath F) = some forRes ∧
      y ∈ g (F, forDelta ord inv F forRes) := by
  obtain ⟨⟨F, d⟩, hmem, hy⟩ := List.mem_flatMap.mp hy
  obtain ⟨forRes, hfind, rfl⟩ := (mem_diffs hnd).mp (hl.mem_iff.mp hmem)
  exact ⟨F, forRes, hfind, hy⟩

/-- Reading a loop over the diffs at a key that no for-instance but one writes at. -/
theorem filter_flatMap_diffs (hnd : inv.resources.KeysNodup 2)
    {l : List (ObjectReference × InventoryDiff V)} (hl : l.Perm (diffs ord inv)) {β : Type}
    {g : ObjectReference × InventoryDiff V → List β} {p : β → Bool} {F : ObjectReference}
    {forRes : ResourceCtx V} (hF : inv.resources.find (forPath F) = some forRes)
    (honly : ∀ F' d, F' ≠ F → inv.resources.find (forPath F') = some d →
      ∀ y ∈ g (F', forDelta ord inv F' d), p y = false) :
    (l.flatMap g).filter p = (g (F, forDelta ord inv F forRes)).filter p := by
  refine Keyed.filter_flatMap_of_key Prod.fst
    ((hl.map Prod.fst).nodup_iff.mpr (nodup_diffs hnd))
    (hl.mem_iff.mpr ((mem_diffs hnd).mpr ⟨forRes, hF, rfl⟩)) ?_
  rintro ⟨F', d⟩ hmem hne
  obtain ⟨forRes', hfind, rfl⟩ := (mem_diffs hnd).mp (hl.mem_iff.mp hmem)
  exact honly F' forRes' hne hfind

/-! ## Conditions -/

omit [DecidableEq V] in
theorem mem_conditions_resetForScript {F : ObjectReference} {d : InventoryDiff V}
    {e : ConditionEdit} :
    e ∈ (resetForScript F d).conditions ↔ d.updateForCondition ∧ F.Named ∧
      e = .put (forCondition F "update for condition" .conditionFalse) := by
  unfold resetForScript setForScript
  split_ifs with hupd hnamed <;> simp [*]

omit [DecidableEq V] in
/-- An edit of a diff resets the for condition, or is that of a step. -/
theorem mem_conditions_diffScript {F : ObjectReference} {d : InventoryDiff V} {e : ConditionEdit} :
    e ∈ (diffScript F d).conditions ↔
      (d.updateForCondition ∧ F.Named ∧
        e = .put (forCondition F "update for condition" .conditionFalse)) ∨
      ∃ s ∈ d.steps, (F.Named ∧ s.1.Named) ∧ e = s.2.edit F s.1 := by
  rw [diffScript_eq, Script.conditions_append, List.mem_append, mem_conditions_resetForScript]
  refine or_congr_right ?_
  simp only [Script.conditions_flatMap, List.mem_flatMap, ChildStep.script_eq]
  refine exists_congr fun s => and_congr_right fun _ => ?_
  split_ifs with hnamed <;> simp [hnamed]

/-- **The edits of `updateChildren`**: each is at a for-instance or at a child in the inventory. -/
theorem target_readyScript (hnd : inv.resources.KeysNodup 2) {e : ConditionEdit}
    (he : e ∈ (readyScript ord inv).conditions) :
    (∃ F, (inv.resources.find (forPath F)).isSome ∧ F.Named ∧ e.target = getConditionType F) ∨
      ∃ F ref, (inv.resources.find (ownPath F ref)).isSome ∧ e.target = getConditionType ref := by
  obtain ⟨F, forRes, hfind, he⟩ := exists_of_mem_flatMap_diffs hnd (perm_sortByRef _ _) he
  rcases mem_conditions_diffScript.mp he with ⟨-, hnamed, rfl⟩ | ⟨s, hs, ⟨hnamed, -⟩, rfl⟩
  · exact Or.inl ⟨F, by rw [hfind]; rfl, hnamed, rfl⟩
  · obtain ⟨res, hres, -⟩ := exists_of_mem_steps hnd (ne_empty_of_named hnamed) hs
    exact Or.inr ⟨F, s.1, by rw [hres]; rfl, s.2.target_edit F s.1⟩

omit [DecidableEq V] in
/-- The edits of a for-instance's steps at the condition of one child. -/
theorem filter_steps_conditions {F ref : ObjectReference}
    {l : List (ObjectReference × ChildStep V)} (hnamed : F.Named ∧ ref.Named)
    (hinj : ∀ s ∈ l, getConditionType s.1 = getConditionType ref → s.1 = ref) :
    (l.flatMap fun s => (s.2.script F s.1).conditions).filter
        (fun e => e.target = getConditionType ref) =
      (l.filter fun s => s.1 = ref).map fun s => s.2.edit F ref := by
  rw [Loops.filter_flatMap_eq (q := fun s => s.1 = ref)]
  · have hedit : ∀ s ∈ l.filter (fun s => s.1 = ref), (s.2.script F s.1).conditions =
        [s.2.edit F ref] := by
      intro s hs
      rw [of_decide_eq_true (List.mem_filter.mp hs).2, ChildStep.script_eq, if_pos hnamed]
    rw [List.map_eq_flatMap]
    exact List.flatMap_congr hedit
  · intro s hs e he
    rw [ChildStep.script_eq] at he
    split_ifs at he with hs'
    · rw [List.mem_singleton.mp he, ChildStep.target_edit]
      exact decide_eq_decide.mpr ⟨hinj s hs, fun h => by rw [h]⟩
    · cases he

include hdoc in
/-- The edits at the condition of a child are those of its steps. -/
theorem conditions_at_own {F ref : ObjectReference} (honly : inv.Only F ref)
    {forRes res : ResourceCtx V} (hforRes : inv.resources.find (forPath F) = some forRes)
    (hres : inv.resources.find (ownPath F ref) = some res) :
    (readyScript ord inv).conditions.filter (fun e => e.target = getConditionType ref) =
      (childDelta inv.ready forRes ref res).steps.map fun s => s.2.edit F ref := by
  have hsome : (inv.resources.find (ownPath F ref)).isSome := by rw [hres]; rfl
  obtain ⟨hFdoc, hrefdoc, -⟩ := hdoc.owns F ref hsome
  rw [readyScript, Script.conditions_flatMap,
    filter_flatMap_diffs hdoc.keys (perm_sortByRef _ _) hforRes]
  · have hreset : (resetForScript F (forDelta ord inv F forRes)).conditions.filter
        (fun e => e.target = getConditionType ref) = [] := by
      rw [List.filter_eq_nil_iff]
      intro e he heq
      obtain ⟨-, hFn, rfl⟩ := mem_conditions_resetForScript.mp he
      exact hdoc.type_for_ne_own (by rw [hforRes]; rfl) hFn hsome (of_decide_eq_true heq)
    rw [diffScript_eq, Script.conditions_append, List.filter_append, hreset, List.nil_append,
      Script.conditions_flatMap, filter_steps_conditions ⟨hFdoc.named, hrefdoc.named⟩,
      steps_forDelta hdoc.keys (ne_empty_of_named hFdoc.named) hres]
    intro s hs heq
    obtain ⟨res', hres', -⟩ := exists_of_mem_steps hdoc.keys (ne_empty_of_named hFdoc.named) hs
    exact hdoc.own_of_type_eq hsome (by rw [hres']; rfl) heq
  · intro F' d hne hF' e he
    rw [decide_eq_false_iff_not]
    intro heq
    rcases mem_conditions_diffScript.mp he with ⟨-, hFn, rfl⟩ | ⟨s, hs, hsn, rfl⟩
    · exact hdoc.type_for_ne_own (by rw [hF']; rfl) hFn hsome heq
    · rw [ChildStep.target_edit] at heq
      obtain ⟨res', hres', -⟩ := exists_of_mem_steps hdoc.keys (ne_empty_of_named hsn.1) hs
      have hsome' : (inv.resources.find (ownPath F' s.1)).isSome := by rw [hres']; rfl
      refine hne (honly F' ?_)
      rw [← hdoc.own_of_type_eq hsome hsome' heq]
      exact hsome'

include hdoc in
/-- The edits at the condition of a for-instance: its reset. -/
theorem conditions_at_for {F : ObjectReference} {forRes : ResourceCtx V}
    (hforRes : inv.resources.find (forPath F) = some forRes) (hnamed : F.Named) :
    (readyScript ord inv).conditions.filter (fun e => e.target = getConditionType F) =
      if (forDelta ord inv F forRes).updateForCondition then
        [.put (forCondition F "update for condition" .conditionFalse)]
      else [] := by
  have hsome : (inv.resources.find (forPath F)).isSome := by rw [hforRes]; rfl
  have hsteps : ∀ F' d, ∀ s ∈ (forDelta ord inv F' d).steps, F'.Named →
      getConditionType s.1 ≠ getConditionType F := by
    intro F' d s hs hF'
    obtain ⟨res, hres, -⟩ := exists_of_mem_steps hdoc.keys (ne_empty_of_named hF') hs
    have hown : (inv.resources.find (ownPath F' s.1)).isSome := by rw [hres]; rfl
    exact (hdoc.type_for_ne_own hsome hnamed hown).symm
  rw [readyScript, Script.conditions_flatMap,
    filter_flatMap_diffs hdoc.keys (perm_sortByRef _ _) hforRes]
  · have hnil : (Script.flatMap (forDelta ord inv F forRes).steps
        fun s => s.2.script F s.1).conditions.filter (fun e => e.target = getConditionType F) = [] := by
      rw [List.filter_eq_nil_iff]
      intro e he heq
      obtain ⟨s, hs, he⟩ := List.mem_flatMap.mp he
      simp only [ChildStep.script_eq] at he
      split_ifs at he with hsn
      · rw [List.mem_singleton.mp he, ChildStep.target_edit] at heq
        exact hsteps F forRes s hs hnamed (of_decide_eq_true heq)
      · cases he
    rw [diffScript_eq, Script.conditions_append, List.filter_append, hnil, List.append_nil]
    unfold resetForScript setForScript
    split_ifs
    · exact List.filter_eq_self.mpr fun e he => by
        rw [List.mem_singleton.mp he]
        exact decide_eq_true rfl
    · rfl
  · intro F' d hne hF' e he
    rw [decide_eq_false_iff_not]
    intro heq
    rcases mem_conditions_diffScript.mp he with ⟨-, hFn, rfl⟩ | ⟨s, hs, hsn, rfl⟩
    · refine hne ((hdoc.fors F' (by rw [hF']; rfl) hFn).1.injective (hdoc.fors F hsome hnamed).1 heq)
    · rw [ChildStep.target_edit] at heq
      exact hsteps F' d s hs hsn.1 heq

/-! ## Items -/

omit [DecidableEq V] in
/-- Objects that `UpsertObjectToItems` does not tell apart have the same reference. -/
theorem ref_of_id {ref : ObjectReference} (a b : KubeObject V) (h : a.id = b.id) :
    decide (a.ref = ref) = decide (b.ref = ref) := by
  simp only [KubeObject.id, Prod.mk.injEq] at h
  have href : a.ref = b.ref := by simp only [KubeObject.ref, h]
  rw [href]

omit [DecidableEq V] in
@[simp] theorem ref_mark (o : KubeObject V) : (mark o).ref = o.ref := rfl

omit [DecidableEq V] in
/-- What a step writes comes from the lists of objects of its diff. -/
theorem written_steps {d : InventoryDiff V} {s : ObjectReference × ChildStep V} (hs : s ∈ d.steps)
    {o : KubeObject V} (ho : o ∈ s.2.written) :
    (∃ x ∈ d.createObjs ++ d.updateObjs ++ d.updateDeleteAnnotations,
        writtenKind x.ownKind ∧ o = x.obj) ∨
      ∃ x ∈ d.deleteObjs, o = mark x.obj := by
  have hwritten : ∀ {kind : Option ResourceKind} {o' : KubeObject V},
      (o ∈ if writtenKind kind then [o'] else []) → writtenKind kind ∧ o = o' := by
    intro kind o' h
    split_ifs at h with hkind
    · exact ⟨hkind, List.mem_singleton.mp h⟩
    · cases h
  simp only [InventoryDiff.steps, List.mem_append, List.mem_map, (perm_sortByRef _ _).mem_iff] at hs
  simp only [List.mem_append]
  rcases hs with ((((⟨c, -, rfl⟩ | ⟨c, -, rfl⟩) | ⟨x, hx, rfl⟩) | ⟨x, hx, rfl⟩) | ⟨x, hx, rfl⟩) |
    ⟨x, hx, rfl⟩
  · cases ho
  · cases ho
  · exact Or.inl ⟨x, Or.inl (Or.inl hx), hwritten ho⟩
  · exact Or.inl ⟨x, Or.inl (Or.inr hx), hwritten ho⟩
  · exact Or.inr ⟨x, hx, List.mem_singleton.mp ho⟩
  · exact Or.inl ⟨x, Or.inr hx, hwritten ho⟩

/-- The objects of a child's delta: to be written the one wanted, under the child's kind, to be
deleted the one there is. -/
theorem objs_childDelta {ready : Bool} {forRes res : ResourceCtx V} {ref : ObjectReference} :
    (∀ x ∈ (childDelta ready forRes ref res).createObjs ++
        (childDelta ready forRes ref res).updateObjs ++
        (childDelta ready forRes ref res).updateDeleteAnnotations,
      res.newResource = some x.obj ∧ x.ownKind = res.ownKind) ∧
    ∀ x ∈ (childDelta ready forRes ref res).deleteObjs, res.existingResource = some x.obj := by
  have hobj : ∀ {p : Prop} [Decidable p] {kind : Option ResourceKind} {l : Option (KubeObject V)}
      {x : Object V},
      x ∈ (if p then l.toList.map fun o => (⟨⟨ref, kind⟩, o⟩ : Object V) else []) →
        l = some x.obj ∧ x.ownKind = kind := by
    intro p _ kind l x h
    split_ifs at h
    · cases l with
      | none => cases h
      | some o =>
        rw [List.mem_singleton.mp h]
        exact ⟨rfl, rfl⟩
    · cases h
  cases hfor : forRes.existingResource with
  | none =>
    rw [childDelta_absent hfor]
    refine ⟨(fun x hx => by cases hx), fun x hx => ?_⟩
    simp only [diffOrphan] at hx
    split at hx
    · split_ifs at hx
      · rw [List.mem_singleton.mp hx]
        assumption
      · cases hx
    · cases hx
  | some forObj =>
    rw [childDelta, diffChild_present hfor]
    split_ifs
    · exact ⟨(fun x hx => by cases hx), fun x hx => by cases hx⟩
    · refine ⟨fun x hx => ?_, fun x hx => (hobj hx).1⟩
      rcases List.mem_append.mp hx with hx | hx
      · rcases List.mem_append.mp hx with hx | hx
        · exact hobj hx
        · exact hobj hx
      · exact hobj hx

/-- What a step writes for a child is the object wanted for it, or the one there is, marked. -/
theorem written_childDelta {ready : Bool} {forRes res : ResourceCtx V} {ref : ObjectReference}
    {s : ObjectReference × ChildStep V} (hs : s ∈ (childDelta ready forRes ref res).steps)
    {o : KubeObject V} (ho : o ∈ s.2.written) :
    res.newResource = some o ∨ ∃ existing, res.existingResource = some existing ∧
      o = mark existing := by
  rcases written_steps hs ho with ⟨x, hx, -, rfl⟩ | ⟨x, hx, rfl⟩
  · exact Or.inl (objs_childDelta.1 x hx).1
  · exact Or.inr ⟨x.obj, objs_childDelta.2 x hx, rfl⟩
omit [DecidableEq V] in
theorem items_diffScript (F : ObjectReference) (d : InventoryDiff V) :
    (diffScript F d).items = d.steps.flatMap fun s => (s.2.script F s.1).items := by
  have hreset : (resetForScript F d).items = [] := by
    unfold resetForScript setForScript
    split_ifs <;> rfl
  rw [diffScript_eq, Script.items_append, hreset, List.nil_append, Script.items_flatMap]

omit [DecidableEq V] in
theorem mem_items_script {F ref : ObjectReference} {s : ChildStep V} {o : KubeObject V}
    (h : o ∈ (s.script F ref).items) : F.Named ∧ o ∈ s.written := by
  rw [ChildStep.script_eq] at h
  split_ifs at h with hnamed
  · exact ⟨hnamed.1, h⟩
  · cases h

include hdoc in
/-- An object that a for-instance's diff writes is one of a child of its. -/
theorem own_of_mem_items {F : ObjectReference} {forRes : ResourceCtx V}
    {s : ObjectReference × ChildStep V} (hs : s ∈ (forDelta ord inv F forRes).steps)
    {o : KubeObject V} (ho : o ∈ (s.2.script F s.1).items) :
    o.ref = s.1 ∧ (inv.resources.find (ownPath F s.1)).isSome := by
  obtain ⟨hnamed, ho⟩ := mem_items_script ho
  obtain ⟨res, hres, hs⟩ := exists_of_mem_steps hdoc.keys (ne_empty_of_named hnamed) hs
  refine ⟨?_, by rw [hres]; rfl⟩
  rcases written_childDelta hs ho with hnew | ⟨existing, hexisting, rfl⟩
  · exact hdoc.refs F s.1 res hres o (Or.inr hnew)
  · exact hdoc.refs F s.1 res hres existing (Or.inl hexisting)

include hdoc in
/-- The objects written under the reference of a child are those of its steps. -/
theorem items_at_own {F ref : ObjectReference} (honly : inv.Only F ref)
    {forRes res : ResourceCtx V} (hforRes : inv.resources.find (forPath F) = some forRes)
    (hres : inv.resources.find (ownPath F ref) = some res) :
    (readyScript ord inv).items.filter (fun o => o.ref = ref) =
      (childDelta inv.ready forRes ref res).steps.flatMap fun s => s.2.written := by
  have hsome : (inv.resources.find (ownPath F ref)).isSome := by rw [hres]; rfl
  obtain ⟨hFdoc, hrefdoc, -⟩ := hdoc.owns F ref hsome
  rw [readyScript, Script.items_flatMap,
    filter_flatMap_diffs hdoc.keys (perm_sortByRef _ _) hforRes]
  · rw [items_diffScript, Loops.filter_flatMap_eq (q := fun s => s.1 = ref),
      steps_forDelta hdoc.keys (ne_empty_of_named hFdoc.named) hres]
    · refine List.flatMap_congr fun s hs => ?_
      have href := (about_childDelta inv.ready forRes ref res).ref_of_mem_steps hs
      rw [ChildStep.script_eq, if_pos ⟨hFdoc.named, href ▸ hrefdoc.named⟩]
    · intro s hs o ho
      rw [(own_of_mem_items hdoc hs ho).1]
  · intro F' d hne hF' o ho
    rw [decide_eq_false_iff_not]
    rintro rfl
    rw [items_diffScript] at ho
    obtain ⟨s, hs, ho⟩ := List.mem_flatMap.mp ho
    obtain ⟨href, hsome'⟩ := own_of_mem_items hdoc hs ho
    exact hne (honly F' (href ▸ hsome'))

/-- **The objects `updateChildren` writes** are children in the inventory. -/
theorem ref_of_mem_items (hdoc : inv.Documented) {o : KubeObject V}
    (ho : o ∈ (readyScript ord inv).items) :
    ∃ F, (inv.resources.find (ownPath F o.ref)).isSome := by
  obtain ⟨F, forRes, hfind, ho⟩ := exists_of_mem_flatMap_diffs hdoc.keys (perm_sortByRef _ _) ho
  rw [items_diffScript] at ho
  obtain ⟨s, hs, ho⟩ := List.mem_flatMap.mp ho
  obtain ⟨href, hsome⟩ := own_of_mem_items hdoc hs ho
  exact ⟨F, href ▸ hsome⟩

/-! ## The inventory -/

omit [DecidableEq V] in
theorem tree_diffScript (F : ObjectReference) (d : InventoryDiff V) :
    (diffScript F d).tree =
      (if d.updateForCondition ∧ F.Named then
        [.set { gvkKind := .forGVKKind }
          (.condition (forCondition F "update for condition" .conditionFalse)) false false
          (forPath F)]
      else []) ++ d.steps.flatMap fun s => (s.2.script F s.1).tree := by
  have hreset : (resetForScript F d).tree = if d.updateForCondition ∧ F.Named then
      [.set { gvkKind := .forGVKKind }
        (.condition (forCondition F "update for condition" .conditionFalse)) false false
        (forPath F)] else [] := by
    unfold resetForScript setForScript
    split_ifs <;> simp_all
  rw [diffScript_eq, Script.tree_append, hreset, Script.tree_flatMap]

omit [DecidableEq V] in
theorem mem_tree_script {F ref : ObjectReference} {s : ChildStep V} {w : TreeWrite V}
    (h : w ∈ (s.script F ref).tree) : F.Named ∧ w.path = ownPath F ref := by
  rw [ChildStep.script_eq] at h
  split_ifs at h with hnamed
  · exact ⟨hnamed.1, ChildStep.path_of_mem_writes h⟩
  · cases h

omit [DecidableEq V] in
/-- A diff writes at its for-instance and at its children. -/
theorem path_of_mem_tree {F : ObjectReference} {d : InventoryDiff V} {w : TreeWrite V}
    (h : w ∈ (diffScript F d).tree) :
    (F.Named ∧ w.path = forPath F) ∨ ∃ s ∈ d.steps, F.Named ∧ w.path = ownPath F s.1 := by
  rw [tree_diffScript] at h
  rcases List.mem_append.mp h with h | h
  · split_ifs at h with hupd
    · rw [List.mem_singleton.mp h]
      exact Or.inl ⟨hupd.2, rfl⟩
    · cases h
  · obtain ⟨s, hs, hw⟩ := List.mem_flatMap.mp h
    exact Or.inr ⟨s, hs, mem_tree_script hw⟩

/-- `updateChildren` writes at places that are there. -/
theorem isSome_of_mem_readyScript (hnd : inv.resources.KeysNodup 2) {w : TreeWrite V}
    (h : w ∈ (readyScript ord inv).tree) :
    (inv.resources.find w.path).isSome ∧
      ((∃ F, w.path = forPath F) ∨ ∃ F ref, w.path = ownPath F ref) := by
  obtain ⟨F, forRes, hfind, hw⟩ := exists_of_mem_flatMap_diffs hnd (perm_sortByRef _ _) h
  rcases path_of_mem_tree hw with ⟨-, hpath⟩ | ⟨s, hs, hnamed, hpath⟩
  · rw [hpath, hfind]
    exact ⟨rfl, Or.inl ⟨F, rfl⟩⟩
  · obtain ⟨res, hres, -⟩ := exists_of_mem_steps hnd (ne_empty_of_named hnamed) hs
    rw [hpath, hres]
    exact ⟨rfl, Or.inr ⟨F, s.1, rfl⟩⟩

/-- The inventory after `updateChildren` has the entries it had. -/
theorem isSome_readyScript (hnd : inv.resources.KeysNodup 2) (p : List SdkObjectReference) :
    ((inv.write (readyScript ord inv).tree).resources.find p).isSome ↔
      (inv.resources.find p).isSome := by
  rw [Inv.resources_write, TreeWrite.isSome_find_applyAll, or_iff_left_iff_imp]
  rintro ⟨w, hw, hreach⟩
  obtain ⟨hsome, -⟩ := isSome_of_mem_readyScript hnd hw
  cases w with
  | clear path => cases hreach
  | set kc x newResource failed path => exact Resources.isSome_find_of_prefix hreach hsome

/-- The writes at a child are those of its steps. -/
theorem tree_at_own (hnd : inv.resources.KeysNodup 2) {F ref : ObjectReference}
    (hnamed : F.Named ∧ ref.Named) {forRes res : ResourceCtx V}
    (hforRes : inv.resources.find (forPath F) = some forRes)
    (hres : inv.resources.find (ownPath F ref) = some res) :
    (readyScript ord inv).tree.filter (fun w => w.path = ownPath F ref) =
      (childDelta inv.ready forRes ref res).steps.flatMap fun s => s.2.writes F ref := by
  rw [readyScript, Script.tree_flatMap,
    filter_flatMap_diffs hnd (perm_sortByRef _ _) hforRes]
  · rw [tree_diffScript, List.filter_append, List.filter_eq_nil_iff.mpr, List.nil_append,
      Loops.filter_flatMap_eq (q := fun s => s.1 = ref),
      steps_forDelta hnd (ne_empty_of_named hnamed.1) hres]
    · refine List.flatMap_congr fun s hs => ?_
      rw [(about_childDelta inv.ready forRes ref res).ref_of_mem_steps hs, ChildStep.script_eq,
        if_pos hnamed]
    · intro s hs w hw
      rw [(mem_tree_script hw).2]
      exact decide_eq_decide.mpr ⟨fun h => by cases h; rfl, fun h => by rw [h]⟩
    · intro w hw heq
      split_ifs at hw
      · rw [List.mem_singleton.mp hw] at heq
        cases of_decide_eq_true heq
      · cases hw
  · intro F' d hne hF' w hw
    rw [decide_eq_false_iff_not]
    intro heq
    rcases path_of_mem_tree hw with ⟨-, hpath⟩ | ⟨s, -, -, hpath⟩
    · rw [hpath] at heq
      cases heq
    · rw [hpath] at heq
      cases heq
      exact hne rfl

/-- The writes at a for-instance: its reset. -/
theorem tree_at_for (hnd : inv.resources.KeysNodup 2) {F : ObjectReference} (hnamed : F.Named)
    {forRes : ResourceCtx V} (hforRes : inv.resources.find (forPath F) = some forRes) :
    (readyScript ord inv).tree.filter (fun w => w.path = forPath F) =
      if (forDelta ord inv F forRes).updateForCondition then
        [.set { gvkKind := .forGVKKind }
          (.condition (forCondition F "update for condition" .conditionFalse)) false false
          (forPath F)]
      else [] := by
  rw [readyScript, Script.tree_flatMap,
    filter_flatMap_diffs hnd (perm_sortByRef _ _) hforRes]
  · rw [tree_diffScript, List.filter_append]
    have hsteps : ((forDelta ord inv F forRes).steps.flatMap fun s =>
        (s.2.script F s.1).tree).filter (fun w => w.path = forPath F) = [] := by
      rw [List.filter_eq_nil_iff]
      intro w hw heq
      obtain ⟨s, -, hw⟩ := List.mem_flatMap.mp hw
      rw [(mem_tree_script hw).2] at heq
      cases of_decide_eq_true heq
    rw [hsteps, List.append_nil]
    simp only [hnamed, and_true]
    split_ifs
    · exact List.filter_eq_self.mpr fun w hw => by
        rw [List.mem_singleton.mp hw]
        exact decide_eq_true rfl
    · rfl
  · intro F' d hne hF' w hw
    rw [decide_eq_false_iff_not]
    intro heq
    rcases path_of_mem_tree hw with ⟨-, hpath⟩ | ⟨s, -, -, hpath⟩
    · rw [hpath] at heq
      cases heq
      exact hne rfl
    · rw [hpath] at heq
      cases heq

end Reading

/-! ## What is there afterwards -/

/-- The condition a child ends `updateChildren` with, from the one the Kptfile held. -/
def childOutcome (F ref : ObjectReference) (forRes res : ResourceCtx V) (held : Option Condition) :
    Option Condition :=
  if forRes.existingResource.isSome then outcome F ref res held else orphanOutcome F ref res held

/-- The object `updateChildren` writes for a child, if any. -/
def childItem (forRes res : ResourceCtx V) : Option (KubeObject V) :=
  if forRes.existingResource.isSome then outcomeItem res else orphanItem res

omit [DecidableEq V] in
/-- The condition the inventory holds for a child after `updateChildren`. -/
def childEntry (F ref : ObjectReference) (forRes res : ResourceCtx V) : Option Condition :=
  if forRes.existingResource.isSome then entryCondition F ref res else none

/-- The diff resets the condition of a for-instance. -/
def resets (inv : Inv V) (F : ObjectReference) (forRes : ResourceCtx V) : Prop :=
  forRes.existingResource.isSome ∧ notFalse forRes.existingCondition ∧
    ∃ ref res, inv.resources.find (ownPath F ref) = some res ∧ changed res

section Afterwards

variable {ord : Order} {inv : Inv V} (hdoc : inv.Documented) (hready : inv.ready = true)
  (hdiff : inv.DiffCompletes)

include hdoc hdiff in
/-- No turn of the diff panics for a child in the inventory. -/
theorem completes_own {F ref : ObjectReference} {forRes res : ResourceCtx V}
    (hforRes : inv.resources.find (forPath F) = some forRes)
    (hres : inv.resources.find (ownPath F ref) = some res) :
    ∃ d, diffChild inv.ready forRes ref res = .ok d := by
  obtain ⟨hFdoc, -⟩ := hdoc.owns F ref (by rw [hres]; rfl)
  exact hdiff (F, forRes) ((Inv.mem_get_top hdoc.keys (k := .forGVKKind) nofun).mpr hforRes)
    (ref, res) ((Inv.mem_get_under hdoc.keys (k := .ownGVKKind) nofun
      (ne_empty_of_named hFdoc.named)).mpr hres)

include hdoc hready hdiff in
/-- The delta of a child, by whether its for-instance is in the package. -/
theorem childDelta_eq {F ref : ObjectReference} {forRes res : ResourceCtx V}
    (hforRes : inv.resources.find (forPath F) = some forRes)
    (hres : inv.resources.find (ownPath F ref) = some res) :
    childDelta inv.ready forRes ref res =
      if forRes.existingResource.isSome then
        presentDelta true forRes.existingCondition ref res
      else diffOrphan ref res := by
  have hok := completes_own hdoc hdiff hforRes hres
  rw [diffChild_ok_iff] at hok
  rw [hready]
  cases hfor : forRes.existingResource with
  | none => exact childDelta_absent hfor ref res
  | some forObj =>
    refine childDelta_present hfor fun hpanic => hok ⟨?_, hpanic.2, hpanic.1⟩
    rw [hfor]
    rfl

include hdoc hready hdiff in
theorem lookup_ready_own {F ref : ObjectReference} (honly : inv.Only F ref)
    {forRes res : ResourceCtx V} (hforRes : inv.resources.find (forPath F) = some forRes)
    (hres : inv.resources.find (ownPath F ref) = some res) (cs : List Condition) :
    Keyed.lookup Condition.type (getConditionType ref)
        (Keyed.applyAll (readyScript ord inv).conditions cs) =
      childOutcome F ref forRes res (Keyed.lookup Condition.type (getConditionType ref) cs) := by
  rw [Keyed.lookup_applyAll, conditions_at_own hdoc honly hforRes hres, List.foldl_map,
    childDelta_eq hdoc hready hdiff hforRes hres, childOutcome]
  split_ifs
  · exact foldl_conditions_present F ref _ res _
  · exact foldl_conditions_orphan F ref res _

include hdoc hready hdiff in
/-- The items under the reference of a child: one object is written, or none. -/
theorem items_ready_own {F ref : ObjectReference} (honly : inv.Only F ref)
    {forRes res : ResourceCtx V} (hforRes : inv.resources.find (forPath F) = some forRes)
    (hres : inv.resources.find (ownPath F ref) = some res) (os : List (KubeObject V)) :
    (Keyed.upsertAll KubeObject.id (readyScript ord inv).items os).filter (fun o => o.ref = ref) =
      Keyed.upsertAll KubeObject.id (childItem forRes res).toList
        (os.filter fun o => o.ref = ref) := by
  rw [Keyed.filter_upsertAll _ ref_of_id, items_at_own hdoc honly hforRes hres,
    childDelta_eq hdoc hready hdiff hforRes hres, childItem]
  split_ifs
  · exact items_present ref _ res _
  · rw [items_orphan]

include hdoc hready hdiff in
theorem entry_ready_own {F ref : ObjectReference}
    {forRes res : ResourceCtx V} (hforRes : inv.resources.find (forPath F) = some forRes)
    (hres : inv.resources.find (ownPath F ref) = some res) :
    ((inv.write (readyScript ord inv).tree).resources.ctxAt (ownPath F ref)).existingCondition =
        childEntry F ref forRes res ∧
      ((inv.write (readyScript ord inv).tree).resources.ctxAt (ownPath F ref)).existingResource =
        (childItem forRes res).or res.existingResource := by
  obtain ⟨hFdoc, hrefdoc, -⟩ := hdoc.owns F ref (by rw [hres]; rfl)
  rw [Inv.resources_write, TreeWrite.ctxAt_applyAll,
    tree_at_own hdoc.keys ⟨hFdoc.named, hrefdoc.named⟩ hforRes hres,
    childDelta_eq hdoc hready hdiff hforRes hres, ← (Resources.find_eq_some_iff.mp hres).2,
    childEntry, childItem]
  split_ifs
  · exact entry_present F ref _ res
  · exact entry_orphan F ref res

include hdoc hready hdiff in
theorem updateForCondition_forDelta {F : ObjectReference} {forRes : ResourceCtx V}
    (hforRes : inv.resources.find (forPath F) = some forRes) (hnamed : F.Named) :
    (forDelta ord inv F forRes).updateForCondition ↔ resets inv F forRes := by
  have hchild : ∀ ref res, inv.resources.find (ownPath F ref) = some res →
      ((childDelta inv.ready forRes ref res).updateForCondition ↔
        forRes.existingResource.isSome ∧ notFalse forRes.existingCondition ∧ changed res) := by
    intro ref res hres
    rw [childDelta_eq hdoc hready hdiff hforRes hres]
    split_ifs with hfor
    · simp only [presentDelta, Bool.and_eq_true, hfor, true_and]
    · simp only [diffOrphan, Bool.false_eq_true, hfor, false_and]
  simp only [forDelta_eq, InventoryDiff.join, List.any_map, List.any_eq_true, Prod.exists,
    Function.comp_apply, mem_diffChildren hdoc.keys (ne_empty_of_named hnamed), resets]
  constructor
  · rintro ⟨ref, res, hres, hupd⟩
    obtain ⟨hfor, hfalse, hchanged⟩ := (hchild ref res hres).mp hupd
    exact ⟨hfor, hfalse, ref, res, hres, hchanged⟩
  · rintro ⟨hfor, hfalse, ref, res, hres, hchanged⟩
    exact ⟨ref, res, hres, (hchild ref res hres).mpr ⟨hfor, hfalse, hchanged⟩⟩

include hdoc hready hdiff in
open scoped Classical in
/-- The condition of a for-instance is reset, or stays. -/
theorem lookup_ready_for {F : ObjectReference} {forRes : ResourceCtx V}
    (hforRes : inv.resources.find (forPath F) = some forRes) (hnamed : F.Named)
    (cs : List Condition) :
    Keyed.lookup Condition.type (getConditionType F)
        (Keyed.applyAll (readyScript ord inv).conditions cs) =
      if resets inv F forRes then
        some (forCondition F "update for condition" .conditionFalse)
      else Keyed.lookup Condition.type (getConditionType F) cs := by
  rw [Keyed.lookup_applyAll, conditions_at_for hdoc hforRes hnamed]
  simp only [updateForCondition_forDelta hdoc hready hdiff hforRes hnamed]
  split_ifs <;> rfl

include hdoc hready hdiff in
open scoped Classical in
/-- The entry of a for-instance: only its condition changes, by the same reset. -/
theorem entry_ready_for {F : ObjectReference} {forRes : ResourceCtx V}
    (hforRes : inv.resources.find (forPath F) = some forRes) (hnamed : F.Named) :
    (inv.write (readyScript ord inv).tree).resources.ctxAt (forPath F) =
      if resets inv F forRes then
        { forRes with
          failed := false
          existingCondition := some (forCondition F "update for condition" .conditionFalse) }
      else forRes := by
  rw [Inv.resources_write, TreeWrite.ctxAt_applyAll, tree_at_for hdoc.keys hnamed hforRes,
    ← (Resources.find_eq_some_iff.mp hforRes).2]
  simp only [updateForCondition_forDelta hdoc hready hdiff hforRes hnamed]
  split_ifs <;> rfl

/-- Everything that is neither a for-instance nor a child is as it was, specific watches too. -/
theorem entry_ready_other (hnd : inv.resources.KeysNodup 2) {p : List SdkObjectReference}
    (hfor : ∀ F, p ≠ forPath F) (hown : ∀ F ref, p ≠ ownPath F ref) :
    (inv.write (readyScript ord inv).tree).resources.ctxAt p = inv.resources.ctxAt p := by
  rw [Inv.resources_write, TreeWrite.ctxAt_applyAll, List.filter_eq_nil_iff.mpr]
  · rfl
  · intro w hw heq
    obtain ⟨-, ⟨F, hpath⟩ | ⟨F, ref, hpath⟩⟩ := isSome_of_mem_readyScript hnd hw
    · exact hfor F ((of_decide_eq_true heq).symm.trans hpath)
    · exact hown F ref ((of_decide_eq_true heq).symm.trans hpath)

end Afterwards

end Nephio.CondKptSdk
