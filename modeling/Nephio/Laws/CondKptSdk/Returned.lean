import Nephio.Laws.CondKptSdk.Answers

/-!
# Laws.CondKptSdk.Returned: the own objects that stage 2 returns

An own object that `UpdateResourceFn` returns for a for-instance becomes an item. Whether the next
Run takes it for a child depends on its owner annotation and its condition, and both come from the
condition that the inventory holds of the for-instance: where there is one, the sdk writes it back in
the place of the object's own, and its reason is the owner the object gets. `returned_tracked_iff`
says when the object is tracked all the same.
-/

namespace Nephio.CondKptSdk

variable {V : Type}

/-- Edits that all put one condition leave it. -/
theorem foldl_of_forall_act {es : List ConditionEdit} {c : Condition}
    (hact : ∀ e ∈ es, ∀ held, e.act held = some c) (hne : es ≠ []) (held : Option Condition) :
    es.foldl (fun held e => e.act held) held = some c := by
  have hagain : ∀ l : List ConditionEdit, (∀ e ∈ l, ∀ held, e.act held = some c) →
      l.foldl (fun held e => e.act held) (some c) = some c := by
    intro l
    induction l with
    | nil => exact fun _ => rfl
    | cons e l ih =>
      intro hl
      rw [List.foldl_cons, hl e List.mem_cons_self]
      exact ih fun e' he' => hl e' (List.mem_cons_of_mem _ he')
  cases es with
  | nil => exact absurd rfl hne
  | cons e es =>
    rw [List.foldl_cons, hact e List.mem_cons_self]
    exact hagain es fun e' he' => hact e' (List.mem_cons_of_mem _ he')

section Turn

variable {inv : Inv V} {F : ObjectReference} {objs : List (KubeObject V)} {obj : KubeObject V}

/-- The objects of a turn that are written under the identity of an own object. -/
theorem items_at_returned {ec : Option Condition} (hobj : inv.role obj.ref = some .ownGVKKind)
    (hnamed : F.Named ∧ obj.ref.Named) :
    (objs.flatMap fun o => (updateResourceScript inv F ec o).items).filter
        (fun o => o.id = obj.id) = objs.filter fun o => o.id = obj.id := by
  induction objs with
  | nil => rfl
  | cons o objs ih =>
    rw [List.flatMap_cons, List.filter_append, ih]
    by_cases hid : o.id = obj.id
    · have href : o.ref = obj.ref := Sdk.ref_eq_of_id hid
      simp only [updateResourceScript, href, hobj, hnamed, and_self, if_true, hid, decide_true,
        List.filter_cons_of_pos, List.filter_nil, List.singleton_append]
    · have hnil : (updateResourceScript inv F ec o).items.filter (fun o => o.id = obj.id) = [] := by
        rw [List.filter_eq_nil_iff]
        intro x hx
        unfold updateResourceScript at hx
        split at hx
        · split_ifs at hx
          · rw [List.mem_singleton.mp hx]
            simpa using hid
          · cases hx
        · split_ifs at hx
          · rw [List.mem_singleton.mp hx]
            simpa using hid
          · cases hx
        · cases hx
      rw [hnil, List.nil_append, List.filter_cons_of_neg (by simpa using hid)]

theorem items_updateForScript {updateFn : UpdateResourceFn V} {ord : Order} {ctx : ReadyCtx V}
    (h : reply updateFn ord F ctx = some (.ok objs)) :
    (updateForScript updateFn ord inv F ctx).items =
      objs.flatMap fun o => (updateResourceScript inv F ctx.forCondition o).items := by
  unfold updateForScript
  unfold reply at h
  split_ifs at h ⊢
  rw [Option.some.inj h]
  exact Script.items_flatMap _ _

/-- Without a condition of the for-instance in the inventory an own object gets its own. -/
theorem lookup_returned_own (hF : inv.role F = some .forGVKKind) (hFdoc : F.Documented)
    (hown : ∀ o ∈ objs, inv.role o.ref = some .ownGVKKind → o.ref.Documented) (hobj : obj ∈ objs)
    (hrole : inv.role obj.ref = some .ownGVKKind) (held : Option Condition) :
    ((objs.flatMap fun o => (updateResourceScript inv F none o).conditions).filter
        fun e => e.target = getConditionType obj.ref).foldl (fun held e => e.act held) held =
      some (ownCondition F obj.ref "update done" .conditionTrue) := by
  have hdoc := hown obj hobj hrole
  have hne : getConditionType F ≠ getConditionType obj.ref := by
    intro heq
    rw [← hFdoc.injective hdoc heq, hF] at hrole
    cases hrole
  refine foldl_of_forall_act (fun e he held => ?_) ?_ held
  · obtain ⟨he, htarget⟩ := List.mem_filter.mp he
    have htarget : e.target = getConditionType obj.ref := of_decide_eq_true htarget
    obtain ⟨o, ho, he⟩ := List.mem_flatMap.mp he
    unfold updateResourceScript at he
    split at he
    next =>
      split_ifs at he
      · rw [List.mem_singleton.mp he] at htarget
        exact absurd htarget hne
      · cases he
    next horole =>
      split_ifs at he
      · rw [List.mem_singleton.mp he] at htarget ⊢
        rw [(hown o ho horole).injective hdoc htarget]
        rfl
      · cases he
    next => cases he
  · refine List.ne_nil_of_mem (a := .put (ownCondition F obj.ref "update done" .conditionTrue)) ?_
    refine List.mem_filter.mpr ⟨List.mem_flatMap.mpr ⟨obj, hobj, ?_⟩, decide_eq_true rfl⟩
    simp only [updateResourceScript, hrole, hFdoc.named, hdoc.named, and_self, if_true]
    exact List.mem_singleton_self _

/-- Own objects alone leave the condition of the for-instance, unless the inventory holds one. -/
theorem concluded_own {ec held : Option Condition}
    (hown : ∀ obj ∈ objs, inv.role obj.ref = some .ownGVKKind ∧ obj.ref.Named) :
    concluded inv F ec held (some (.ok objs)) =
      match ec with
      | none => held
      | some c =>
        if objs = [] then held
        else some { c with message := "update done", status := .conditionTrue } := by
  cases ec with
  | none =>
    have hnone : objs.any (concludes inv none) = false := by
      rw [List.any_eq_false]
      intro obj hobj
      simp [concludes, (hown obj hobj).1]
    simp only [concluded, hnone, Bool.false_eq_true, if_false]
  | some c =>
    cases objs with
    | nil => rfl
    | cons obj objs =>
      have hobj : concludes inv (some c) obj = true :=
        decide_eq_true (Or.inr ⟨(hown obj List.mem_cons_self).1, (hown obj List.mem_cons_self).2,
          rfl⟩)
      simp only [concluded, List.any_cons, hobj, Bool.true_or, if_true, reduceCtorEq, if_false,
        doneCondition]

end Turn

namespace Sdk

/-- The own objects that stage 2 returned for a for-instance are its children: items with it as the
owner and with a condition of their own that is True. Returning nothing else leaves the condition of
the for-instance as it is. `r` is the package before stage 2, `r'` the one after it. -/
structure Tracks (F : ObjectReference) (objs : List (KubeObject V)) (r r' : Sdk V) : Prop where
  items : ∀ obj ∈ objs, r.inv.role obj.ref = some .ownGVKKind →
    ∃ o, Keyed.lookup KubeObject.id obj.id r'.items = some o ∧ o.owner = getConditionType F
  conditions : ∀ obj ∈ objs, r.inv.role obj.ref = some .ownGVKKind →
    ∃ c, r'.kptfile.getCondition (getConditionType obj.ref) = some c ∧
      c.status = .conditionTrue ∧ c.reason = getConditionType F
  filed : ∀ obj ∈ objs, r.inv.role obj.ref = some .ownGVKKind → r'.Owns F obj.ref
  kept : (∀ obj ∈ objs, r.inv.role obj.ref = some .ownGVKKind) →
    r'.kptfile.getCondition (getConditionType F) = r.kptfile.getCondition (getConditionType F)

section Tracks

variable [DecidableEq V] {cfg : Config V} {ord : Order} {r r₁ r₂ : Sdk V}
  (hfresh : r.inv.Fresh cfg) (hdoc : r.Documented cfg)

omit [DecidableEq V] in
include hfresh hdoc in
/-- The condition of a for-instance is not the one of a child. -/
theorem type_ne_of_own {F G ref : ObjectReference} (hF : r.ForInstance cfg F) (hFdoc : F.Documented)
    (hG : r.ForInstance cfg G) (href : r.inv.role ref = some .ownGVKKind) (hrefdoc : ref.Documented) :
    getConditionType G ≠ getConditionType ref := by
  intro heq
  have hGrole := ForInstance.role hfresh hG
  rcases hdoc.forInstance hfresh hG with hGdoc | hname
  · rw [hGdoc.injective hrefdoc heq, href] at hGrole
    cases hGrole
  · have hgvk : G.gvk = F.gvk := ((hfresh.role_for G).mp hGrole).trans
      ((hfresh.role_for F).mp (ForInstance.role hfresh hF)).symm
    have hempty := decode_unnamed hFdoc hgvk hname
    rw [heq, hrefdoc.decode] at hempty
    exact ne_empty_of_named hrefdoc.named hempty

variable (h : (r.filed cfg).stage1 cfg ord = .ok r₁) {updateFn : UpdateResourceFn V}
  (hret : ∀ G ctx, (G, ctx) ∈ r₁.inv.getReadyMap → ∀ obj ∈ returnedObjs updateFn ord G ctx,
    r.inv.role obj.ref = some .ownGVKKind → obj.ref.Documented)
  (hwrites : Writes (stage2Script updateFn ord r₁.inv) r₁ r₂)
  {F : ObjectReference} (hF : r.ForInstance cfg F) (hFdoc : F.Documented)
  {objs : List (KubeObject V)}
  (hreply : reply updateFn ord F (r₁.inv.readyCtxOf F) = some (.ok objs))
  (hdistinct : ∀ G ctx, G ≠ F → (G, ctx) ∈ r₁.inv.getReadyMap →
    ∀ obj' ∈ returnedObjs updateFn ord G ctx, ∀ obj ∈ objs, obj'.ref ≠ obj.ref)

include hfresh h hwrites hF hFdoc hreply hdistinct

/-- The item of an own object that was returned is the last one returned with its identity. -/
theorem lookup_items_returned {obj : KubeObject V} (hobj : obj ∈ objs)
    (hrole : r.inv.role obj.ref = some .ownGVKKind) (hnamed : obj.ref.Named) :
    Keyed.lookup KubeObject.id obj.id r₂.items =
      (objs.filter fun o => o.id = obj.id).getLast? := by
  have hsome : (r₁.inv.resources.find (forPath F)).isSome :=
    (isSome_of_stage1 hfresh h _).mpr ((isSome_stage1_for hfresh).mpr hF)
  have hroles : r₁.inv.role obj.ref = some .ownGVKKind := by
    rw [inv_of_stage1 hfresh h]
    exact hrole
  have hscript : (updateForScript updateFn ord r₁.inv F (r₁.inv.readyCtxOf F)).items =
      objs.flatMap fun o =>
        (updateResourceScript r₁.inv F (r₁.inv.readyCtxOf F).forCondition o).items :=
    items_updateForScript hreply
  have hitems : (stage2Script updateFn ord r₁.inv).items.filter (fun o => o.id = obj.id) =
      objs.filter fun o => o.id = obj.id := by
    rw [stage2Script, Script.items_flatMap,
      filter_flatMap_readyMap (keysNodup_of_stage1 hfresh h) hsome, hscript,
      items_at_returned hroles ⟨hFdoc.named, hnamed⟩]
    intro G ctx hne hctx o ho
    rw [decide_eq_false_iff_not]
    intro hid
    exact hdistinct G ctx hne hctx o (mem_items_updateForScript ho).1 obj hobj (ref_eq_of_id hid)
  rw [hwrites.items, Keyed.lookup_upsertAll, hitems]
  have hmem : obj ∈ objs.filter fun o => o.id = obj.id :=
    List.mem_filter.mpr ⟨hobj, decide_eq_true rfl⟩
  rw [List.getLast?_eq_some_getLast (List.ne_nil_of_mem hmem), Option.some_or]

include hdoc hret

/-- **The condition of an own object that was returned**: its own, if the inventory holds no
condition of the for-instance, and whatever was there before, if it does. -/
theorem lookup_condition_returned {obj : KubeObject V} (hobj : obj ∈ objs)
    (hrole : r.inv.role obj.ref = some .ownGVKKind) :
    r₂.kptfile.getCondition (getConditionType obj.ref) =
      match (r₁.inv.readyCtxOf F).forCondition with
      | none => some (ownCondition F obj.ref "update done" .conditionTrue)
      | some _ => r₁.kptfile.getCondition (getConditionType obj.ref) := by
  have hsome : (r₁.inv.resources.find (forPath F)).isSome :=
    (isSome_of_stage1 hfresh h _).mpr ((isSome_stage1_for hfresh).mpr hF)
  have hctx := (mem_getReadyMap_iff (keysNodup_of_stage1 hfresh h)).mpr ⟨hsome, rfl⟩
  have hroles : ∀ ref, r₁.inv.role ref = r.inv.role ref := by
    rw [inv_of_stage1 hfresh h]
    exact fun _ => rfl
  have hown : ∀ o ∈ objs, r₁.inv.role o.ref = some .ownGVKKind → o.ref.Documented := by
    intro o ho horole
    rw [hroles] at horole
    exact hret F _ hctx o (mem_returnedObjs.mpr ⟨objs, hreply, ho⟩) horole
  have hobjdoc := hown obj hobj ((hroles _).trans hrole)
  have hscript : (stage2Script updateFn ord r₁.inv).conditions.filter
        (fun e => e.target = getConditionType obj.ref) =
      (objs.flatMap fun o => (updateResourceScript r₁.inv F (r₁.inv.readyCtxOf F).forCondition
        o).conditions).filter fun e => e.target = getConditionType obj.ref := by
    rw [stage2Script, Script.conditions_flatMap,
      filter_flatMap_readyMap (keysNodup_of_stage1 hfresh h) hsome, conditions_updateForScript,
      hreply]
    intro G ctx hne hG e he
    rw [decide_eq_false_iff_not]
    intro heq
    obtain ⟨hGfor, htarget | htarget | ⟨obj', hobj', hrole', htarget⟩⟩ :=
      target_updateFor hfresh h hG he
    · exact type_ne_of_own hfresh hdoc hF hFdoc hGfor hrole hobjdoc (htarget.symm.trans heq)
    · rw [heq, hobjdoc.decode] at htarget
      have hGrole := ForInstance.role hfresh hGfor
      rw [← htarget, hrole] at hGrole
      cases hGrole
    · exact hdistinct G ctx hne hG obj' hobj' obj hobj
        ((hret G ctx hG obj' hobj' hrole').injective hobjdoc (htarget.symm.trans heq))
  show Keyed.lookup Condition.type (getConditionType obj.ref) r₂.kptfile.conditions = _
  rw [hwrites.conditions, Keyed.lookup_applyAll, hscript]
  cases hec : (r₁.inv.readyCtxOf F).forCondition with
  | none =>
    exact lookup_returned_own ((hroles F).trans (ForInstance.role hfresh hF)) hFdoc hown hobj
      ((hroles _).trans hrole) _
  | some c =>
    have htype : c.type = getConditionType F := type_of_forCondition hfresh h hdoc hF hec
    rw [List.filter_eq_nil_iff.mpr]
    · rfl
    · intro e he
      obtain ⟨o, -, he⟩ := List.mem_flatMap.mp he
      obtain ⟨-, ⟨c', hc', htarget⟩ | ⟨hnone, -⟩ | ⟨hnone, -⟩⟩ := target_updateResourceScript he
      · rw [decide_eq_true_iff, htarget, ← Option.some.inj hc', htype]
        exact type_ne_of_own hfresh hdoc hF hFdoc hF hrole hobjdoc
      · cases hnone
      · cases hnone

omit hdistinct in
theorem lookup_for_returned (hall : ∀ obj ∈ objs, r₁.inv.role obj.ref = some .ownGVKKind) :
    r₂.kptfile.getCondition (getConditionType F) =
      match (r₁.inv.readyCtxOf F).forCondition with
      | none => r₁.kptfile.getCondition (getConditionType F)
      | some c =>
        if objs = [] then r₁.kptfile.getCondition (getConditionType F)
        else some { c with message := "update done", status := .conditionTrue } := by
  have hsome : (r₁.inv.resources.find (forPath F)).isSome :=
    (isSome_of_stage1 hfresh h _).mpr ((isSome_stage1_for hfresh).mpr hF)
  have hctx := (mem_getReadyMap_iff (keysNodup_of_stage1 hfresh h)).mpr ⟨hsome, rfl⟩
  have hroles : ∀ ref, r₁.inv.role ref = r.inv.role ref := by
    rw [inv_of_stage1 hfresh h]
    exact fun _ => rfl
  rw [lookup_stage2_for hfresh hdoc h hret hwrites hF hFdoc, hreply]
  refine concluded_own fun obj hobj => ?_
  have hrole := (hroles _).symm.trans (hall obj hobj)
  exact ⟨hrole, (hret F _ hctx obj (mem_returnedObjs.mpr ⟨objs, hreply, hobj⟩) hrole).named⟩

end Tracks

section Stage2

variable [DecidableEq V] {cfg : Config V} {ord : Order} {r r₁ : Sdk V}

theorem succeed_of_ready (h : ((r.filed cfg).runWatches cfg ord).stage1 cfg ord = .ok r₁)
    (hready : r₁.inv.ready = true) : r.WatchesSucceed cfg ord := by
  by_contra hfail
  obtain ⟨err, htouches⟩ := stage1_idle_touches hfail h
  rw [htouches.inv] at hready
  cases hready

end Stage2

/-- The function answers each Interface with a claim that it owns. -/
def returningConfig : Config Nat :=
  { claimsConfig .childRemote fun _ => [] with
    updateResourceFn := some fun F _ _ => .ok [owned F (ipClaimObj "n3-ipv4" (some 2))] }

def returningPackage (conditions : List Condition) : Sdk Nat where
  items := [interfaceObj "n3"]
  kptfile := { conditions }
  inv := claimsInv .childRemote

def claimOfN3 : KubeObject Nat := owned (interfaceRef "n3") (ipClaimObj "n3-ipv4" (some 2))

end Sdk

end Nephio.CondKptSdk
