import Nephio.Laws.CondKptSdk.Stage1

/-!
# Laws.CondKptSdk.Stage2: the script of stage 2

In the ready state stage 2 is a script too (`updateResources_writes`): the ready map decides it, and
nothing that stage 2 writes is read again. Each edit fails the condition of a for-instance or comes
from an object that was returned for it.
-/

namespace Nephio.CondKptSdk

variable {V : Type}

/-- The condition that is written for an object stage 2 returned: the for condition `ec` that the
ready map holds, if there is one, and `c` otherwise. -/
def doneCondition (ec : Option Condition) (c : Condition) : Condition :=
  match ec with
  | some ec => { ec with message := "update done", status := .conditionTrue }
  | none => c

/-- One object that `UpdateResourceFn` returned. -/
def updateResourceScript (inv : Inv V) (F : ObjectReference) (ec : Option Condition)
    (obj : KubeObject V) : Script V :=
  match inv.role obj.ref with
  | some .forGVKKind =>
    if F.Named then
      { conditions := [.put (doneCondition ec (forCondition F "update done" .conditionTrue))]
        items := [obj]
        tree := [.set { gvkKind := .forGVKKind } (.object obj) false false (forPath F)] }
    else {}
  | some .ownGVKKind =>
    if F.Named ∧ obj.ref.Named then
      { conditions := [.put (doneCondition ec
          (ownCondition F obj.ref "update done" .conditionTrue))]
        items := [obj]
        tree := [.set { gvkKind := .ownGVKKind } (.object obj) false false (ownPath F obj.ref)] }
    else {}
  | _ => {}

/-- The objects handed to `UpdateResourceFn`. -/
def updateArgs (ord : Order) (F : ObjectReference) (ctx : ReadyCtx V) : List (KubeObject V) :=
  (ord.range (.readyOwn F) ctx.owns).map Prod.snd ++ (ord.range (.readyWatch F) ctx.watches).map
    Prod.snd

/-- What one for-instance's turn in stage 2 writes. -/
def updateForScript (updateFn : UpdateResourceFn V) (ord : Order) (inv : Inv V)
    (F : ObjectReference) (ctx : ReadyCtx V) : Script V :=
  if !ctx.ready || ctx.failed then {}
  else
    match Sdk.handleUpdateResource updateFn F ctx.forObj ctx.forCondition (updateArgs ord F ctx) with
    | .error err => { conditions := [failEdit F err] }
    | .ok newObjs => .flatMap newObjs (updateResourceScript inv F ctx.forCondition)

/-- The script of stage 2 in the ready state. -/
def stage2Script (updateFn : UpdateResourceFn V) (ord : Order) (inv : Inv V) : Script V :=
  .flatMap (ord.range .updateResources inv.getReadyMap) fun e =>
    updateForScript updateFn ord inv e.1 e.2

theorem updateResource_writes (F : ObjectReference) (ec : Option Condition) (r : Sdk V)
    (obj : KubeObject V) :
    Writes (updateResourceScript r.inv F ec obj) r (Sdk.updateResource F ec r obj) := by
  unfold updateResourceScript Sdk.updateResource Inv.role
  cases hm : r.inv.isGVKMatch obj.ref with
  | none => exact ⟨rfl, rfl, rfl⟩
  | some kc =>
    simp only [Option.map_some]
    cases kc.gvkKind with
    | forGVKKind =>
      by_cases h : F.Named
      · simp only [h, if_true, Sdk.upsertChildObject, getConditionByRef_for F _ _ h,
          Sdk.setObjectInResourceList, isRefsValid_for, decide_true]
        cases ec <;> exact ⟨rfl, rfl, rfl⟩
      · obtain ⟨e, he⟩ := getConditionByRef_invalid "update done" .conditionTrue
          ((isRefsValid_for F).trans (decide_eq_false h))
        simp only [h, if_false, Sdk.upsertChildObject, he]
        exact Writes.refl r
    | ownGVKKind =>
      by_cases h : F.Named ∧ obj.ref.Named
      · simp only [h, and_self, if_true, Sdk.upsertChildObject, getConditionByRef_own F _ _ _ h,
          Sdk.setObjectInResourceList, isRefsValid_own, decide_true]
        cases ec <;> exact ⟨rfl, rfl, rfl⟩
      · obtain ⟨e, he⟩ := getConditionByRef_invalid "update done" .conditionTrue
          ((isRefsValid_own F obj.ref).trans (decide_eq_false h))
        simp only [h, if_false, Sdk.upsertChildObject, he]
        exact Writes.refl r
    | watchGVKKind => exact ⟨rfl, rfl, rfl⟩

theorem updateResourceScript_congr {a b : Inv V} (h : a.gvkResources = b.gvkResources)
    (F : ObjectReference) (ec : Option Condition) (obj : KubeObject V) :
    updateResourceScript a F ec obj = updateResourceScript b F ec obj := by
  unfold updateResourceScript Inv.role
  rw [Inv.isGVKMatch_of_gvkResources h]

theorem updateFor_writes (updateFn : UpdateResourceFn V) (ord : Order) (r : Sdk V)
    (F : ObjectReference) (ctx : ReadyCtx V) :
    Writes (updateForScript updateFn ord r.inv F ctx) r (Sdk.updateFor updateFn ord r F ctx) := by
  unfold updateForScript Sdk.updateFor
  split_ifs
  · exact Writes.refl r
  · dsimp only [updateArgs]
    cases Sdk.handleUpdateResource updateFn F ctx.forObj ctx.forCondition _ with
    | error err => exact failCondition_writes r F err
    | ok newObjs =>
      refine Writes.foldl fun obj _ r' hr' => ?_
      rw [← updateResourceScript_congr hr']
      exact updateResource_writes F ctx.forCondition r' obj

theorem updateResources_writes {cfg : Config V} {updateFn : UpdateResourceFn V}
    (hfn : cfg.updateResourceFn = some updateFn) (ord : Order) {r : Sdk V}
    (hready : r.inv.ready = true) :
    ∃ r', r.updateResources cfg ord = .ok r' ∧ Writes (stage2Script updateFn ord r.inv) r r' := by
  unfold Sdk.updateResources
  simp only [hready, if_true, hfn]
  refine ⟨_, rfl, Writes.foldl fun e _ r' hr' => ?_⟩
  have hcongr : updateForScript updateFn ord r.inv e.1 e.2 =
      updateForScript updateFn ord r'.inv e.1 e.2 := by
    unfold updateForScript
    rw [funext fun obj => updateResourceScript_congr hr'.symm e.1 e.2.forCondition obj]
  rw [hcongr]
  exact updateFor_writes updateFn ord r' e.1 e.2

/-- When the function is not ready, stage 2 removes items and does nothing else. -/
theorem updateResources_notReady {cfg : Config V} {ord : Order} {r r' : Sdk V}
    (hready : r.inv.ready = false) (h : r.updateResources cfg ord = .ok r') :
    r'.kptfile = r.kptfile ∧ r'.inv = r.inv := by
  unfold Sdk.updateResources at h
  simp only [hready, Bool.false_eq_true, if_false] at h
  refine Fallible.foldlM_invariant (fun s : Sdk V => s.kptfile = r.kptfile ∧ s.inv = r.inv) ?_
    ⟨rfl, rfl⟩ h
  intro s s' e _ hs hstep
  cases hobj : e.2.forObj with
  | none =>
    rw [hobj] at hstep
    exact Except.ok.inj hstep ▸ hs
  | some forObj =>
    simp only [hobj] at hstep
    split_ifs at hstep
    · obtain ⟨items, -, hitems⟩ := Fallible.bind_eq_ok.mp hstep
      exact Except.ok.inj hitems ▸ hs
    · exact Except.ok.inj hstep ▸ hs

/-! ## Reading the script -/

theorem mem_getReadyMap {inv : Inv V} (hnd : inv.resources.KeysNodup 2) {F : ObjectReference}
    {ctx : ReadyCtx V} :
    (F, ctx) ∈ inv.getReadyMap ↔ ∃ forRes, inv.resources.find (forPath F) = some forRes ∧
      ctx = readyCtx forRes (inv.get .ownGVKKind [F, {}]) (inv.get .watchGVKKind [F, {}]) := by
  unfold Inv.getReadyMap
  rw [List.mem_map]
  constructor
  · rintro ⟨⟨F', forRes⟩, hmem, heq⟩
    simp only [Prod.mk.injEq] at heq
    obtain ⟨rfl, rfl⟩ := heq
    exact ⟨forRes, (Inv.mem_get_top hnd (k := .forGVKKind) nofun).mp hmem, rfl⟩
  · rintro ⟨forRes, hfind, rfl⟩
    exact ⟨(F, forRes), (Inv.mem_get_top hnd (k := .forGVKKind) nofun).mpr hfind, rfl⟩

/-- The objects that `UpdateResourceFn` returns for a for-instance, with their owner set; none where
it is not called or fails. -/
def returnedObjs (updateFn : UpdateResourceFn V) (ord : Order) (F : ObjectReference)
    (ctx : ReadyCtx V) : List (KubeObject V) :=
  if !ctx.ready || ctx.failed then []
  else
    match Sdk.handleUpdateResource updateFn F ctx.forObj ctx.forCondition (updateArgs ord F ctx) with
    | .error _ => []
    | .ok newObjs => newObjs

section Stage2

variable {updateFn : UpdateResourceFn V} {ord : Order} {inv : Inv V} {F : ObjectReference}
  {ctx : ReadyCtx V}

theorem ready_of_mem_updateForScript {e : ConditionEdit}
    (h : e ∈ (updateForScript updateFn ord inv F ctx).conditions) :
    ctx.ready = true ∧ ctx.failed = false := by
  unfold updateForScript at h
  split_ifs at h with hskip
  · cases h
  · simpa only [Bool.or_eq_true, Bool.not_eq_true', not_or, Bool.not_eq_false,
      Bool.not_eq_true] using hskip

/-- An edit of a for-instance's turn fails its condition, or is that of a returned object. -/
theorem mem_conditions_updateForScript {e : ConditionEdit}
    (h : e ∈ (updateForScript updateFn ord inv F ctx).conditions) :
    (∃ err, e = failEdit F err) ∨ ∃ obj ∈ returnedObjs updateFn ord F ctx,
      e ∈ (updateResourceScript inv F ctx.forCondition obj).conditions := by
  unfold updateForScript at h
  unfold returnedObjs
  split_ifs at h ⊢
  · cases h
  · cases hcall : Sdk.handleUpdateResource updateFn F ctx.forObj ctx.forCondition
        (updateArgs ord F ctx) with
    | error err =>
      rw [hcall] at h
      exact Or.inl ⟨err, List.mem_singleton.mp h⟩
    | ok newObjs =>
      rw [hcall] at h
      exact Or.inr (List.mem_flatMap.mp h)

theorem mem_items_updateForScript {o : KubeObject V}
    (h : o ∈ (updateForScript updateFn ord inv F ctx).items) :
    o ∈ returnedObjs updateFn ord F ctx ∧
      (inv.role o.ref = some .forGVKKind ∨ inv.role o.ref = some .ownGVKKind) := by
  have hobj : ∀ obj, o ∈ (updateResourceScript inv F ctx.forCondition obj).items → o = obj ∧
      (inv.role o.ref = some .forGVKKind ∨ inv.role o.ref = some .ownGVKKind) := by
    intro obj ho
    unfold updateResourceScript at ho
    split at ho
    next hrole =>
      split_ifs at ho
      · rw [List.mem_singleton.mp ho]
        exact ⟨rfl, Or.inl hrole⟩
      · cases ho
    next hrole =>
      split_ifs at ho
      · rw [List.mem_singleton.mp ho]
        exact ⟨rfl, Or.inr hrole⟩
      · cases ho
    next => cases ho
  unfold updateForScript at h
  unfold returnedObjs
  split_ifs at h ⊢
  · cases h
  · cases hcall : Sdk.handleUpdateResource updateFn F ctx.forObj ctx.forCondition
        (updateArgs ord F ctx) with
    | error err =>
      rw [hcall] at h
      cases h
    | ok newObjs =>
      rw [hcall] at h
      obtain ⟨obj, hmem, ho⟩ := List.mem_flatMap.mp h
      obtain ⟨rfl, hrole⟩ := hobj obj ho
      exact ⟨hmem, hrole⟩

/-- The condition that a returned object writes is that of the for-instance where the inventory
holds one, and otherwise the object's own. -/
theorem target_updateResourceScript {ec : Option Condition} {obj : KubeObject V}
    {e : ConditionEdit} (h : e ∈ (updateResourceScript inv F ec obj).conditions) :
    F.Named ∧ ((∃ c, ec = some c ∧ e.target = c.type) ∨
      (ec = none ∧ inv.role obj.ref = some .forGVKKind ∧ e.target = getConditionType F) ∨
      (ec = none ∧ inv.role obj.ref = some .ownGVKKind ∧ obj.ref.Named ∧
        e.target = getConditionType obj.ref)) := by
  unfold updateResourceScript at h
  split at h
  next hrole =>
    split_ifs at h with hnamed
    · rw [List.mem_singleton.mp h]
      cases ec with
      | none => exact ⟨hnamed, Or.inr (Or.inl ⟨rfl, hrole, rfl⟩)⟩
      | some c => exact ⟨hnamed, Or.inl ⟨c, rfl, rfl⟩⟩
    · cases h
  next hrole =>
    split_ifs at h with hnamed
    · rw [List.mem_singleton.mp h]
      cases ec with
      | none => exact ⟨hnamed.1, Or.inr (Or.inr ⟨rfl, hrole, hnamed.2, rfl⟩)⟩
      | some c => exact ⟨hnamed.1, Or.inl ⟨c, rfl, rfl⟩⟩
    · cases h
  next => cases h

end Stage2

end Nephio.CondKptSdk
