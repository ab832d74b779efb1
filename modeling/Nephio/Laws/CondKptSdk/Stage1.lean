import Nephio.Laws.CondKptSdk.Filing
import Nephio.Laws.CondKptSdk.Writes

/-!
# Laws.CondKptSdk.Stage1: the scripts of stage 1

`populateChildren` and `updateChildren` as scripts (`populateChildren_writes`,
`updateChildren_writes`). Where condition types are distinct, the only panic of stage 1 is that of
the diff.
-/

namespace Nephio.CondKptSdk

variable {V : Type}

theorem Inv.isGVKMatch_of_gvkResources {a b : Inv V} (h : a.gvkResources = b.gvkResources) :
    a.isGVKMatch = b.isGVKMatch := by
  unfold Inv.isGVKMatch
  rw [h]

/-! ## Populating the children -/

/-- The object of a child with its owner set. -/
def owned (F : ObjectReference) (obj : KubeObject V) : KubeObject V :=
  obj.setAnnotation specializerOwner (getConditionType F)

/-- One object that `PopulateOwnResourcesFn` returned: it is filed as new, or it fails the condition
of the for-instance. -/
def populateChildScript (inv : Inv V) (F : ObjectReference) (obj : KubeObject V) : Script V :=
  match inv.isGVKMatch obj.ref with
  | none =>
    { conditions := [failEdit F
        ("stage1: cannot find new resource in gvkmap: objRef: " ++ getRefsString [F, obj.ref])] }
  | some kc =>
    match getSdkRefs kc.gvkKind [F, obj.ref] with
    | .ok path => { tree := [.set kc (.object (owned F obj)) true false path] }
    | .error e =>
      { conditions := [failEdit F
          ("stage1: cannot set new resource to the inventory objRef: " ++ getRefsString [F] ++
            ", err: " ++ e ++ "\n")] }

/-- What one for-instance's turn in `populateChildren` writes. -/
def populateForScript (cfg : Config V) (inv : Inv V) (F : ObjectReference) (res : ResourceCtx V) :
    Script V :=
  match cfg.populateOwnResourcesFn, res.existingResource with
  | some populateOwn, some forObj =>
    match populateOwn F forObj with
    | .error err => setForScript F (Sdk.populateFailedMsg err) .conditionFalse true
    | .ok objs => .flatMap objs (populateChildScript inv F)
  | _, _ => {}

theorem populateChild_writes (F : ObjectReference) (r : Sdk V) (obj : KubeObject V) :
    Writes (populateChildScript r.inv F obj) r (Sdk.populateChild F r obj) := by
  cases hm : r.inv.isGVKMatch obj.ref with
  | none =>
    simp only [populateChildScript, Sdk.populateChild, hm]
    exact failCondition_writes r F _
  | some kc =>
    cases hrefs : getSdkRefs kc.gvkKind [F, obj.ref] with
    | ok path =>
      simp only [populateChildScript, Sdk.populateChild, hm, hrefs, Inv.set]
      exact ⟨rfl, rfl, rfl⟩
    | error e =>
      simp only [populateChildScript, Sdk.populateChild, hm, hrefs, Inv.set]
      exact failCondition_writes r F _

theorem populateChildScript_congr {a b : Inv V} (h : a.gvkResources = b.gvkResources)
    (F : ObjectReference) (obj : KubeObject V) :
    populateChildScript a F obj = populateChildScript b F obj := by
  unfold populateChildScript
  rw [Inv.isGVKMatch_of_gvkResources h]

theorem populateFor_writes (cfg : Config V) (r : Sdk V) (F : ObjectReference)
    (res : ResourceCtx V) :
    Writes (populateForScript cfg r.inv F res) r (Sdk.populateFor cfg r F res) := by
  unfold populateForScript Sdk.populateFor
  cases cfg.populateOwnResourcesFn with
  | none => exact Writes.refl r
  | some populateOwn =>
    cases res.existingResource with
    | none => exact Writes.refl r
    | some forObj =>
      dsimp only
      cases populateOwn F forObj with
      | error err => exact setCondition_for_writes r F _ _ _
      | ok objs =>
        refine Writes.foldl fun obj _ r' hr' => ?_
        rw [← populateChildScript_congr hr']
        exact populateChild_writes F r' obj

/-- The script of `populateChildren`. -/
def populateScript (cfg : Config V) (ord : Order) (inv : Inv V) : Script V :=
  .flatMap (ord.range .populateChildren (inv.get .forGVKKind [{}])) fun e =>
    populateForScript cfg inv e.1 e.2

theorem populateChildren_writes (cfg : Config V) (ord : Order) (r : Sdk V) :
    Writes (populateScript cfg ord r.inv) r (r.populateChildren cfg ord) := by
  refine Writes.foldl fun e _ r' hr' => ?_
  have hcongr : populateForScript cfg r.inv e.1 e.2 = populateForScript cfg r'.inv e.1 e.2 := by
    unfold populateForScript
    rw [funext fun obj => populateChildScript_congr hr'.symm e.1 obj]
  rw [hcongr]
  exact populateFor_writes cfg r' e.1 e.2

/-! ## Updating the children -/

/-- What the diff of one for-instance writes in the ready state. -/
def diffScript (F : ObjectReference) (d : InventoryDiff V) : Script V :=
  (if d.updateForCondition then setForScript F "update for condition" .conditionFalse false
    else {}) ++
  .flatMap (Sdk.sortByRef Child.ref d.createConditions) (fun c =>
    setOwnScript F c.ref (Sdk.createMsg c.ownKind) (Sdk.createStatus c.ownKind)) ++
  .flatMap d.deleteConditions (fun c => deleteOwnScript F c.ref) ++
  .flatMap (Sdk.sortByRef (fun o => o.ref) d.createObjs) (fun o =>
    upsertOwnScript F o.ref o.obj o.ownKind "create initial resource"
      (Sdk.createStatus o.ownKind)) ++
  .flatMap (Sdk.sortByRef (fun o => o.ref) d.updateObjs) (fun o =>
    upsertOwnScript F o.ref o.obj o.ownKind "update resource" .conditionFalse) ++
  .flatMap d.deleteObjs (fun o => markOwnScript F o.ref o.obj "delete resource") ++
  .flatMap d.updateDeleteAnnotations (fun o =>
    upsertOwnScript F o.ref o.obj o.ownKind "update resource" .conditionFalse)

/-- What the diff of one for-instance writes when the function is not ready. -/
def notReadyScript (F : ObjectReference) (d : InventoryDiff V) : Script V :=
  (if d.deleteForCondition then deleteForScript F else {}) ++
  .flatMap d.deleteObjs fun o => markOwnScript F o.ref o.obj "not ready"

theorem applyDiff_writes (F : ObjectReference) (d : InventoryDiff V) {r : Sdk V}
    (hnodup : (Keyed.keys Condition.type r.kptfile.conditions).Nodup) :
    ∃ r', Sdk.applyDiff F d r = .ok r' ∧ Writes (diffScript F d) r r' := by
  have hfor : Writes (if d.updateForCondition then
      setForScript F "update for condition" .conditionFalse false else {}) r
      (if d.updateForCondition then Sdk.report (r.setCondition .forGVKKind [F]
        "update for condition" .conditionFalse false) else r) := by
    split_ifs
    · exact setCondition_for_writes r F _ _ _
    · exact Writes.refl r
  have hcreate := hfor.trans (Writes.foldl (l := Sdk.sortByRef Child.ref d.createConditions)
    fun c _ r' _ => setCondition_own_writes r' F c.ref (Sdk.createMsg c.ownKind)
      (Sdk.createStatus c.ownKind))
  obtain ⟨r₁, hr₁, hdelete⟩ := Writes.foldlM (l := d.deleteConditions)
    (fun c _ r' hr' => deleteCondition_own_writes F c.ref hr') (hcreate.nodup hnodup)
  refine ⟨_, Fallible.bind_eq_ok.mpr ⟨r₁, hr₁, rfl⟩, ?_⟩
  refine ((((hcreate.trans hdelete).trans (Writes.foldl fun o _ r' _ => ?_)).trans
    (Writes.foldl fun o _ r' _ => ?_)).trans (Writes.foldl fun o _ r' _ => ?_)).trans
    (Writes.foldl fun o _ r' _ => ?_)
  · exact upsertChildObject_writes r' F o.ref o.obj o.ownKind _ _
  · exact upsertChildObject_writes r' F o.ref o.obj o.ownKind _ _
  · exact deleteChildObject_writes r' F o.ref o.obj _
  · exact upsertChildObject_writes r' F o.ref o.obj o.ownKind _ _

theorem applyDiffNotReady_writes (F : ObjectReference) (d : InventoryDiff V) {r : Sdk V}
    (hnodup : (Keyed.keys Condition.type r.kptfile.conditions).Nodup) :
    ∃ r', Sdk.applyDiffNotReady F d r = .ok r' ∧ Writes (notReadyScript F d) r r' := by
  have hmark : ∀ r₁ : Sdk V, Writes (.flatMap d.deleteObjs fun o =>
      markOwnScript F o.ref o.obj "not ready") r₁ (d.deleteObjs.foldl (fun r obj =>
        Sdk.report (r.deleteChildObject [F, obj.ref] obj.obj "not ready")) r₁) := fun r₁ =>
    Writes.foldl fun o _ r' _ => deleteChildObject_writes r' F o.ref o.obj _
  unfold Sdk.applyDiffNotReady notReadyScript
  split_ifs
  · obtain ⟨r₁, hr₁, hw₁⟩ := deleteCondition_for_writes F hnodup
    rw [hr₁]
    exact ⟨_, rfl, hw₁.trans (hmark r₁)⟩
  · exact ⟨_, rfl, (Writes.refl r).trans (hmark r)⟩

/-- The script of `updateChildren`, from the diff. -/
def updateScript (ord : Order) (ready : Bool)
    (ds : List (ObjectReference × InventoryDiff V)) : Script V :=
  if ready then .flatMap (Sdk.sortByRef Prod.fst ds) fun e => diffScript e.1 e.2
  else .flatMap (ord.range .notReadyDiff ds) fun e => notReadyScript e.1 e.2

theorem updateChildren_writes [DecidableEq V] {ord : Order} {r : Sdk V}
    {ds : List (ObjectReference × InventoryDiff V)} (hdiff : r.inv.diff ord = .ok ds)
    (hnodup : (Keyed.keys Condition.type r.kptfile.conditions).Nodup) :
    ∃ r', r.updateChildren ord = .ok r' ∧ Writes (updateScript ord r.inv.ready ds) r r' := by
  unfold Sdk.updateChildren updateScript
  rw [hdiff]
  cases r.inv.ready with
  | true => exact Writes.foldlM (fun e _ r' hr' => applyDiff_writes e.1 e.2 hr') hnodup
  | false => exact Writes.foldlM (fun e _ r' hr' => applyDiffNotReady_writes e.1 e.2 hr') hnodup

end Nephio.CondKptSdk
