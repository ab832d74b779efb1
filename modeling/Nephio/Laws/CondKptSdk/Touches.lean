import Nephio.Laws.CondKptSdk.NotReady

/-!
# Laws.CondKptSdk.Touches: what a Run leaves alone

`Writes` says exactly what a script leaves where condition types are distinct. For what a Run does
*not* write no such assumption is needed: `Touches` keeps, for a script, what is not at one of its
keys. It composes as `Writes` does, and every part of a Run that completes touches no more than its
script.
-/

namespace Nephio.CondKptSdk

variable {V : Type}

/-- `r'` is `r` after a script, with nothing said about the conditions at the keys of the script. -/
structure Touches (s : Script V) (r r' : Sdk V) : Prop where
  conditions : ∀ t, (∀ e ∈ s.conditions, e.target ≠ t) →
    r'.kptfile.conditions.filter (fun c => c.type = t) =
      r.kptfile.conditions.filter fun c => c.type = t
  items : r'.items = Keyed.upsertAll KubeObject.id s.items r.items
  inv : r'.inv = r.inv.write s.tree

theorem Writes.touches {s : Script V} {r r' : Sdk V} (h : Writes s r r') : Touches s r r' where
  conditions t ht := by rw [h.conditions, Keyed.filter_applyAll_of_forall_ne ht]
  items := h.items
  inv := h.inv

namespace Touches

variable {s t : Script V} {r r₁ r₂ : Sdk V}

theorem trans (h₁ : Touches s r r₁) (h₂ : Touches t r₁ r₂) : Touches (s ++ t) r r₂ where
  conditions k hk := by
    rw [h₂.conditions k fun e he => hk e (List.mem_append_right _ he),
      h₁.conditions k fun e he => hk e (List.mem_append_left _ he)]
  items := by
    rw [h₂.items, h₁.items, Script.items_append, Keyed.upsertAll_append]
  inv := by
    rw [h₂.inv, h₁.inv, Script.tree_append, Inv.write_write]

/-- The script of a loop that completes. -/
theorem foldlM {α : Type} {step : Sdk V → α → Except Go.Panic (Sdk V)} {f : α → Script V}
    {l : List α} (hstep : ∀ a ∈ l, ∀ r r' : Sdk V, step r a = .ok r' → Touches (f a) r r')
    {r r' : Sdk V} (h : l.foldlM step r = .ok r') : Touches (.flatMap l f) r r' := by
  induction l generalizing r with
  | nil =>
    rw [← Except.ok.inj h]
    exact (Writes.refl r).touches
  | cons a l ih =>
    rw [List.foldlM_cons] at h
    obtain ⟨r₁, hr₁, h⟩ := Fallible.bind_eq_ok.mp h
    exact (hstep a List.mem_cons_self r r₁ hr₁).trans
      (ih (fun b hb => hstep b (List.mem_cons_of_mem _ hb)) h)

/-- Conditions at other keys, read by type. -/
theorem lookup (h : Touches s r r₁) {t : String} (ht : ∀ e ∈ s.conditions, e.target ≠ t) :
    r₁.kptfile.getCondition t = r.kptfile.getCondition t := by
  have hhead : ∀ cs : List Condition, cs.find? (fun c => c.type = t) =
      (cs.filter fun c => c.type = t).head? := fun cs => List.head?_filter.symm
  rw [KptFile.getCondition, KptFile.getCondition, hhead, hhead, h.conditions t ht]

end Touches

/-! ## Deleting a condition -/

theorem filter_deleteCondition {k k' : KptFile} {ct t : String} (h : k.deleteCondition ct = .ok k')
    (hne : ct ≠ t) :
    k'.conditions.filter (fun c => c.type = t) = k.conditions.filter fun c => c.type = t := by
  obtain ⟨ecs, hecs, hk'⟩ := Fallible.bind_eq_ok.mp h
  have hkept := congrArg (List.filter fun c : Condition => c.type = t) (Go.filter_removeLoop hecs)
  have hother : ∀ cs : List Condition, (cs.filter fun c => !decide (c.type = ct)).filter
      (fun c => c.type = t) = cs.filter fun c => c.type = t := by
    intro cs
    rw [List.filter_filter]
    refine List.filter_congr fun c _ => ?_
    by_cases hc : c.type = t
    · simp only [hc, decide_true, Bool.true_and, Bool.not_eq_true', decide_eq_false_iff_not,
        hne.symm, not_false_eq_true]
    · simp only [hc, decide_false, Bool.false_and]
  rw [hother, hother] at hkept
  rw [← Except.ok.inj hk']
  exact hkept

theorem deleteCondition_touches {kind : GvkKind} {refs : List ObjectReference}
    {path : List SdkObjectReference} (hpath : getSdkRefs kind refs = .ok path) {c : Condition}
    (hc : getConditionByRef refs "" .conditionFalse = .ok c) {r r' : Sdk V}
    (h : (Sdk.report <$> r.deleteCondition kind refs) = .ok r') :
    Touches { conditions := [.remove c.type], tree := [.clear path] } r r' := by
  obtain ⟨⟨r₁, err⟩, hr₁, hr'⟩ := Fallible.map_eq_ok.mp h
  unfold Sdk.deleteCondition at hr₁
  rw [hc] at hr₁
  obtain ⟨k, hk, hr₁⟩ := Fallible.bind_eq_ok.mp hr₁
  have hkpt : Touches { conditions := [.remove c.type] } r { r with kptfile := k } := by
    refine ⟨fun t ht => ?_, rfl, rfl⟩
    exact filter_deleteCondition hk (ht _ (List.mem_singleton_self _))
  have hpath' : getSdkRefs ({ gvkKind := kind } : GvkKindCtx V).gvkKind refs = .ok path := hpath
  have hinv := (withInv_delete_writes { r with kptfile := k } hpath').touches
  rw [Except.ok.inj hr₁, hr'] at hinv
  exact hkpt.trans hinv

theorem deleteCondition_for_touches {F : ObjectReference} {r r' : Sdk V}
    (h : (Sdk.report <$> r.deleteCondition .forGVKKind [F]) = .ok r') :
    Touches (deleteForScript F) r r' := by
  by_cases hF : F.Named
  · rw [deleteForScript, if_pos hF]
    exact deleteCondition_touches rfl (getConditionByRef_for F _ _ hF) h
  · obtain ⟨e, he⟩ := getConditionByRef_invalid "" .conditionFalse
      ((isRefsValid_for F).trans (decide_eq_false hF))
    rw [Sdk.deleteCondition, he] at h
    rw [deleteForScript, if_neg hF, ← Except.ok.inj h]
    exact ((Writes.refl r).report _).touches

theorem deleteCondition_own_touches {F ref : ObjectReference} {r r' : Sdk V}
    (h : (Sdk.report <$> r.deleteCondition .ownGVKKind [F, ref]) = .ok r') :
    Touches (deleteOwnScript F ref) r r' := by
  by_cases hnamed : F.Named ∧ ref.Named
  · rw [deleteOwnScript, if_pos hnamed]
    exact deleteCondition_touches rfl (getConditionByRef_own F ref _ _ hnamed) h
  · obtain ⟨e, he⟩ := getConditionByRef_invalid "" .conditionFalse
      ((isRefsValid_own F ref).trans (decide_eq_false hnamed))
    rw [Sdk.deleteCondition, he] at h
    rw [deleteOwnScript, if_neg hnamed, ← Except.ok.inj h]
    exact ((Writes.refl r).report _).touches

/-! ## `updateChildren` -/

theorem applyDiff_touches {F : ObjectReference} {d : InventoryDiff V} {r r' : Sdk V}
    (h : Sdk.applyDiff F d r = .ok r') : Touches (diffScript F d) r r' := by
  have hfor : Writes (if d.updateForCondition then
      setForScript F "update for condition" .conditionFalse false else {}) r
      (if d.updateForCondition then Sdk.report (r.setCondition .forGVKKind [F]
        "update for condition" .conditionFalse false) else r) := by
    split_ifs
    · exact setCondition_for_writes r F _ _ _
    · exact Writes.refl r
  have hcreate := hfor.trans (Writes.foldl (l := Sdk.sortByRef Child.ref d.createConditions)
    fun c _ r' _ => setCondition_own_writes r' F c.ref (Sdk.createMsg c.ownKind)
      (Sdk.createStatus c.ownKind))
  obtain ⟨r₁, hr₁, h⟩ := Fallible.bind_eq_ok.mp h
  have hdelete : Touches (.flatMap d.deleteConditions fun c => deleteOwnScript F c.ref) _ r₁ :=
    Touches.foldlM (fun c _ s s' hs => deleteCondition_own_touches hs) hr₁
  rw [← Except.ok.inj h]
  refine ((((hcreate.touches.trans hdelete).trans (Writes.foldl fun o _ r' _ => ?_).touches).trans
    (Writes.foldl fun o _ r' _ => ?_).touches).trans
    (Writes.foldl fun o _ r' _ => ?_).touches).trans (Writes.foldl fun o _ r' _ => ?_).touches
  · exact upsertChildObject_writes r' F o.ref o.obj o.ownKind _ _
  · exact upsertChildObject_writes r' F o.ref o.obj o.ownKind _ _
  · exact deleteChildObject_writes r' F o.ref o.obj _
  · exact upsertChildObject_writes r' F o.ref o.obj o.ownKind _ _

theorem applyDiffNotReady_touches {F : ObjectReference} {d : InventoryDiff V} {r r' : Sdk V}
    (h : Sdk.applyDiffNotReady F d r = .ok r') : Touches (notReadyScript F d) r r' := by
  have hmark : ∀ r₁ : Sdk V, Writes (.flatMap d.deleteObjs fun o =>
      markOwnScript F o.ref o.obj "not ready") r₁ (d.deleteObjs.foldl (fun r obj =>
        Sdk.report (r.deleteChildObject [F, obj.ref] obj.obj "not ready")) r₁) := fun r₁ =>
    Writes.foldl fun o _ r' _ => deleteChildObject_writes r' F o.ref o.obj _
  unfold Sdk.applyDiffNotReady at h
  unfold notReadyScript
  split_ifs at h ⊢
  · obtain ⟨r₁, hr₁, h⟩ := Fallible.bind_eq_ok.mp h
    rw [← Except.ok.inj h]
    exact (deleteCondition_for_touches hr₁).trans (hmark r₁).touches
  · rw [← Except.ok.inj h]
    exact ((Writes.refl r).trans (hmark r)).touches

/-- **What `updateChildren` touches**, when it completes. -/
theorem updateChildren_touches [DecidableEq V] {ord : Order} {r r' : Sdk V}
    (h : r.updateChildren ord = .ok r') :
    r.inv.DiffCompletes ∧
      Touches (if r.inv.ready then readyScript ord r.inv else idleScript ord r.inv) r r' := by
  unfold Sdk.updateChildren at h
  obtain ⟨ds, hdiff, h⟩ := Fallible.bind_eq_ok.mp h
  obtain ⟨hcompletes, rfl⟩ := diff_eq_ok.mp hdiff
  refine ⟨hcompletes, ?_⟩
  split_ifs at h ⊢
  · exact Touches.foldlM (fun e _ s s' hs => applyDiff_touches hs) h
  · exact Touches.foldlM (fun e _ s s' hs => applyDiffNotReady_touches hs) h

end Nephio.CondKptSdk
