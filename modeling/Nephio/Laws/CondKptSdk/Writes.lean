import Nephio.Data.Fallible
import Nephio.Laws.CondKptSdk.Tree
import Nephio.Laws.Kptfile.Store
import Nephio.CondKptSdk.Run

/-!
# Laws.CondKptSdk.Writes: what the sdk's operations write

Every operation of the sdk writes to three places: the conditions of the Kptfile, the items, and the
inventory. A `Script` lists the writes to each of them, and `Writes s r r'` says that `r'` is `r`
after the script, up to the reported results. This module gives each operation its script. A Run is
then a composition of scripts (`Writes.trans`, `Writes.foldl`), and what a condition, an item or an
inventory entry is at the end is read off the script.
-/

namespace Nephio.CondKptSdk

variable {V : Type}

/-- An edit of the conditions. -/
abbrev ConditionEdit := Keyed.Edit Condition.type

/-- The writes of a part of a Run, to each of the three places. -/
structure Script (V : Type) where
  conditions : List ConditionEdit := []
  items : List (KubeObject V) := []
  tree : List (TreeWrite V) := []

namespace Script

/-- One script after the other. -/
protected def append (s t : Script V) : Script V where
  conditions := s.conditions ++ t.conditions
  items := s.items ++ t.items
  tree := s.tree ++ t.tree

instance : Append (Script V) := ⟨Script.append⟩

/-- The scripts of the turns of a loop. -/
def flatMap {α : Type} (l : List α) (f : α → Script V) : Script V where
  conditions := l.flatMap fun a => (f a).conditions
  items := l.flatMap fun a => (f a).items
  tree := l.flatMap fun a => (f a).tree

@[simp] theorem conditions_append (s t : Script V) :
    (s ++ t).conditions = s.conditions ++ t.conditions := rfl

@[simp] theorem items_append (s t : Script V) : (s ++ t).items = s.items ++ t.items := rfl

@[simp] theorem tree_append (s t : Script V) : (s ++ t).tree = s.tree ++ t.tree := rfl

@[simp] theorem conditions_flatMap {α : Type} (l : List α) (f : α → Script V) :
    (flatMap l f).conditions = l.flatMap fun a => (f a).conditions := rfl

@[simp] theorem items_flatMap {α : Type} (l : List α) (f : α → Script V) :
    (flatMap l f).items = l.flatMap fun a => (f a).items := rfl

@[simp] theorem tree_flatMap {α : Type} (l : List α) (f : α → Script V) :
    (flatMap l f).tree = l.flatMap fun a => (f a).tree := rfl

theorem flatMap_cons {α : Type} (a : α) (l : List α) (f : α → Script V) :
    flatMap (a :: l) f = f a ++ flatMap l f := rfl

end Script

/-- `r'` is `r` after a script. -/
structure Writes (s : Script V) (r r' : Sdk V) : Prop where
  conditions : r'.kptfile.conditions = Keyed.applyAll s.conditions r.kptfile.conditions
  items : r'.items = Keyed.upsertAll KubeObject.id s.items r.items
  inv : r'.inv = r.inv.write s.tree

namespace Writes

variable {s t : Script V} {r r₁ r₂ : Sdk V}

theorem refl (r : Sdk V) : Writes {} r r := ⟨rfl, rfl, rfl⟩

theorem trans (h₁ : Writes s r r₁) (h₂ : Writes t r₁ r₂) : Writes (s ++ t) r r₂ where
  conditions := by
    rw [h₂.conditions, h₁.conditions, Script.conditions_append, Keyed.applyAll_append]
  items := by
    rw [h₂.items, h₁.items, Script.items_append, Keyed.upsertAll_append]
  inv := by
    rw [h₂.inv, h₁.inv, Script.tree_append, Inv.write_write]

/-- The results are not part of what is written. -/
theorem report (h : Writes s r r₁) (err : Option String) :
    Writes s r (Sdk.report (r₁, err)) := by
  cases err with
  | none => exact h
  | some e => exact ⟨h.conditions, h.items, h.inv⟩

theorem nodup (h : Writes s r r₁) (hnodup : (Keyed.keys Condition.type r.kptfile.conditions).Nodup) :
    (Keyed.keys Condition.type r₁.kptfile.conditions).Nodup := by
  rw [h.conditions]
  exact Keyed.nodup_keys_applyAll hnodup _

/-- The script of a loop whose turns write. What a turn writes may depend on the configured roles,
which no write changes. -/
theorem foldl {α : Type} {step : Sdk V → α → Sdk V} {f : α → Script V} {l : List α} {r : Sdk V}
    (hstep : ∀ a ∈ l, ∀ r' : Sdk V, r'.inv.gvkResources = r.inv.gvkResources →
      Writes (f a) r' (step r' a)) :
    Writes (.flatMap l f) r (l.foldl step r) := by
  induction l generalizing r with
  | nil => exact refl r
  | cons a l ih =>
    rw [Script.flatMap_cons, List.foldl_cons]
    have hfirst := hstep a List.mem_cons_self r rfl
    refine hfirst.trans (ih fun b hb r' hr' => hstep b (List.mem_cons_of_mem _ hb) r' ?_)
    rw [hr', hfirst.inv]
    rfl

/-- The script of a loop that can panic, where no turn does while condition types are distinct. -/
theorem foldlM {α : Type} {step : Sdk V → α → Except Go.Panic (Sdk V)} {f : α → Script V}
    {l : List α} (hstep : ∀ a ∈ l, ∀ r : Sdk V,
      (Keyed.keys Condition.type r.kptfile.conditions).Nodup →
        ∃ r', step r a = .ok r' ∧ Writes (f a) r r')
    {r : Sdk V} (hnodup : (Keyed.keys Condition.type r.kptfile.conditions).Nodup) :
    ∃ r', l.foldlM step r = .ok r' ∧ Writes (.flatMap l f) r r' := by
  induction l generalizing r with
  | nil => exact ⟨r, rfl, refl r⟩
  | cons a l ih =>
    obtain ⟨r₁, hr₁, hw₁⟩ := hstep a List.mem_cons_self r hnodup
    obtain ⟨r₂, hr₂, hw₂⟩ := ih (fun b hb => hstep b (List.mem_cons_of_mem _ hb)) (hw₁.nodup hnodup)
    refine ⟨r₂, ?_, hw₁.trans hw₂⟩
    rw [List.foldlM_cons, hr₁]
    exact hr₂

end Writes

/-! ## The operations -/

/-- The condition a for-instance is given. -/
def forCondition (F : ObjectReference) (msg : String) (status : ConditionStatus) : Condition where
  type := getConditionType F
  status := status
  message := msg

/-- The condition an own child of a for-instance is given. -/
def ownCondition (F ref : ObjectReference) (msg : String) (status : ConditionStatus) :
    Condition where
  type := getConditionType ref
  status := status
  reason := getConditionType F
  message := msg

/-- The edit of `SetConditionRefFailed`. -/
def failEdit (F : ObjectReference) (msg : String) : ConditionEdit where
  target := getConditionType F
  act held := some (KptFile.failedCondition (getConditionType F) msg held)
  keeps := by
    intro held c hheld hc
    rw [← Option.some.inj hc]
    cases held with
    | none => rfl
    | some c' => exact hheld c' rfl

/-- Where a for-instance is in the tree. -/
def forPath (F : ObjectReference) : List SdkObjectReference := [⟨.forGVKKind, F⟩]

/-- Where an own child is in the tree. -/
def ownPath (F ref : ObjectReference) : List SdkObjectReference :=
  [⟨.forGVKKind, F⟩, ⟨.ownGVKKind, ref⟩]

/-- Set the condition of a for-instance. -/
def setForScript (F : ObjectReference) (msg : String) (status : ConditionStatus) (failed : Bool) :
    Script V :=
  if F.Named then
    { conditions := [.put (forCondition F msg status)]
      tree := [.set { gvkKind := .forGVKKind } (.condition (forCondition F msg status)) false failed
        (forPath F)] }
  else {}

/-- Set the condition of an own child. -/
def setOwnScript (F ref : ObjectReference) (msg : String) (status : ConditionStatus) : Script V :=
  if F.Named ∧ ref.Named then
    { conditions := [.put (ownCondition F ref msg status)]
      tree := [.set { gvkKind := .ownGVKKind } (.condition (ownCondition F ref msg status)) false
        false (ownPath F ref)] }
  else {}

/-- Delete the condition of a for-instance. -/
def deleteForScript (F : ObjectReference) : Script V :=
  if F.Named then
    { conditions := [.remove (getConditionType F)], tree := [.clear (forPath F)] }
  else {}

/-- Delete the condition of an own child. -/
def deleteOwnScript (F ref : ObjectReference) : Script V :=
  if F.Named ∧ ref.Named then
    { conditions := [.remove (getConditionType ref)], tree := [.clear (ownPath F ref)] }
  else {}

/-- Write the object of an own child. -/
def putOwnScript (F ref : ObjectReference) (obj : KubeObject V) : Script V where
  items := [obj]
  tree := [.set { gvkKind := .ownGVKKind } (.object obj) false false (ownPath F ref)]

/-- Mark an own child for deletion. -/
def markOwnScript (F ref : ObjectReference) (obj : KubeObject V) (msg : String) : Script V :=
  if F.Named ∧ ref.Named then
    { conditions := [.put (ownCondition F ref msg .conditionFalse)] } ++
      putOwnScript F ref (obj.setAnnotation specializerDelete "true")
  else {}

/-- Write an own child: its condition, and its object for two of the kinds. -/
def upsertOwnScript (F ref : ObjectReference) (obj : KubeObject V) (ownKind : Option ResourceKind)
    (msg : String) (status : ConditionStatus) : Script V :=
  if F.Named ∧ ref.Named then
    { conditions := [.put (ownCondition F ref msg status)] } ++
      if ownKind = some .childRemote ∨ ownKind = some .childLocal then putOwnScript F ref obj
      else {}
  else {}

section Operations

variable (r : Sdk V) (F ref : ObjectReference)

theorem getConditionByRef_for (msg : String) (status : ConditionStatus) (h : F.Named) :
    getConditionByRef [F] msg status = .ok (forCondition F msg status) := by
  simp only [getConditionByRef, isRefsValid, h, decide_true, if_true, List.headD_cons]
  rfl

theorem getConditionByRef_own (msg : String) (status : ConditionStatus) (h : F.Named ∧ ref.Named) :
    getConditionByRef [F, ref] msg status = .ok (ownCondition F ref msg status) := by
  simp only [getConditionByRef, isRefsValid, h, and_self, decide_true, if_true, List.headD_cons]
  rfl

theorem getConditionByRef_invalid {refs : List ObjectReference} (msg : String)
    (status : ConditionStatus) (h : isRefsValid refs = false) :
    ∃ e, getConditionByRef refs msg status = .error e := by
  simp only [getConditionByRef, h, Bool.false_eq_true, if_false]
  exact ⟨_, rfl⟩

theorem isRefsValid_for : isRefsValid [F] = decide F.Named := rfl

theorem isRefsValid_own : isRefsValid [F, ref] = decide (F.Named ∧ ref.Named) := rfl

theorem failCondition_writes (msg : String) :
    Writes { conditions := [failEdit F msg] } r (r.failCondition F msg) := ⟨rfl, rfl, rfl⟩

theorem setCondition_for_writes (msg : String) (status : ConditionStatus) (failed : Bool) :
    Writes (setForScript F msg status failed) r
      (Sdk.report (r.setCondition .forGVKKind [F] msg status failed)) := by
  by_cases h : F.Named
  · simp only [setForScript, h, if_true, Sdk.setCondition, getConditionByRef_for F msg status h]
    exact ⟨rfl, rfl, rfl⟩
  · obtain ⟨e, he⟩ := getConditionByRef_invalid msg status
      ((isRefsValid_for F).trans (decide_eq_false h))
    simp only [setForScript, h, if_false, Sdk.setCondition, he]
    exact (Writes.refl r).report _

theorem setCondition_own_writes (msg : String) (status : ConditionStatus) :
    Writes (setOwnScript F ref msg status) r
      (Sdk.report (r.setCondition .ownGVKKind [F, ref] msg status false)) := by
  by_cases h : F.Named ∧ ref.Named
  · rw [setOwnScript, if_pos h, Sdk.setCondition, getConditionByRef_own F ref msg status h]
    exact ⟨rfl, rfl, rfl⟩
  · obtain ⟨e, he⟩ := getConditionByRef_invalid msg status
      ((isRefsValid_own F ref).trans (decide_eq_false h))
    rw [setOwnScript, if_neg h, Sdk.setCondition, he]
    exact (Writes.refl r).report _

/-- Clearing a condition in the inventory; that it was not there is only reported. -/
theorem withInv_delete_writes {kc : GvkKindCtx V} {refs : List ObjectReference}
    {path : List SdkObjectReference} (hpath : getSdkRefs kc.gvkKind refs = .ok path) :
    Writes { tree := [.clear path] } r (Sdk.report (r.withInv (r.inv.delete kc refs))) := by
  unfold Inv.delete
  rw [hpath]
  change Writes _ r (Sdk.report (r.withInv (do
    let resources ← r.inv.resources.delete path
    return { r.inv with resources := resources })))
  cases hdel : r.inv.resources.delete path with
  | ok res =>
    refine ⟨rfl, rfl, ?_⟩
    simp only [Inv.write, TreeWrite.applyAll, List.foldl_cons, List.foldl_nil, TreeWrite.apply,
      hdel]
    rfl
  | error e =>
    refine ⟨rfl, rfl, ?_⟩
    simp only [Inv.write, TreeWrite.applyAll, List.foldl_cons, List.foldl_nil, TreeWrite.apply,
      hdel]
    rfl

variable {r}

/-- The Kptfile's part of `deleteCondition` does not panic where types are distinct; the inventory's
part writes what `withInv_delete_writes` says. -/
theorem deleteCondition_writes {kind : GvkKind} {refs : List ObjectReference}
    {path : List SdkObjectReference} (hpath : getSdkRefs kind refs = .ok path) {c : Condition}
    (hc : getConditionByRef refs "" .conditionFalse = .ok c)
    (hnodup : (Keyed.keys Condition.type r.kptfile.conditions).Nodup) :
    ∃ r', (Sdk.report <$> r.deleteCondition kind refs) = .ok r' ∧
      Writes { conditions := [.remove c.type], tree := [.clear path] } r r' := by
  unfold Sdk.deleteCondition
  rw [hc]
  simp only [KptFile.deleteCondition_eq_drop _ hnodup]
  refine ⟨_, rfl, ?_⟩
  have hkpt : Writes { conditions := [.remove c.type] } r { r with kptfile := { r.kptfile with
      conditions := Keyed.drop Condition.type c.type r.kptfile.conditions } } := ⟨rfl, rfl, rfl⟩
  exact hkpt.trans (withInv_delete_writes _ hpath)

theorem deleteCondition_for_writes
    (hnodup : (Keyed.keys Condition.type r.kptfile.conditions).Nodup) :
    ∃ r', (Sdk.report <$> r.deleteCondition .forGVKKind [F]) = .ok r' ∧
      Writes (deleteForScript F) r r' := by
  by_cases h : F.Named
  · rw [deleteForScript, if_pos h]
    exact deleteCondition_writes rfl (getConditionByRef_for F _ _ h) hnodup
  · obtain ⟨e, he⟩ := getConditionByRef_invalid "" .conditionFalse
      ((isRefsValid_for F).trans (decide_eq_false h))
    rw [deleteForScript, if_neg h, Sdk.deleteCondition, he]
    exact ⟨_, rfl, (Writes.refl r).report _⟩

theorem deleteCondition_own_writes
    (hnodup : (Keyed.keys Condition.type r.kptfile.conditions).Nodup) :
    ∃ r', (Sdk.report <$> r.deleteCondition .ownGVKKind [F, ref]) = .ok r' ∧
      Writes (deleteOwnScript F ref) r r' := by
  by_cases h : F.Named ∧ ref.Named
  · rw [deleteOwnScript, if_pos h]
    exact deleteCondition_writes rfl (getConditionByRef_own F ref _ _ h) hnodup
  · obtain ⟨e, he⟩ := getConditionByRef_invalid "" .conditionFalse
      ((isRefsValid_own F ref).trans (decide_eq_false h))
    rw [deleteOwnScript, if_neg h, Sdk.deleteCondition, he]
    exact ⟨_, rfl, (Writes.refl r).report _⟩

variable (r)

theorem setObjectInResourceList_own_writes (obj : KubeObject V) (h : F.Named ∧ ref.Named) :
    Writes (putOwnScript F ref obj) r (r.setObjectInResourceList .ownGVKKind [F, ref] obj).1 := by
  rw [Sdk.setObjectInResourceList, isRefsValid_own, decide_eq_true h, if_pos rfl]
  exact ⟨rfl, rfl, rfl⟩

/-- Writing the condition of a child to the Kptfile only. -/
theorem setConditions_writes (c : Condition) :
    Writes { conditions := [.put c] } r { r with kptfile := r.kptfile.setConditions [c] } :=
  ⟨rfl, rfl, rfl⟩

theorem deleteChildObject_writes (obj : KubeObject V) (msg : String) :
    Writes (markOwnScript F ref obj msg) r
      (Sdk.report (r.deleteChildObject [F, ref] obj msg)) := by
  by_cases h : F.Named ∧ ref.Named
  · rw [markOwnScript, if_pos h, Sdk.deleteChildObject, getConditionByRef_own F ref msg _ h]
    exact (((setConditions_writes r _).trans
      (setObjectInResourceList_own_writes _ F ref _ h)).report _).report _
  · obtain ⟨e, he⟩ := getConditionByRef_invalid msg .conditionFalse
      ((isRefsValid_own F ref).trans (decide_eq_false h))
    rw [markOwnScript, if_neg h, Sdk.deleteChildObject, he]
    exact (Writes.refl r).report _

theorem upsertChildObject_writes (obj : KubeObject V) (ownKind : Option ResourceKind)
    (msg : String) (status : ConditionStatus) :
    Writes (upsertOwnScript F ref obj ownKind msg status) r
      (Sdk.report (r.upsertChildObject .ownGVKKind [F, ref] obj ownKind none msg status false)) := by
  by_cases h : F.Named ∧ ref.Named
  · rw [upsertOwnScript, if_pos h, Sdk.upsertChildObject, getConditionByRef_own F ref msg _ h]
    by_cases hkind : ownKind = some .childRemote ∨ ownKind = some .childLocal
    · simp only [hkind, if_true, Bool.false_eq_true, if_false]
      exact (((setConditions_writes r _).trans
        (setObjectInResourceList_own_writes _ F ref obj h)).report _).report _
    · simp only [hkind, Bool.false_eq_true, if_false]
      exact (setConditions_writes r _).trans (Writes.refl _)
  · obtain ⟨e, he⟩ := getConditionByRef_invalid msg status
      ((isRefsValid_own F ref).trans (decide_eq_false h))
    rw [upsertOwnScript, if_neg h, Sdk.upsertChildObject, he]
    exact (Writes.refl r).report _

end Operations

end Nephio.CondKptSdk
