import Nephio.Laws.CondKptSdk.Diff

/-!
# Laws.CondKptSdk.Children: what stage 1 does with one child

The lists of a diff are carried out one after the other, so the steps that concern one child are
spread over the whole script. Put together they are the steps of the child's own delta
(`steps_at`), and these have a closed form: `outcome` is the condition the child ends with, and
`outcomeItem` the object that is written for it.
-/

namespace Nephio.CondKptSdk

variable {V : Type}

/-! ## Steps -/

/-- A step that a diff makes the sdk take for a child. -/
inductive ChildStep (V : Type) where
  | createCondition (kind : Option ResourceKind)
  | deleteCondition
  | createObj (kind : Option ResourceKind) (obj : KubeObject V)
  | updateObj (kind : Option ResourceKind) (obj : KubeObject V)
  | deleteObj (obj : KubeObject V)
  | unmarkObj (kind : Option ResourceKind) (obj : KubeObject V)

/-- What a step writes. -/
def ChildStep.script (F ref : ObjectReference) : ChildStep V → Script V
  | createCondition kind => setOwnScript F ref (Sdk.createMsg kind) (Sdk.createStatus kind)
  | deleteCondition => deleteOwnScript F ref
  | createObj kind obj =>
    upsertOwnScript F ref obj kind "create initial resource" (Sdk.createStatus kind)
  | updateObj kind obj => upsertOwnScript F ref obj kind "update resource" .conditionFalse
  | deleteObj obj => markOwnScript F ref obj "delete resource"
  | unmarkObj kind obj =>
    upsertOwnScript F ref obj kind "update resource" .conditionFalse

/-- The steps of a diff, in the order in which they are taken. -/
def InventoryDiff.steps (d : InventoryDiff V) : List (ObjectReference × ChildStep V) :=
  (Sdk.sortByRef Child.ref d.createConditions).map (fun c => (c.ref, .createCondition c.ownKind)) ++
  d.deleteConditions.map (fun c => (c.ref, .deleteCondition)) ++
  (Sdk.sortByRef (fun o => o.ref) d.createObjs).map (fun o => (o.ref, .createObj o.ownKind o.obj)) ++
  (Sdk.sortByRef (fun o => o.ref) d.updateObjs).map (fun o => (o.ref, .updateObj o.ownKind o.obj)) ++
  d.deleteObjs.map (fun o => (o.ref, .deleteObj o.obj)) ++
  d.updateDeleteAnnotations.map fun o => (o.ref, .unmarkObj o.ownKind o.obj)

/-- The reset of the for condition. -/
def resetForScript (F : ObjectReference) (d : InventoryDiff V) : Script V :=
  if d.updateForCondition then setForScript F "update for condition" .conditionFalse false else {}

theorem Script.append_empty (s : Script V) : s ++ ({} : Script V) = s := by
  change Script.append s {} = s
  simp only [Script.append, List.append_nil]

theorem Script.append_assoc (s t u : Script V) : s ++ t ++ u = s ++ (t ++ u) := by
  change Script.append (Script.append s t) u = Script.append s (Script.append t u)
  simp only [Script.append, List.append_assoc]

theorem Script.flatMap_append {α : Type} (l m : List α) (f : α → Script V) :
    Script.flatMap (l ++ m) f = .flatMap l f ++ .flatMap m f := by
  change Script.flatMap (l ++ m) f = Script.append (.flatMap l f) (.flatMap m f)
  simp only [Script.flatMap, Script.append, List.flatMap_append]

theorem Script.flatMap_map {α β : Type} (l : List α) (g : α → β) (f : β → Script V) :
    Script.flatMap (l.map g) f = .flatMap l fun a => f (g a) := by
  simp only [Script.flatMap, List.flatMap_map]

/-- A diff resets the for condition, and then takes its steps. -/
theorem diffScript_eq (F : ObjectReference) (d : InventoryDiff V) :
    diffScript F d = resetForScript F d ++ .flatMap d.steps fun s => s.2.script F s.1 := by
  simp only [diffScript, resetForScript, InventoryDiff.steps, Script.flatMap_append,
    Script.flatMap_map, Script.append_assoc, ChildStep.script]

/-! ## The steps of one child -/

theorem perm_sortByRef {α : Type} (ref : α → ObjectReference) (l : List α) :
    (Sdk.sortByRef ref l).Perm l := List.perm_insertionSort _ l

/-- In a list that each child of a loop adds to at most once, the elements of one child are those it
added, also after sorting. -/
theorem filter_section {α β : Type} {ref : α → ObjectReference} {lst : ObjectReference × β → List α}
    {cs : List (ObjectReference × β)} (hnd : (cs.map Prod.fst).Nodup)
    (habout : ∀ e ∈ cs, ((lst e).map ref).Sublist [e.1]) {e : ObjectReference × β} (he : e ∈ cs)
    {l : List α} (hl : l.Perm (cs.flatMap lst)) :
    l.filter (fun x => ref x = e.1) = lst e := by
  have hmem : ∀ e' ∈ cs, ∀ x ∈ lst e', ref x = e'.1 := by
    intro e' he' x hx
    exact List.mem_singleton.mp ((habout e' he').subset (List.mem_map_of_mem hx))
  have hunsorted : (cs.flatMap lst).filter (fun x => ref x = e.1) = lst e := by
    rw [List.filter_flatMap, Keyed.flatMap_of_key Prod.fst hnd he]
    · rw [List.filter_eq_self]
      intro x hx
      simpa using hmem e he x hx
    · intro e' he' hne
      rw [List.filter_eq_nil_iff]
      intro x hx heq
      exact hne ((hmem e' he' x hx).symm.trans (of_decide_eq_true heq))
  refine Loops.eq_of_perm_of_length_le_one ((hl.filter _).trans (.of_eq hunsorted)) ?_
  simpa using (habout e he).length_le

theorem filter_section_nil {α β : Type} {ref : α → ObjectReference}
    {lst : ObjectReference × β → List α} {cs : List (ObjectReference × β)}
    (habout : ∀ e ∈ cs, ((lst e).map ref).Sublist [e.1]) {r : ObjectReference}
    (hr : r ∉ cs.map Prod.fst) {l : List α} (hl : l.Perm (cs.flatMap lst)) :
    l.filter (fun x => ref x = r) = [] := by
  rw [List.filter_eq_nil_iff]
  intro x hx heq
  obtain ⟨e, he, hxe⟩ := List.mem_flatMap.mp (hl.mem_iff.mp hx)
  have href := List.mem_singleton.mp ((habout e he).subset (List.mem_map_of_mem hxe))
  exact hr (List.mem_map.mpr ⟨e, he, href.symm.trans (of_decide_eq_true heq)⟩)

/-- A list of at most one element is sorted. -/
theorem sortByRef_of_sublist {α : Type} {ref : α → ObjectReference} {l : List α}
    {r : ObjectReference} (h : (l.map ref).Sublist [r]) : Sdk.sortByRef ref l = l := by
  refine Loops.eq_of_perm_of_length_le_one (perm_sortByRef ref l) ?_
  simpa using h.length_le

/-- **The steps of one child** are those of its delta. -/
theorem steps_at {β : Type} {δ : ObjectReference × β → InventoryDiff V}
    {cs : List (ObjectReference × β)} (hnd : (cs.map Prod.fst).Nodup)
    (habout : ∀ e ∈ cs, (δ e).About e.1) {e : ObjectReference × β} (he : e ∈ cs) :
    (InventoryDiff.join (cs.map δ)).steps.filter (fun s => s.1 = e.1) = (δ e).steps := by
  have ha := habout e he
  simp only [InventoryDiff.steps, InventoryDiff.join, List.flatMap_map, List.filter_append,
    List.filter_map, Function.comp_def]
  rw [filter_section hnd (fun e' he' => (habout e' he').createConditions) he (perm_sortByRef _ _),
    filter_section hnd (fun e' he' => (habout e' he').deleteConditions) he (.refl _),
    filter_section hnd (fun e' he' => (habout e' he').createObjs) he (perm_sortByRef _ _),
    filter_section hnd (fun e' he' => (habout e' he').updateObjs) he (perm_sortByRef _ _),
    filter_section hnd (fun e' he' => (habout e' he').deleteObjs) he (.refl _),
    filter_section hnd (fun e' he' => (habout e' he').updateDeleteAnnotations) he (.refl _),
    sortByRef_of_sublist ha.createConditions, sortByRef_of_sublist ha.createObjs,
    sortByRef_of_sublist ha.updateObjs]

theorem steps_at_nil {β : Type} {δ : ObjectReference × β → InventoryDiff V}
    {cs : List (ObjectReference × β)} (habout : ∀ e ∈ cs, (δ e).About e.1) {r : ObjectReference}
    (hr : r ∉ cs.map Prod.fst) :
    (InventoryDiff.join (cs.map δ)).steps.filter (fun s => s.1 = r) = [] := by
  simp only [InventoryDiff.steps, InventoryDiff.join, List.flatMap_map, List.filter_append,
    List.filter_map, Function.comp_def]
  rw [filter_section_nil (fun e' he' => (habout e' he').createConditions) hr (perm_sortByRef _ _),
    filter_section_nil (fun e' he' => (habout e' he').deleteConditions) hr (.refl _),
    filter_section_nil (fun e' he' => (habout e' he').createObjs) hr (perm_sortByRef _ _),
    filter_section_nil (fun e' he' => (habout e' he').updateObjs) hr (perm_sortByRef _ _),
    filter_section_nil (fun e' he' => (habout e' he').deleteObjs) hr (.refl _),
    filter_section_nil (fun e' he' => (habout e' he').updateDeleteAnnotations) hr (.refl _)]
  rfl

/-! ## What becomes of a child -/

/-- The kinds of children whose objects the sdk writes. -/
def writtenKind (kind : Option ResourceKind) : Bool :=
  kind = some .childRemote ∨ kind = some .childLocal

/-- An object marked for deletion. -/
def mark (o : KubeObject V) : KubeObject V := o.setAnnotation specializerDelete "true"

namespace ChildStep

/-- The edit a step makes to the child's condition. -/
def edit (F ref : ObjectReference) : ChildStep V → ConditionEdit
  | createCondition kind =>
    .put (ownCondition F ref (Sdk.createMsg kind) (Sdk.createStatus kind))
  | deleteCondition => .remove (getConditionType ref)
  | createObj kind _ => .put (ownCondition F ref "create initial resource" (Sdk.createStatus kind))
  | updateObj _ _ => .put (ownCondition F ref "update resource" .conditionFalse)
  | deleteObj _ => .put (ownCondition F ref "delete resource" .conditionFalse)
  | unmarkObj _ _ => .put (ownCondition F ref "update resource" .conditionFalse)

/-- The object a step writes, if any. -/
def written : ChildStep V → List (KubeObject V)
  | createCondition _ => []
  | deleteCondition => []
  | createObj kind obj => if writtenKind kind then [obj] else []
  | updateObj kind obj => if writtenKind kind then [obj] else []
  | deleteObj obj => [mark obj]
  | unmarkObj kind obj => if writtenKind kind then [obj] else []

/-- What a step writes to the inventory. -/
def writes (F ref : ObjectReference) : ChildStep V → List (TreeWrite V)
  | createCondition kind =>
    [.set { gvkKind := .ownGVKKind }
      (.condition (ownCondition F ref (Sdk.createMsg kind) (Sdk.createStatus kind))) false false
      (ownPath F ref)]
  | deleteCondition => [.clear (ownPath F ref)]
  | s => s.written.map fun obj =>
      .set { gvkKind := .ownGVKKind } (.object obj) false false (ownPath F ref)

theorem script_eq (F ref : ObjectReference) (s : ChildStep V) :
    s.script F ref =
      if F.Named ∧ ref.Named then
        { conditions := [s.edit F ref], items := s.written, tree := s.writes F ref }
      else {} := by
  have hupsert : ∀ (obj : KubeObject V) (kind : Option ResourceKind) (msg : String)
      (status : ConditionStatus), upsertOwnScript F ref obj kind msg status =
        if F.Named ∧ ref.Named then
          { conditions := [.put (ownCondition F ref msg status)]
            items := if writtenKind kind then [obj] else []
            tree := (if writtenKind kind then [obj] else []).map fun obj =>
              .set { gvkKind := .ownGVKKind } (.object obj) false false (ownPath F ref) }
        else {} := by
    intro obj kind msg status
    simp only [upsertOwnScript, writtenKind, decide_eq_true_eq]
    split_ifs <;> rfl
  cases s with
  | createCondition kind => rfl
  | deleteCondition => rfl
  | createObj kind obj => exact hupsert obj kind _ _
  | updateObj kind obj => exact hupsert obj kind _ _
  | deleteObj obj =>
    simp only [script, markOwnScript]
    split_ifs <;> rfl
  | unmarkObj kind obj => exact hupsert obj kind _ _

theorem target_edit (F ref : ObjectReference) (s : ChildStep V) :
    (s.edit F ref).target = getConditionType ref := by
  cases s <;> rfl

theorem path_of_mem_writes {F ref : ObjectReference} {s : ChildStep V} {w : TreeWrite V}
    (h : w ∈ s.writes F ref) : w.path = ownPath F ref := by
  have hobjs : ∀ {os : List (KubeObject V)}, (w ∈ os.map fun obj => TreeWrite.set
      { gvkKind := .ownGVKKind } (.object obj) false false (ownPath F ref)) →
        w.path = ownPath F ref := by
    intro os hw
    obtain ⟨obj, -, rfl⟩ := List.mem_map.mp hw
    rfl
  cases s with
  | createCondition kind =>
    rw [List.mem_singleton.mp h]
    rfl
  | deleteCondition =>
    rw [List.mem_singleton.mp h]
    rfl
  | createObj kind obj => exact hobjs h
  | updateObj kind obj => exact hobjs h
  | deleteObj obj => exact hobjs h
  | unmarkObj kind obj => exact hobjs h

end ChildStep

variable [DecidableEq V]

/-- The condition a child ends stage 1 with, from the one the Kptfile `held`, where its for-instance
is in the package. -/
def outcome (F ref : ObjectReference) (res : ResourceCtx V) (held : Option Condition) :
    Option Condition :=
  let created := ownCondition F ref (Sdk.createMsg res.ownKind) (Sdk.createStatus res.ownKind)
  match res.newResource with
  | none =>
    if res.existingResource.isSome && !keptKind res.ownKind then
      some (ownCondition F ref "delete resource" .conditionFalse)
    else if res.existingCondition.isNone then some created
    else if keptKind res.ownKind then held
    else none
  | some _ =>
    if res.existingResource.isNone then
      some (ownCondition F ref "create initial resource" (Sdk.createStatus res.ownKind))
    else if specChanged res || unmarks res then
      some (ownCondition F ref "update resource" .conditionFalse)
    else if res.existingCondition.isNone then some created
    else held

/-- The object that is written for a child, if any, where its for-instance is in the package. -/
def outcomeItem (res : ResourceCtx V) : Option (KubeObject V) :=
  match res.newResource with
  | none => if keptKind res.ownKind then none else res.existingResource.map mark
  | some new =>
    if writtenKind res.ownKind && (res.existingResource.isNone || specChanged res || unmarks res) then
      some new
    else none

omit [DecidableEq V] in
/-- The condition the inventory holds for a child after stage 1, where its for-instance is in the
package. Only the steps about conditions change it. -/
def entryCondition (F ref : ObjectReference) (res : ResourceCtx V) : Option Condition :=
  match res.existingCondition with
  | none => some (ownCondition F ref (Sdk.createMsg res.ownKind) (Sdk.createStatus res.ownKind))
  | some c => if res.newResource.isNone && !keptKind res.ownKind then none else some c

omit [DecidableEq V] in
/-- The condition a child ends stage 1 with where its for-instance is not in the package. -/
def orphanOutcome (F ref : ObjectReference) (res : ResourceCtx V) (held : Option Condition) :
    Option Condition :=
  if res.existingResource.isSome && res.ownKind ≠ some .childInitial then
    some (ownCondition F ref "delete resource" .conditionFalse)
  else if res.existingCondition.isSome then none
  else held

omit [DecidableEq V] in
/-- The object that is written for a child whose for-instance is not in the package. -/
def orphanItem (res : ResourceCtx V) : Option (KubeObject V) :=
  if res.ownKind = some .childInitial then none else res.existingResource.map mark

/-- Only a child that exists and is wanted can have changed in itself. -/
theorem specChanged_eq_false {res : ResourceCtx V}
    (h : res.existingResource = none ∨ res.newResource = none) : specChanged res = false := by
  rcases h with h | h
  · simp only [specChanged, h]
  · cases her : res.existingResource <;> simp only [specChanged, her, h]

omit [DecidableEq V] in
theorem unmarks_eq_false {res : ResourceCtx V}
    (h : res.existingResource = none ∨ res.newResource = none) : unmarks res = false := by
  rcases h with h | h
  · simp only [unmarks, h]
  · cases her : res.existingResource <;> simp only [unmarks, her, h]

section Outcome

variable (F ref : ObjectReference)

/-- The edits of a child's condition come to its `outcome`. -/
theorem foldl_conditions_present (fc : Option Condition) (res : ResourceCtx V)
    (held : Option Condition) :
    (presentDelta true fc ref res).steps.foldl (fun held s => (s.2.edit F ref).act held) held =
      outcome F ref res held := by
  have habout := about_presentDelta true fc ref res
  simp only [InventoryDiff.steps, sortByRef_of_sublist habout.createConditions,
    sortByRef_of_sublist habout.createObjs, sortByRef_of_sublist habout.updateObjs]
  cases hnr : res.newResource with
  | none =>
    have hspec := specChanged_eq_false (Or.inr hnr)
    have hunmarks := unmarks_eq_false (Or.inr hnr)
    cases her : res.existingResource <;> cases hec : res.existingCondition <;>
      cases hkept : keptKind res.ownKind <;>
      simp [presentDelta, outcome, hnr, her, hec, hkept, hspec, hunmarks, ChildStep.edit]
  | some new =>
    cases her : res.existingResource with
    | none =>
      have hspec := specChanged_eq_false (Or.inl her)
      have hunmarks := unmarks_eq_false (Or.inl her)
      cases hec : res.existingCondition <;>
        simp [presentDelta, outcome, hnr, her, hec, hspec, hunmarks, ChildStep.edit]
    | some existing =>
      cases hec : res.existingCondition <;> cases hspec : specChanged res <;>
        cases hunmarks : unmarks res <;>
        simp [presentDelta, outcome, hnr, her, hec, hspec, hunmarks, ChildStep.edit]

/-- The objects written for a child come to its `outcomeItem`. -/
theorem items_present (fc : Option Condition) (res : ResourceCtx V) (os : List (KubeObject V)) :
    Keyed.upsertAll KubeObject.id
        ((presentDelta true fc ref res).steps.flatMap fun s => s.2.written) os =
      Keyed.upsertAll KubeObject.id (outcomeItem res).toList os := by
  have habout := about_presentDelta true fc ref res
  simp only [InventoryDiff.steps, sortByRef_of_sublist habout.createConditions,
    sortByRef_of_sublist habout.createObjs, sortByRef_of_sublist habout.updateObjs]
  cases hnr : res.newResource with
  | none =>
    have hspec := specChanged_eq_false (Or.inr hnr)
    have hunmarks := unmarks_eq_false (Or.inr hnr)
    cases her : res.existingResource <;> cases hec : res.existingCondition <;>
      cases hkept : keptKind res.ownKind <;>
      simp [presentDelta, outcomeItem, hnr, her, hec, hkept, hspec, hunmarks, ChildStep.written]
  | some new =>
    cases her : res.existingResource with
    | none =>
      have hspec := specChanged_eq_false (Or.inl her)
      have hunmarks := unmarks_eq_false (Or.inl her)
      cases hec : res.existingCondition <;> cases hkind : writtenKind res.ownKind <;>
        simp [presentDelta, outcomeItem, hnr, her, hec, hspec, hunmarks, hkind, ChildStep.written]
    | some existing =>
      cases hec : res.existingCondition <;> cases hspec : specChanged res <;>
        cases hunmarks : unmarks res <;> cases hkind : writtenKind res.ownKind <;>
        simp [presentDelta, outcomeItem, hnr, her, hec, hspec, hunmarks, hkind, ChildStep.written,
          Keyed.upsertAll, Keyed.upsert_upsert_self]

/-- The condition in the inventory: the objects that are written do not touch it. -/
theorem entry_present (fc : Option Condition) (res : ResourceCtx V) :
    let res' := ((presentDelta true fc ref res).steps.flatMap fun s => s.2.writes F ref).foldl
      (fun ctx w => w.on ctx) res
    res'.existingCondition = entryCondition F ref res ∧
      res'.existingResource = (outcomeItem res).or res.existingResource := by
  have habout := about_presentDelta true fc ref res
  simp only [InventoryDiff.steps, sortByRef_of_sublist habout.createConditions,
    sortByRef_of_sublist habout.createObjs, sortByRef_of_sublist habout.updateObjs]
  cases hnr : res.newResource with
  | none =>
    have hspec := specChanged_eq_false (Or.inr hnr)
    have hunmarks := unmarks_eq_false (Or.inr hnr)
    cases her : res.existingResource <;> cases hec : res.existingCondition <;>
      cases hkept : keptKind res.ownKind <;>
      simp [presentDelta, entryCondition, outcomeItem, hnr, her, hec, hkept, hspec, hunmarks,
        ChildStep.writes, ChildStep.written, TreeWrite.on, ResourceCtx.write]
  | some new =>
    cases her : res.existingResource with
    | none =>
      have hspec := specChanged_eq_false (Or.inl her)
      have hunmarks := unmarks_eq_false (Or.inl her)
      cases hec : res.existingCondition <;> cases hkind : writtenKind res.ownKind <;>
        simp [presentDelta, entryCondition, outcomeItem, hnr, her, hec, hspec, hunmarks, hkind,
          ChildStep.writes, ChildStep.written, TreeWrite.on, ResourceCtx.write]
    | some existing =>
      cases hec : res.existingCondition <;> cases hspec : specChanged res <;>
        cases hunmarks : unmarks res <;> cases hkind : writtenKind res.ownKind <;>
        simp [presentDelta, entryCondition, outcomeItem, hnr, her, hec, hspec, hunmarks, hkind,
          ChildStep.writes, ChildStep.written, TreeWrite.on, ResourceCtx.write]

omit [DecidableEq V] in
theorem entry_orphan (res : ResourceCtx V) :
    let res' := ((diffOrphan ref res).steps.flatMap fun s => s.2.writes F ref).foldl
      (fun ctx w => w.on ctx) res
    res'.existingCondition = none ∧
      res'.existingResource = (orphanItem res).or res.existingResource := by
  cases her : res.existingResource <;> cases hec : res.existingCondition <;>
    by_cases hkind : res.ownKind = some .childInitial <;>
    simp [InventoryDiff.steps, Sdk.sortByRef, diffOrphan, orphanItem, her, hec, hkind,
      ChildStep.writes, ChildStep.written, TreeWrite.on, ResourceCtx.write]

omit [DecidableEq V] in
theorem foldl_conditions_orphan (res : ResourceCtx V) (held : Option Condition) :
    (diffOrphan ref res).steps.foldl (fun held s => (s.2.edit F ref).act held) held =
      orphanOutcome F ref res held := by
  cases her : res.existingResource <;> cases hec : res.existingCondition <;>
    by_cases hkind : res.ownKind = some .childInitial <;>
    simp [InventoryDiff.steps, Sdk.sortByRef, diffOrphan, orphanOutcome, her, hec, hkind,
      ChildStep.edit]

omit [DecidableEq V] in
theorem items_orphan (res : ResourceCtx V) :
    ((diffOrphan ref res).steps.flatMap fun s => s.2.written) = (orphanItem res).toList := by
  cases her : res.existingResource <;> cases hec : res.existingCondition <;>
    by_cases hkind : res.ownKind = some .childInitial <;>
    simp [InventoryDiff.steps, Sdk.sortByRef, diffOrphan, orphanItem, her, hec, hkind,
      ChildStep.written]

end Outcome

end Nephio.CondKptSdk
