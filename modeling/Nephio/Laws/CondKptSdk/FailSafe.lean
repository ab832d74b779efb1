import Nephio.Laws.CondKptSdk.Orphans

/-!
# Laws.CondKptSdk.FailSafe: a Run whose global watch fails

The callback of a global watch that fails makes the whole function not ready. The Run then calls
neither of the function's callbacks: it marks the remote children for deletion and leaves every other
item as it is. `run_failSafe` is this for a function that owns something; one that owns nothing
removes its for objects instead.
-/

namespace Nephio.CondKptSdk

variable {V : Type}

/-- The configuration with other callbacks. -/
def Config.withFns (cfg : Config V) (populate : Option (PopulateOwnResourcesFn V))
    (update : Option (UpdateResourceFn V)) : Config V :=
  { cfg with populateOwnResourcesFn := populate, updateResourceFn := update }

namespace Sdk

/-- The error that the callback of a watch returns. -/
def watchError (e : ObjectReference × ResourceCtx V) : Option String :=
  match e.2.callbackFn with
  | none => none
  | some callback =>
    match callback e.1 e.2.existingResource with
    | .ok _ => none
    | .error err => some err

/-- The callback of a global watch fails. -/
def WatchFails (cfg : Config V) (r : Sdk V) : Prop :=
  ∃ e ∈ (r.filed cfg).inv.get .watchGVKKind [{}], (watchError e).isSome

instance {cfg : Config V} {r : Sdk V} : Decidable (r.WatchFails cfg) :=
  inferInstanceAs (Decidable (∃ e ∈ (r.filed cfg).inv.get .watchGVKKind [{}], _))

theorem not_watchesSucceed {cfg : Config V} {r : Sdk V} (h : r.WatchFails cfg) (ord : Order) :
    ¬ r.WatchesSucceed cfg ord := by
  obtain ⟨e, he, herr⟩ := h
  intro hnone
  unfold WatchesSucceed callGlobalWatches at hnone
  simp only at hnone
  split at hnone
  next hfind =>
    have hcall : watchError e = none :=
      List.findSome?_eq_none_iff.mp hfind e ((ord.perm _ _).mem_iff.mpr he)
    rw [hcall] at herr
    cases herr
  next => cases hnone

/-- An item that is marked for deletion when a watch fails: a remote child, or a local one of a
for-instance that is gone. -/
def Withdraws (r : Sdk V) (o : KubeObject V) : Prop :=
  r.inv.role o.ref = some .ownGVKKind ∧
    r.inv.role (getGVKNFromConditionType o.owner) = some .forGVKKind ∧
    r.inv.ownKindOf o.ref ≠ some .childInitial ∧
    (r.inv.ownKindOf o.ref = some .childLocal →
      r.forObj (getGVKNFromConditionType o.owner) = none)

instance {r : Sdk V} {o : KubeObject V} : Decidable (r.Withdraws o) :=
  inferInstanceAs (Decidable (_ ∧ _ ∧ _ ∧ _))

theorem owns_of_withdraws {r : Sdk V} {o : KubeObject V} (ho : o ∈ r.items)
    (h : r.Withdraws o) : r.Owns (getGVKNFromConditionType o.owner) o.ref :=
  ⟨h.1, h.2.1, mem_resourcesOf.mpr (Or.inr ⟨o, ho, rfl, rfl⟩)⟩

theorem nodup_ids {os : List (KubeObject V)} (hrefs : (Keyed.keys KubeObject.ref os).Nodup) :
    (Keyed.keys KubeObject.id os).Nodup := by
  refine hrefs.of_map.map_on fun a ha b hb hid => List.inj_on_of_nodup_map hrefs ha hb ?_
  have href := @ref_of_id V b.ref a b hid
  rw [decide_eq_true rfl] at href
  exact of_decide_eq_true href

section Idle

variable [DecidableEq V] {cfg : Config V} {ord : Order} {r r₁ : Sdk V}

/-- What `updateChildren` does to the object of a child when nothing is wanted. -/
theorem deleteObjs_withdrawn {F : ObjectReference} {o : KubeObject V}
    (hitem : r.ownedItem F o.ref = some o) (hown : r.inv.role o.ref = some .ownGVKKind)
    (hF : r.inv.role F = some .forGVKKind) :
    (childDelta false (r.forCtx cfg.mute F) o.ref (r.childCtx cfg.mute F o.ref)).deleteObjs =
      if r.Withdraws o then [⟨⟨o.ref, r.inv.ownKindOf o.ref⟩, o⟩] else [] := by
  obtain rfl : getGVKNFromConditionType o.owner = F := (mem_of_ownedItem hitem).2.2
  have hkind : (r.childCtx cfg.mute (getGVKNFromConditionType o.owner) o.ref).ownKind =
      r.inv.ownKindOf o.ref := ownKind_childCtx (Or.inl (by rw [hitem]; rfl))
  by_cases hinitial : r.inv.ownKindOf o.ref = some .childInitial
  · rw [deleteObjs_initial (hkind.trans hinitial), if_neg fun h => h.2.2.1 hinitial]
  · cases hfor : r.forObj (getGVKNFromConditionType o.owner) with
    | none => rw [deleteObjs_orphan hfor hitem hinitial, if_pos ⟨hown, hF, hinitial, fun _ => hfor⟩]
    | some forObj =>
      have hnew : (r.childCtx cfg.mute (getGVKNFromConditionType o.owner) o.ref).newResource =
          none := wantedObj_mute _ _
      have hexisting :
          (r.childCtx cfg.mute (getGVKNFromConditionType o.owner) o.ref).existingResource =
            some o := hitem
      have hforRes : (r.forCtx cfg.mute (getGVKNFromConditionType o.owner)).existingResource =
          some forObj := hfor
      have hunmarks := unmarks_eq_false (Or.inr hnew)
      rw [childDelta_present hforRes (by rw [hunmarks]; exact fun h => Bool.false_ne_true h.1)]
      simp only [presentDelta, hnew, hexisting, hkind, Option.isNone_none, Bool.true_and,
        Option.toList_some, List.map_cons, List.map_nil]
      by_cases hlocal : r.inv.ownKindOf o.ref = some .childLocal
      · rw [if_neg (by simp only [keptKind, hlocal]; decide), if_neg]
        intro h
        rw [h.2.2.2 hlocal] at hfor
        cases hfor
      · rw [if_pos (by simp only [keptKind, hinitial, hlocal]; decide),
          if_pos ⟨hown, hF, hinitial, fun h => absurd h hlocal⟩]

variable (hfresh : r.inv.Fresh cfg) (hdoc : r.Documented cfg)

include hfresh hdoc

theorem mem_items_idle_iff (hrefs : (Keyed.keys KubeObject.ref r.items).Nodup)
    {o' : KubeObject V} :
    o' ∈ (idleScript ord (r.idleInv cfg)).items ↔ ∃ o ∈ r.items, r.Withdraws o ∧ o' = mark o := by
  constructor
  · intro ho'
    obtain ⟨F, ref, forRes, res, hres, hforRes, x, hx, rfl⟩ :=
      mem_items_idleScript (documented_idleInv hfresh hdoc).keys ho'
    obtain ⟨howns, rfl⟩ := (find_idle_own hfresh).mp hres
    obtain ⟨-, rfl⟩ := (find_idle_for hfresh hdoc).mp hforRes
    have hitem : r.ownedItem F ref = some x.obj := objs_childDelta.2 x hx
    obtain ⟨hmem, rfl, -⟩ := mem_of_ownedItem hitem
    have hdelete := @deleteObjs_withdrawn V _ cfg r F x.obj hitem howns.1 howns.2.1
    refine ⟨x.obj, hmem, ?_, rfl⟩
    by_contra hnot
    rw [if_neg hnot] at hdelete
    have hx' : x ∈ (childDelta false (r.forCtx cfg.mute F) x.obj.ref
        (r.childCtx cfg.mute F x.obj.ref)).deleteObjs := hx
    rw [hdelete] at hx'
    cases hx'
  · rintro ⟨o, ho, hwithdraws, rfl⟩
    have howns := owns_of_withdraws ho hwithdraws
    have hitem := ownedItem_of_mem hrefs ho rfl
    have hat := @idle_items_at_own V _ ord _ (documented_idleInv hfresh hdoc) _ _ _ _
      (fun _ _ hres hsome => owner_idle hfresh hrefs ho hres hsome)
      ((find_idle_for hfresh hdoc).mpr ⟨forInstance_of_own hfresh (Or.inl howns), rfl⟩)
      ((find_idle_own hfresh).mpr ⟨howns, rfl⟩)
    have hdelete : (childDelta (r.idleInv cfg).ready _ _ _).deleteObjs = _ :=
      @deleteObjs_withdrawn V _ cfg r _ o hitem howns.1 howns.2.1
    rw [hdelete, if_pos hwithdraws] at hat
    have hmem : mark o ∈ [mark o] := List.mem_singleton_self _
    rw [← show _ = [mark o] from hat] at hmem
    exact (List.mem_filter.mp hmem).1

/-- **The items when a watch fails**: every item stays where it is, and those that are withdrawn are
marked for deletion. -/
theorem items_idle (hrefs : (Keyed.keys KubeObject.ref r.items).Nodup) :
    Keyed.upsertAll KubeObject.id (idleScript ord (r.idleInv cfg)).items r.items =
      r.items.map fun o => if r.Withdraws o then mark o else o := by
  apply Keyed.upsertAll_eq_map
  · intro o
    split_ifs <;> rfl
  · exact nodup_ids hrefs
  · intro o' ho'
    obtain ⟨o, ho, hwithdraws, rfl⟩ := (mem_items_idle_iff hfresh hdoc hrefs).mp ho'
    exact ⟨o, ho, (if_pos hwithdraws).symm⟩
  · intro o ho
    by_cases hwithdraws : r.Withdraws o
    · rw [if_pos hwithdraws]
      exact Or.inr ((mem_items_idle_iff hfresh hdoc hrefs).mpr ⟨o, ho, hwithdraws, rfl⟩)
    · exact Or.inl (if_neg hwithdraws)

end Idle

section Run

variable [DecidableEq V] {cfg : Config V} {ord : Order} {r r₁ : Sdk V}

/-- A function that is not ready and owns something does nothing after stage 1. -/
theorem run_of_stage1 (howns : cfg.owns ≠ [])
    (h : (((r.ensured cfg).filed cfg).runWatches cfg ord).stage1 cfg ord = .ok r₁)
    (hready : r₁.inv.ready = false) : r.run cfg ord = .ok r₁ := by
  refine run_eq_ok.mpr ⟨r₁, r₁, h, ?_, ?_⟩
  · unfold updateResources
    simp only [hready, Bool.false_eq_true, if_false, List.isEmpty_iff, howns]
    generalize ord.range .updateResources r₁.inv.getReadyMap = entries
    induction entries with
    | nil => rfl
    | cons e entries ih =>
      rw [List.foldlM_cons]
      cases e.2.forObj <;> exact ih
  · unfold runReadiness
    rw [hready, Bool.and_false, if_neg Bool.false_ne_true]

/-- Stage 1 of a function that is not ready does not look at its callbacks. -/
theorem stage1_of_not_ready (hready : r.inv.ready = false) :
    r.stage1 cfg ord = r.updateChildren ord := by
  unfold stage1
  rw [hready, Bool.false_and, if_neg Bool.false_ne_true]

/-- What a Run leaves of a package when a global watch fails. -/
structure FailSafe (r r' : Sdk V) : Prop where
  /-- No item is added or removed. -/
  same : Keyed.keys KubeObject.id r'.items = Keyed.keys KubeObject.id r.items
  /-- The remote children are marked for deletion, and their conditions are False. -/
  remote : ∀ o ∈ r.items, r.inv.role o.ref = some .ownGVKKind →
    r.inv.ownKindOf o.ref = some .childRemote ∨
      r.inv.ownKindOf o.ref = some .childRemoteCondition →
    ∀ F, r.inv.role F = some .forGVKKind → getGVKNFromConditionType o.owner = F →
      Collected F o r'
  /-- The initial children are as they were. -/
  initial : ∀ o ∈ r.items, r.inv.ownKindOf o.ref = some .childInitial →
    o ∈ r'.items ∧ ∀ o' ∈ r'.items, o'.ref = o.ref → o' = o
  /-- The local children of for-instances that are present are as they were. -/
  localOf : ∀ o ∈ r.items, r.inv.ownKindOf o.ref = some .childLocal →
    (r.forObj (getGVKNFromConditionType o.owner)).isSome →
    o ∈ r'.items ∧ ∀ o' ∈ r'.items, o'.ref = o.ref → o' = o

omit [DecidableEq V] in
/-- An item that is not withdrawn is as it was. -/
theorem kept_of_not_withdraws (hrefs : (Keyed.keys KubeObject.ref r.items).Nodup)
    (hitems : r₁.items = r.items.map fun o => if r.Withdraws o then mark o else o)
    {o : KubeObject V} (ho : o ∈ r.items) (hnot : ¬ r.Withdraws o) :
    o ∈ r₁.items ∧ ∀ o' ∈ r₁.items, o'.ref = o.ref → o' = o := by
  rw [hitems]
  constructor
  · exact List.mem_map.mpr ⟨o, ho, if_neg hnot⟩
  · intro o' ho' href
    obtain ⟨o₀, ho₀, rfl⟩ := List.mem_map.mp ho'
    have href₀ : o₀.ref = o.ref := by
      by_cases hwithdraws : r.Withdraws o₀
      · rwa [if_pos hwithdraws] at href
      · rwa [if_neg hwithdraws] at href
    rw [List.inj_on_of_nodup_map hrefs ho₀ ho href₀, if_neg hnot]

end Run

/-- A WorkloadCluster. -/
def workloadClusterRef (name : String) : ObjectReference :=
  { apiVersion := "infra.nephio.org/v1alpha1", kind := "WorkloadCluster", name := name }

/-- The claims of Interfaces, with a watch that refuses every WorkloadCluster. -/
def watchedConfig : Config Nat :=
  { claimsConfig .childRemote claimsWanted with
    watch := [(workloadClusterRef "", some fun _ _ => .error "cluster not valid")] }

/-- The Interface `n3`, its claim and the WorkloadCluster. -/
def watchedPackage : Sdk Nat where
  items := [interfaceObj "n3", owned (interfaceRef "n3") (ipClaimObj "n3-ipv4" (some 2)),
    { apiVersion := "infra.nephio.org/v1alpha1", kind := "WorkloadCluster", name := "edge" }]
  kptfile := { conditions := [forCondition (interfaceRef "n3") "" .conditionTrue,
    ownCondition (interfaceRef "n3") (ipClaimRef "n3-ipv4") "" .conditionTrue] }
  inv := { gvkResources := [(interfaceRef "", { gvkKind := .forGVKKind }),
    (ipClaimRef "", { gvkKind := .ownGVKKind, ownKind := some .childRemote }),
    (workloadClusterRef "", { gvkKind := .watchGVKKind
                              callbackFn := some fun _ _ => .error "cluster not valid" })] }

end Sdk

end Nephio.CondKptSdk
