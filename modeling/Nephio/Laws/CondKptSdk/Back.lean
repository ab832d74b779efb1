import Nephio.Laws.CondKptSdk.Isolation
import Nephio.Laws.CondKptSdk.Ready
import Nephio.Laws.CondKptSdk.Returned

/-!
# Laws.CondKptSdk.Back: a Run of a function that gives back its for object

Most functions answer with the for object they were given and a new status. Where such a function is
neither Root nor has watches, the package after a Run is known reference by reference: a for-instance
that waits for a child keeps what stage 1 left (`run_waits`), one that does not wait is finished
(`run_finishes`), a child has what the diff says (`run_own`), and nothing else changes
(`getCondition_run_rest`, `items_run_rest`).
-/

namespace Nephio.CondKptSdk

variable {V : Type}

/-- A condition that holds back a for-instance: there is none, or it is False. -/
def holds : Option Condition → Bool
  | none => true
  | some c => c.status = .conditionFalse

/-- What `handleUpdateResource` makes of an object that was returned. -/
def ownedAs (c : Option Condition) (o : KubeObject V) : KubeObject V :=
  match c with
  | some c => if c.reason ≠ "" then o.setAnnotation specializerOwner c.reason else o
  | none => o

@[simp] theorem id_ownedAs (c : Option Condition) (o : KubeObject V) : (ownedAs c o).id = o.id := by
  unfold ownedAs
  split
  · split_ifs <;> rfl
  · rfl

theorem handleUpdateResource_ok {updateFn : UpdateResourceFn V} {F : ObjectReference}
    {forObj : Option (KubeObject V)} {c : Option Condition} {objs news : List (KubeObject V)}
    (h : updateFn F forObj objs = .ok news) :
    Sdk.handleUpdateResource updateFn F forObj c objs = .ok (news.map (ownedAs c)) := by
  unfold Sdk.handleUpdateResource ownedAs
  rw [h]
  cases c with
  | none => simp only [List.map_id']; rfl
  | some c =>
    by_cases hreason : c.reason ≠ ""
    · simp only [hreason, not_false_eq_true, if_true, ne_eq]
      rfl
    · simp only [hreason, if_false, List.map_id']
      rfl

/-- An `UpdateResourceFn` that answers with its for object: `finish` says what becomes of it, from the
objects that the function is given beside it. -/
def giveBack (finish : ObjectReference → KubeObject V → List (KubeObject V) → KubeObject V) :
    UpdateResourceFn V :=
  fun F forObj objs => .ok (forObj.toList.map fun o => finish F o objs)

theorem reply_giveBack
    {finish : ObjectReference → KubeObject V → List (KubeObject V) → KubeObject V} {ord : Order}
    {F : ObjectReference} {ctx : ReadyCtx V} :
    reply (giveBack finish) ord F ctx =
      if !ctx.ready || ctx.failed then none
      else some (.ok (ctx.forObj.toList.map fun o =>
        ownedAs ctx.forCondition (finish F o (updateArgs ord F ctx)))) := by
  unfold reply
  rw [handleUpdateResource_ok rfl, List.map_map]
  rfl

/-- For objects that were returned are written. -/
theorem items_updateForScript_for {updateFn : UpdateResourceFn V} {ord : Order} {inv : Inv V}
    {F : ObjectReference} {ctx : ReadyCtx V}
    (h : ∀ obj ∈ returnedObjs updateFn ord F ctx,
      inv.role obj.ref = some .forGVKKind ∧ F.Named) :
    (updateForScript updateFn ord inv F ctx).items = returnedObjs updateFn ord F ctx := by
  have hone : ∀ obj, inv.role obj.ref = some .forGVKKind ∧ F.Named →
      (updateResourceScript inv F ctx.forCondition obj).items = [obj] := by
    rintro obj ⟨hrole, hnamed⟩
    unfold updateResourceScript
    rw [hrole]
    exact congrArg Script.items (if_pos hnamed)
  unfold returnedObjs at h ⊢
  unfold updateForScript
  split_ifs at h ⊢
  · rfl
  · cases hcall : Sdk.handleUpdateResource updateFn F ctx.forObj ctx.forCondition
        (updateArgs ord F ctx) with
    | error err => rfl
    | ok objs =>
      rw [hcall] at h
      exact (Script.items_flatMap _ _).trans
        ((List.flatMap_congr fun obj hobj => hone obj (h obj hobj)).trans
          (List.flatMap_singleton' objs))

/-- A function that gives back its for object, and that is not Root. -/
structure Config.GivesBack (cfg : Config V)
    (finish : ObjectReference → KubeObject V → List (KubeObject V) → KubeObject V) : Prop where
  root : cfg.root = false
  update : cfg.updateResourceFn = some (giveBack finish)
  id : ∀ F o objs, (finish F o objs).id = o.id

/-- What `populateChildren` files as a watch has the role of one. -/
theorem role_of_watch_populateScript {cfg : Config V} {ord : Order} {inv : Inv V}
    {w : TreeWrite V} (hw : w ∈ (populateScript cfg ord inv).tree) {ref : ObjectReference}
    (href : (⟨.watchGVKKind, ref⟩ : SdkObjectReference) ∈ w.path) :
    inv.role ref = some .watchGVKKind := by
  rw [populateScript, Script.tree_flatMap] at hw
  obtain ⟨⟨F, res⟩, -, hw⟩ := List.mem_flatMap.mp hw
  unfold populateForScript at hw
  split at hw
  · split at hw
    · unfold setForScript at hw
      split_ifs at hw
      · rw [List.mem_singleton.mp hw] at href
        simp [TreeWrite.path, forPath] at href
      · cases hw
    · obtain ⟨obj, -, hw⟩ := List.mem_flatMap.mp hw
      rw [tree_populateChildScript] at hw
      cases hmatch : inv.isGVKMatch obj.ref with
      | none =>
        rw [hmatch] at hw
        cases hw
      | some kc =>
        rw [hmatch] at hw
        simp only at hw
        split_ifs at hw
        · cases hw
        · rw [List.mem_singleton.mp hw] at href
          simp only [TreeWrite.path, List.mem_cons, SdkObjectReference.mk.injEq, reduceCtorEq,
            false_and, List.not_mem_nil, or_false, false_or] at href
          rw [href.2]
          exact Inv.role_eq_some.mpr ⟨kc, hmatch, href.1.symm⟩
  · cases hw

namespace Sdk

theorem ensured_eq {cfg : Config V} (hroot : cfg.root = false) (r : Sdk V) : r.ensured cfg = r := by
  unfold ensured
  rw [hroot]
  rfl

/-- A child holds the for-instance back after stage 1. -/
def Waits (cfg : Config V) (r : Sdk V) (F : ObjectReference) : Prop :=
  ∃ ref, (r.Owns F ref ∨ r.Wants cfg F ref) ∧
    holds (childEntry F ref (r.forCtx cfg F) (r.childCtx cfg F ref))

/-- The objects that a for-instance's function is given: its children, each with the object it has
after stage 1. -/
structure Given [DecidableEq V] (cfg : Config V) (r : Sdk V) (F : ObjectReference)
    (objs : List (ObjectReference × KubeObject V)) : Prop where
  nodup : (objs.map Prod.fst).Nodup
  mem : ∀ ref o, (ref, o) ∈ objs ↔ (r.Owns F ref ∨ r.Wants cfg F ref) ∧
    (childItem (r.forCtx cfg F) (r.childCtx cfg F ref)).or (r.ownedItem F ref) = some o

theorem Given.perm [DecidableEq V] {cfg : Config V} {r : Sdk V} {F : ObjectReference}
    {objs objs' : List (ObjectReference × KubeObject V)} (h : r.Given cfg F objs)
    (h' : r.Given cfg F objs') : objs.Perm objs' :=
  (List.perm_ext_iff_of_nodup (List.Nodup.of_map _ h.nodup) (List.Nodup.of_map _ h'.nodup)).mpr
    fun e => (h.mem e.1 e.2).trans (h'.mem e.1 e.2).symm

section Unwatched

variable {cfg : Config V} {ord : Order} {r r₁ : Sdk V} (hfresh : r.inv.Fresh cfg)
  (hwatch : ∀ ref, r.inv.role ref ≠ some .watchGVKKind)

include hfresh hwatch

/-- Without watches nothing is filed as one. -/
theorem not_reached_watch {p : List SdkObjectReference} {ref : ObjectReference}
    (hp : (⟨.watchGVKKind, ref⟩ : SdkObjectReference) ∈ p) :
    ((r.filed cfg).inv.resources.find p).isSome = false := by
  have hne : p ≠ [] := List.ne_nil_of_mem hp
  rw [Bool.eq_false_iff, ne_eq, isSome_filed hfresh hne]
  rintro ⟨e, -, q, hplace, hpre⟩
  have hq := hpre.subset hp
  rcases placePath_cases hplace with ⟨-, rfl⟩ | ⟨-, -, rfl⟩ | ⟨hrole, -⟩ | ⟨hrole, -⟩
  · simp at hq
  · simp at hq
  · exact hwatch _ hrole
  · exact hwatch _ hrole

theorem watchesSucceed_of_unwatched : r.WatchesSucceed cfg ord := by
  have hnil : (r.filed cfg).inv.get .watchGVKKind [{}] = [] := by
    refine List.eq_nil_iff_forall_not_mem.mpr fun e he => ?_
    have hfind := (Inv.mem_get_top (keysNodup_filed hfresh) (by decide)).mp he
    have hnone := not_reached_watch hfresh hwatch (p := [⟨.watchGVKKind, e.1⟩]) List.mem_cons_self
    rw [hfind] at hnone
    cases hnone
  unfold WatchesSucceed callGlobalWatches
  rw [hnil]
  have hrange : ord.range .globalWatches ([] : List (ObjectReference × ResourceCtx V)) = [] :=
    (ord.perm _ _).eq_nil
  rw [hrange]
  rfl

/-- Nor after stage 1. -/
theorem not_watch_stage1 [DecidableEq V] (h : (r.filed cfg).stage1 cfg ord = .ok r₁)
    (F ref : ObjectReference) : r₁.inv.resources.find (specificWatchPath F ref) = none := by
  rw [← Option.not_isSome_iff_eq_none, isSome_of_stage1 hfresh h, stage1Inv, populatedInv,
    Inv.resources_write, TreeWrite.isSome_find_applyAll]
  have hmem : (⟨.watchGVKKind, ref⟩ : SdkObjectReference) ∈ specificWatchPath F ref :=
    List.mem_cons_of_mem _ List.mem_cons_self
  rintro (hfiled | ⟨w, hw, hreach⟩)
  · rw [not_reached_watch hfresh hwatch hmem] at hfiled
    cases hfiled
  · cases w with
    | clear path => cases hreach
    | set kc x newResource failed path =>
      exact hwatch ref (role_of_watch_populateScript hw (hreach.subset hmem))

end Unwatched

/-- A for-instance is nobody's child. -/
theorem not_child_of_for {cfg : Config V} {r : Sdk V} (hfresh : r.inv.Fresh cfg)
    {F : ObjectReference} (hF : r.ForInstance cfg F) (G : ObjectReference) :
    ¬ (r.Owns G F ∨ r.Wants cfg G F) := by
  intro hchild
  have hrole : r.inv.role F = some .ownGVKKind := hchild.elim And.left And.left
  rw [ForInstance.role hfresh hF] at hrole
  cases hrole

section Stage1

variable [DecidableEq V] {cfg : Config V} {ord : Order} {r r₁ : Sdk V} (hfresh : r.inv.Fresh cfg)
  (hdoc : r.Documented cfg) (hwatch : ∀ ref, r.inv.role ref ≠ some .watchGVKKind)
  (h : (r.filed cfg).stage1 cfg ord = .ok r₁)

include hfresh hdoc h

/-- The children of a for-instance after stage 1. -/
theorem find_own_of_stage1 {F ref : ObjectReference} {res : ResourceCtx V} :
    r₁.inv.resources.find (ownPath F ref) = some res ↔
      (r.Owns F ref ∨ r.Wants cfg F ref) ∧ res = r₁.inv.resources.ctxAt (ownPath F ref) := by
  rw [Resources.find_eq_some_iff, isSome_stage1 hfresh hdoc h, isSome_stage1_own hfresh]

include hwatch

/-- A for-instance is ready after stage 1 if it does not wait. -/
theorem ready_stage1 {F : ObjectReference} (hF : F ≠ {}) :
    (r₁.inv.readyCtxOf F).ready = true ↔ ¬ r.Waits cfg F := by
  rw [ready_iff_not_heldBack (keysNodup_of_stage1 hfresh h) hF]
  refine not_congr ⟨?_, ?_⟩
  · rintro (⟨ref, res, hres, hstatus⟩ | ⟨ref, res, hres, -⟩)
    · obtain ⟨hchild, rfl⟩ := (find_own_of_stage1 hfresh hdoc h).mp hres
      refine ⟨ref, hchild, ?_⟩
      rw [← (entry_stage1_own hfresh hdoc h hchild).1]
      exact pending_iff.mpr hstatus
    · rw [not_watch_stage1 hfresh hwatch h] at hres
      cases hres
  · rintro ⟨ref, hchild, hholds⟩
    refine Or.inl ⟨ref, _, (find_own_of_stage1 hfresh hdoc h).mpr ⟨hchild, rfl⟩, ?_⟩
    rw [← (entry_stage1_own hfresh hdoc h hchild).1] at hholds
    exact pending_iff.mp hholds

omit hwatch in
theorem given_stage1 {F : ObjectReference} (hF : F ≠ {}) :
    r.Given cfg F (r₁.inv.readyCtxOf F).owns where
  nodup := by
    refine (Inv.nodup_get_under (keysNodup_of_stage1 hfresh h) (k := .ownGVKKind) (by decide)
      hF).sublist ?_
    show ((existingObjects _).map Prod.fst).Sublist _
    unfold existingObjects
    induction r₁.inv.get .ownGVKKind [F, {}] with
    | nil => exact List.Sublist.slnil
    | cons e m ih =>
      cases hres : e.2.existingResource with
      | none =>
        rw [List.filterMap_cons_none (by rw [hres]; rfl), List.map_cons]
        exact ih.cons _
      | some o =>
        rw [List.filterMap_cons_some (by rw [hres]; rfl), List.map_cons, List.map_cons]
        exact ih.cons_cons _
  mem ref o := by
    refine mem_existingObjects.trans ?_
    have hget : ∀ res, (ref, res) ∈ r₁.inv.get .ownGVKKind [F, {}] ↔
        r₁.inv.resources.find (ownPath F ref) = some res :=
      fun _ => Inv.mem_get_under (keysNodup_of_stage1 hfresh h) (k := .ownGVKKind) (by decide) hF
    constructor
    · rintro ⟨res, hres, ho⟩
      obtain ⟨hchild, rfl⟩ := (find_own_of_stage1 hfresh hdoc h).mp ((hget _).mp hres)
      exact ⟨hchild, (entry_stage1_own hfresh hdoc h hchild).2.symm.trans ho⟩
    · rintro ⟨hchild, ho⟩
      exact ⟨_, (hget _).mpr ((find_own_of_stage1 hfresh hdoc h).mpr ⟨hchild, rfl⟩),
        (entry_stage1_own hfresh hdoc h hchild).2.trans ho⟩

omit hdoc in
/-- The function is given the objects of the children, in the order of the map. -/
theorem updateArgs_perm {F : ObjectReference} (hF : F ≠ {}) :
    (updateArgs ord F (r₁.inv.readyCtxOf F)).Perm ((r₁.inv.readyCtxOf F).owns.map Prod.snd) := by
  have hnil : (r₁.inv.readyCtxOf F).watches = [] := by
    refine List.eq_nil_iff_forall_not_mem.mpr fun e he => ?_
    obtain ⟨res, hres, -⟩ := mem_existingObjects.mp he
    have hfind := (Inv.mem_get_under (keysNodup_of_stage1 hfresh h) (k := .watchGVKKind)
      (by decide) hF).mp hres
    have hnone := not_watch_stage1 hfresh hwatch h F e.1
    rw [specificWatchPath, hfind] at hnone
    cases hnone
  have hrange : ord.range (.readyWatch F) ([] : List (ObjectReference × KubeObject V)) = [] :=
    (ord.perm _ _).eq_nil
  rw [updateArgs, hnil, hrange, List.map_nil, List.append_nil]
  exact (ord.perm _ _).map Prod.snd

end Stage1

section Run

variable [DecidableEq V] {cfg : Config V} {ord : Order} {r r₁ r' : Sdk V}
  {finish : ObjectReference → KubeObject V → List (KubeObject V) → KubeObject V}
  (hback : cfg.GivesBack finish) (hfresh : r.inv.Fresh cfg) (hdoc : r.Documented cfg)
  (hwatch : ∀ ref, r.inv.role ref ≠ some .watchGVKKind)

include hback hfresh hdoc hwatch

theorem run_completes (hpanic : r.NoPanic cfg) : ∃ r', r.run cfg ord = .ok r' := by
  have hensured := ensured_eq hback.root r
  obtain ⟨r₁, h₁⟩ := (stage1_ok_iff ord hfresh hdoc).mpr hpanic
  have hready : r₁.inv.ready = true := by
    rw [inv_of_stage1 hfresh h₁]
    exact hfresh.ready
  obtain ⟨r₂, h₂, -⟩ := updateResources_writes hback.update ord hready
  refine ⟨r₂.runReadiness cfg, run_eq_ok.mpr ⟨r₁, r₂, ?_, h₂, rfl⟩⟩
  rw [hensured, runWatches_of_succeed (watchesSucceed_of_unwatched hfresh hwatch), h₁]

omit hdoc in
/-- The parts of a Run. -/
theorem run_parts (h : r.run cfg ord = .ok r') :
    ∃ r₁, (r.filed cfg).stage1 cfg ord = .ok r₁ ∧ r₁.inv.ready = true ∧
      Writes (stage2Script (giveBack finish) ord r₁.inv) r₁ r' := by
  have hensured := ensured_eq hback.root r
  have hwatches : (r.ensured cfg).WatchesSucceed cfg ord := by
    rw [hensured]
    exact watchesSucceed_of_unwatched hfresh hwatch
  obtain ⟨r₁, r₂, updateFn, h₁, hready, hfn, hwrites, rfl⟩ := run_ready hfresh hwatches h
  rw [hensured] at h₁
  obtain rfl := Option.some.inj (hback.update.symm.trans hfn)
  have hreadiness : r₂.runReadiness cfg = r₂ := by
    unfold runReadiness
    rw [hback.root]
    rfl
  rw [hreadiness]
  exact ⟨r₁, h₁, hready, hwrites⟩

omit hwatch in
/-- What stage 2 returns for a for-instance is that for-instance. -/
theorem ref_of_returned (h₁ : (r.filed cfg).stage1 cfg ord = .ok r₁) {G : ObjectReference}
    {ctx : ReadyCtx V} (hctx : (G, ctx) ∈ r₁.inv.getReadyMap) {obj : KubeObject V}
    (hobj : obj ∈ returnedObjs (giveBack finish) ord G ctx) :
    r.ForInstance cfg G ∧ obj.ref = G := by
  obtain ⟨hsome, rfl⟩ := (mem_getReadyMap_iff (keysNodup_of_stage1 hfresh h₁)).mp hctx
  have hG : r.ForInstance cfg G :=
    (isSome_stage1_for hfresh).mp ((isSome_of_stage1 hfresh h₁ _).mp hsome)
  refine ⟨hG, ?_⟩
  obtain ⟨objs, hreply, hobj⟩ := mem_returnedObjs.mp hobj
  rw [reply_giveBack] at hreply
  split_ifs at hreply
  obtain rfl := Except.ok.inj (Option.some.inj hreply)
  obtain ⟨o, ho, rfl⟩ := List.mem_map.mp hobj
  rw [forObj_stage1 hfresh hdoc h₁ hG, Option.mem_toList] at ho
  have hid := (id_ownedAs (r₁.inv.readyCtxOf G).forCondition _).trans
    (hback.id G o (updateArgs ord G (r₁.inv.readyCtxOf G)))
  exact (ref_eq_of_id hid).trans (mem_of_forObj ho).2

omit hwatch in
theorem not_own_of_returned (h₁ : (r.filed cfg).stage1 cfg ord = .ok r₁) {G : ObjectReference}
    {ctx : ReadyCtx V} (hctx : (G, ctx) ∈ r₁.inv.getReadyMap) {obj : KubeObject V}
    (hobj : obj ∈ returnedObjs (giveBack finish) ord G ctx) :
    r.inv.role obj.ref ≠ some .ownGVKKind := by
  obtain ⟨hG, rfl⟩ := ref_of_returned hback hfresh hdoc h₁ hctx hobj
  rw [ForInstance.role hfresh hG]
  decide

section Stage2

variable (h₁ : (r.filed cfg).stage1 cfg ord = .ok r₁)
  (hwrites : Writes (stage2Script (giveBack finish) ord r₁.inv) r₁ r')

include h₁ hwrites

omit hwatch in
/-- Stage 2 writes no items but for objects. -/
theorem items_stage2_rest {ref : ObjectReference} (href : ¬ r.ForInstance cfg ref) :
    r'.items.filter (fun o => o.ref = ref) = r₁.items.filter fun o => o.ref = ref := by
  rw [hwrites.items, Keyed.filter_upsertAll _ ref_of_id, List.filter_eq_nil_iff.mpr]
  · rfl
  · intro o ho heq
    rw [stage2Script, Script.items_flatMap] at ho
    obtain ⟨e, he, ho⟩ := List.mem_flatMap.mp ho
    obtain ⟨hG, hoG⟩ := ref_of_returned hback hfresh hdoc h₁ ((ord.perm _ _).mem_iff.mp he)
      (mem_items_updateForScript ho).1
    apply href
    rwa [← of_decide_eq_true heq, hoG]

omit hwatch in
/-- The for object of a for-instance after stage 2. -/
theorem items_stage2_for {F : ObjectReference} (hF : r.ForInstance cfg F) (hFdoc : F.Documented) :
    r'.items.filter (fun o => o.ref = F) =
      Keyed.upsertAll KubeObject.id
        (returnedObjs (giveBack finish) ord F (r₁.inv.readyCtxOf F))
        (r₁.items.filter fun o => o.ref = F) := by
  have hnd := keysNodup_of_stage1 hfresh h₁
  have hsome : (r₁.inv.resources.find (forPath F)).isSome :=
    (isSome_of_stage1 hfresh h₁ _).mpr ((isSome_stage1_for hfresh).mpr hF)
  have hctx := (mem_getReadyMap_iff hnd).mpr ⟨hsome, rfl⟩
  have hrole : r₁.inv.role F = some .forGVKKind := by
    rw [inv_of_stage1 hfresh h₁]
    exact ForInstance.role hfresh hF
  have hscript : (updateForScript (giveBack finish) ord r₁.inv F (r₁.inv.readyCtxOf F)).items =
      returnedObjs (giveBack finish) ord F (r₁.inv.readyCtxOf F) := by
    refine items_updateForScript_for fun obj hobj => ?_
    rw [(ref_of_returned hback hfresh hdoc h₁ hctx hobj).2]
    exact ⟨hrole, hFdoc.named⟩
  rw [hwrites.items, Keyed.filter_upsertAll _ ref_of_id, stage2Script, Script.items_flatMap,
    filter_flatMap_readyMap hnd hsome, hscript, List.filter_eq_self.mpr]
  · exact fun obj hobj => decide_eq_true (ref_of_returned hback hfresh hdoc h₁ hctx hobj).2
  · intro G ctx hne hG o ho
    rw [decide_eq_false_iff_not, (ref_of_returned hback hfresh hdoc h₁ hG
      (mem_items_updateForScript ho).1).2]
    exact hne

omit hwatch in
/-- Stage 2 writes no conditions but those of for-instances. -/
theorem lookup_stage2_rest {t : String} (ht : ∀ G, r.ForInstance cfg G → getConditionType G ≠ t) :
    r'.kptfile.getCondition t = r₁.kptfile.getCondition t := by
  refine (lookup_stage2_not_for hfresh hdoc h₁ hwrites ht).2 ?_
  rintro G hG ⟨-, -, objs, hreply, obj, hobj, hrole, -⟩
  have hnd := keysNodup_of_stage1 hfresh h₁
  have hsome : (r₁.inv.resources.find (forPath G)).isSome :=
    (isSome_of_stage1 hfresh h₁ _).mpr ((isSome_stage1_for hfresh).mpr hG)
  refine not_own_of_returned hback hfresh hdoc h₁ ((mem_getReadyMap_iff hnd).mpr ⟨hsome, rfl⟩)
    (mem_returnedObjs.mpr ⟨objs, hreply, hobj⟩) ?_
  rwa [inv_of_stage1 hfresh h₁] at hrole

end Stage2

variable (h : r.run cfg ord = .ok r')

include h

/-- **A for-instance that waits** has what stage 1 left. -/
theorem run_waits {F : ObjectReference} (hF : r.ForInstance cfg F) (hFdoc : F.Documented)
    (hwaits : r.Waits cfg F) :
    r'.kptfile.getCondition (getConditionType F) = r.settled cfg F ∧
      r'.items.filter (fun o => o.ref = F) = r.items.filter fun o => o.ref = F := by
  obtain ⟨r₁, h₁, -, hwrites⟩ := run_parts hback hfresh hwatch h
  have hempty := ne_empty_of_named hFdoc.named
  have hready : (r₁.inv.readyCtxOf F).ready = false := by
    rw [Bool.eq_false_iff]
    exact fun hready => (ready_stage1 hfresh hdoc hwatch h₁ hempty).mp hready hwaits
  have hreply : reply (giveBack finish) ord F (r₁.inv.readyCtxOf F) = none := by
    rw [reply_giveBack, hready]
    rfl
  have hnone : returnedObjs (giveBack finish) ord F (r₁.inv.readyCtxOf F) = [] := by
    unfold returnedObjs
    rw [hready]
    rfl
  constructor
  · rw [lookup_stage2_for hfresh hdoc h₁ (fun G ctx hctx obj hobj hrole =>
      absurd hrole (not_own_of_returned hback hfresh hdoc h₁ hctx hobj)) hwrites hF hFdoc, hreply]
    exact (settled_of_stage1 hfresh hdoc h₁ hF hFdoc).1
  · rw [items_stage2_for hback hfresh hdoc h₁ hwrites hF hFdoc, hnone]
    exact items_stage1_other hfresh hdoc h₁ (not_child_of_for hfresh hF)

/-- **A for-instance that does not wait** is finished: its condition is True, and its object is the one
that the function made of it. -/
theorem run_finishes {F : ObjectReference} {o : KubeObject V} (ho : r.forObj F = some o)
    (hF : r.ForInstance cfg F) (hFdoc : F.Documented) {D : List (KubeObject V)}
    (hwanted : r.wanted cfg F = .ok D) (hwaits : ¬ r.Waits cfg F)
    {objs : List (ObjectReference × KubeObject V)} (hgiven : r.Given cfg F objs) :
    r'.kptfile.getCondition (getConditionType F) =
        some (doneCondition (r.settledEntry cfg F) (forCondition F "update done" .conditionTrue)) ∧
      ∃ args, args.Perm (objs.map Prod.snd) ∧
        r'.items.filter (fun o => o.ref = F) =
          Keyed.upsert KubeObject.id (ownedAs (r.settledEntry cfg F) (finish F o args))
            (r.items.filter fun o => o.ref = F) := by
  obtain ⟨r₁, h₁, -, hwrites⟩ := run_parts hback hfresh hwatch h
  have hempty := ne_empty_of_named hFdoc.named
  have hready := (ready_stage1 hfresh hdoc hwatch h₁ hempty).mpr hwaits
  have hentry : (r₁.inv.readyCtxOf F).forCondition = r.settledEntry cfg F :=
    (settled_of_stage1 hfresh hdoc h₁ hF hFdoc).2
  have hfailed : (r₁.inv.readyCtxOf F).failed = false := by
    show (r₁.inv.resources.ctxAt (forPath F)).failed = false
    rw [entry_stage1_for hfresh hdoc h₁ hF hFdoc]
    split_ifs
    · rfl
    · simp only [forCtx, hwanted]
      rfl
  have hskip : (!(r₁.inv.readyCtxOf F).ready || (r₁.inv.readyCtxOf F).failed) = false := by
    rw [hready, hfailed]
    rfl
  have hreply : reply (giveBack finish) ord F (r₁.inv.readyCtxOf F) =
      some (.ok [ownedAs (r.settledEntry cfg F)
        (finish F o (updateArgs ord F (r₁.inv.readyCtxOf F)))]) := by
    rw [reply_giveBack, hskip, hentry, forObj_stage1 hfresh hdoc h₁ hF, ho]
    rfl
  have hreturned : returnedObjs (giveBack finish) ord F (r₁.inv.readyCtxOf F) =
      [ownedAs (r.settledEntry cfg F)
        (finish F o (updateArgs ord F (r₁.inv.readyCtxOf F)))] := by
    unfold reply at hreply
    unfold returnedObjs
    rw [hskip] at hreply ⊢
    rw [if_neg Bool.false_ne_true] at hreply ⊢
    rw [Option.some.inj hreply]
  constructor
  · rw [lookup_stage2_for hfresh hdoc h₁ (fun G ctx hctx obj hobj hrole =>
      absurd hrole (not_own_of_returned hback hfresh hdoc h₁ hctx hobj)) hwrites hF hFdoc, hreply,
      (settled_of_stage1 hfresh hdoc h₁ hF hFdoc).2]
    have href : (ownedAs (r.settledEntry cfg F)
        (finish F o (updateArgs ord F (r₁.inv.readyCtxOf F)))).ref = F :=
      (ref_eq_of_id ((id_ownedAs _ _).trans (hback.id _ _ _))).trans (mem_of_forObj ho).2
    have hconcludes : concludes r.inv (r.settledEntry cfg F) (ownedAs (r.settledEntry cfg F)
        (finish F o (updateArgs ord F (r₁.inv.readyCtxOf F)))) = true := by
      unfold concludes
      rw [href]
      exact decide_eq_true (Or.inl (ForInstance.role hfresh hF))
    simp only [concluded, List.any_cons, hconcludes, Bool.true_or, if_true]
  · refine ⟨updateArgs ord F (r₁.inv.readyCtxOf F), ?_, ?_⟩
    · exact (updateArgs_perm hfresh hwatch h₁ hempty).trans
        (((given_stage1 hfresh hdoc h₁ hempty).perm hgiven).map Prod.snd)
    · rw [items_stage2_for hback hfresh hdoc h₁ hwrites hF hFdoc, hreturned,
        items_stage1_other hfresh hdoc h₁ (not_child_of_for hfresh hF)]
      rfl

/-- **A child** has what the diff says. -/
theorem run_own {F ref : ObjectReference} (hchild : r.Owns F ref ∨ r.Wants cfg F ref)
    (honly : r.Only cfg F ref) :
    r'.kptfile.getCondition (getConditionType ref) =
        childOutcome F ref (r.forCtx cfg F) (r.childCtx cfg F ref)
          (r.kptfile.getCondition (getConditionType ref)) ∧
      r'.items.filter (fun o => o.ref = ref) =
        Keyed.upsertAll KubeObject.id (childItem (r.forCtx cfg F) (r.childCtx cfg F ref)).toList
          (r.items.filter fun o => o.ref = ref) := by
  obtain ⟨r₁, h₁, -, hwrites⟩ := run_parts hback hfresh hwatch h
  have href : r.inv.role ref = some .ownGVKKind := hchild.elim And.left And.left
  have hrefdoc := (hdoc.child hchild).2
  constructor
  · rw [lookup_stage2_rest hback hfresh hdoc h₁ hwrites fun G hG htype => ?_]
    · exact lookup_stage1_own hfresh hdoc h₁ honly hchild
    · exact type_ne_of_own hfresh hdoc (forInstance_of_own hfresh hchild) (hdoc.child hchild).1 hG
        href hrefdoc htype
  · rw [items_stage2_rest hback hfresh hdoc h₁ hwrites fun hfor => not_child_of_for hfresh hfor F
      hchild]
    exact items_stage1_own hfresh hdoc h₁ honly hchild

/-- No other condition changes. -/
theorem getCondition_run_rest {t : String} (hfor : ∀ G, r.ForInstance cfg G → getConditionType G ≠ t)
    (hown : ∀ F ref, r.Owns F ref ∨ r.Wants cfg F ref → getConditionType ref ≠ t) :
    r'.kptfile.getCondition t = r.kptfile.getCondition t := by
  obtain ⟨r₁, h₁, -, hwrites⟩ := run_parts hback hfresh hwatch h
  rw [lookup_stage2_rest hback hfresh hdoc h₁ hwrites hfor]
  exact lookup_stage1_other hfresh hdoc h₁ (fun F hF _ => hfor F hF) hown

/-- No other item changes. -/
theorem items_run_rest {ref : ObjectReference} (hfor : ¬ r.ForInstance cfg ref)
    (hown : ∀ F, ¬ (r.Owns F ref ∨ r.Wants cfg F ref)) :
    r'.items.filter (fun o => o.ref = ref) = r.items.filter fun o => o.ref = ref := by
  obtain ⟨r₁, h₁, -, hwrites⟩ := run_parts hback hfresh hwatch h
  rw [items_stage2_rest hback hfresh hdoc h₁ hwrites hfor]
  exact items_stage1_other hfresh hdoc h₁ hown

end Run

end Sdk

end Nephio.CondKptSdk
