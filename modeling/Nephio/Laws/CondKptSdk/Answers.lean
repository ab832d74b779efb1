import Nephio.Laws.CondKptSdk.Frame

/-!
# Laws.CondKptSdk.Answers: the condition of a for-instance after stage 2

Stage 2 asks `UpdateResourceFn` about the for-instances that are ready (`answer`). An error fails the
condition. An object of the for GVK sets it to True, and so does one of an own GVK where the
inventory holds a condition of the for-instance: there the sdk writes that one, whatever the object
is. `getCondition_run_for` puts stage 1 before it.
-/

namespace Nephio.CondKptSdk

variable {V : Type}

/-- What `UpdateResourceFn` answers for a for-instance; `none` where it is not called. -/
def reply (updateFn : UpdateResourceFn V) (ord : Order) (F : ObjectReference) (ctx : ReadyCtx V) :
    Option (Except String (List (KubeObject V))) :=
  if !ctx.ready || ctx.failed then none
  else
    some (Sdk.handleUpdateResource updateFn F ctx.forObj ctx.forCondition (updateArgs ord F ctx))

/-- An object that sets the condition of its for-instance to True. -/
def concludes (inv : Inv V) (ec : Option Condition) (obj : KubeObject V) : Bool :=
  inv.role obj.ref = some .forGVKKind ∨
    (inv.role obj.ref = some .ownGVKKind ∧ obj.ref.Named ∧ ec.isSome)

/-- The condition that an answer leaves of the one that is held. -/
def concluded (inv : Inv V) (F : ObjectReference) (ec held : Option Condition) :
    Option (Except String (List (KubeObject V))) → Option Condition
  | none => held
  | some (.error err) => some (KptFile.failedCondition (getConditionType F) err held)
  | some (.ok objs) =>
    if objs.any (concludes inv ec) then
      some (doneCondition ec (forCondition F "update done" .conditionTrue))
    else held

section Reply

variable {updateFn : UpdateResourceFn V} {ord : Order} {inv : Inv V} {F : ObjectReference}
  {ctx : ReadyCtx V}

theorem conditions_updateForScript :
    (updateForScript updateFn ord inv F ctx).conditions =
      match reply updateFn ord F ctx with
      | none => []
      | some (.error err) => [failEdit F err]
      | some (.ok objs) =>
        objs.flatMap fun obj => (updateResourceScript inv F ctx.forCondition obj).conditions := by
  unfold updateForScript reply
  split_ifs
  · rfl
  · cases Sdk.handleUpdateResource updateFn F ctx.forObj ctx.forCondition (updateArgs ord F ctx) <;>
      rfl

theorem mem_returnedObjs {obj : KubeObject V} :
    obj ∈ returnedObjs updateFn ord F ctx ↔
      ∃ objs, reply updateFn ord F ctx = some (.ok objs) ∧ obj ∈ objs := by
  unfold returnedObjs reply
  split_ifs
  · simp only [List.not_mem_nil, false_and, exists_false]
  · cases Sdk.handleUpdateResource updateFn F ctx.forObj ctx.forCondition (updateArgs ord F ctx) with
    | error err =>
      simp only [List.not_mem_nil, Option.some.injEq, reduceCtorEq, false_and, exists_false]
    | ok objs => simp only [Option.some.injEq, Except.ok.injEq, exists_eq_left']

variable {ec : Option Condition} (hnamed : F.Named)
  (hec : ∀ c, ec = some c → c.type = getConditionType F)

include hnamed hec

/-- What one object that was returned does to the condition of the for-instance. -/
theorem foldl_updateResource {obj : KubeObject V}
    (hown : inv.role obj.ref = some .ownGVKKind → getConditionType obj.ref ≠ getConditionType F)
    (held : Option Condition) :
    ((updateResourceScript inv F ec obj).conditions.filter
        fun e => e.target = getConditionType F).foldl (fun held e => e.act held) held =
      if concludes inv ec obj then
        some (doneCondition ec (forCondition F "update done" .conditionTrue))
      else held := by
  have hdone : ∀ c, (∀ ec', ec = some ec' → ec'.type = getConditionType F) →
      (ec = none → c.type = getConditionType F) →
        (doneCondition ec c).type = getConditionType F := by
    intro c hsome hnone
    cases ec with
    | none => exact hnone rfl
    | some ec' => exact hsome ec' rfl
  unfold updateResourceScript concludes
  cases hrole : inv.role obj.ref with
  | none => rfl
  | some kind =>
    cases kind with
    | watchGVKKind => rfl
    | forGVKKind =>
      have htype := hdone (forCondition F "update done" .conditionTrue) hec fun _ => rfl
      simp only [hnamed, if_true, Keyed.Edit.put, htype, decide_true, List.filter_cons_of_pos,
        List.filter_nil, List.foldl_cons, List.foldl_nil, true_or]
    | ownGVKKind =>
      by_cases hobj : obj.ref.Named
      · cases ec with
        | none =>
          have hne := hown hrole
          simp only [hnamed, hobj, and_self, if_true, Keyed.Edit.put, doneCondition, ownCondition,
            hne, decide_false, Bool.false_eq_true, not_false_eq_true, List.filter_cons_of_neg,
            List.filter_nil, List.foldl_nil, Option.isSome_none, and_false, or_self, reduceCtorEq,
            Option.some.injEq, if_false]
        | some c =>
          have htype : c.type = getConditionType F := hec c rfl
          simp only [hnamed, hobj, and_self, if_true, Keyed.Edit.put, doneCondition, htype,
            decide_true, List.filter_cons_of_pos, List.filter_nil, List.foldl_cons,
            List.foldl_nil, Option.isSome_some, or_true]
      · simp only [hobj, and_false, if_false, List.filter_nil, List.foldl_nil, false_and, or_self,
          reduceCtorEq, Option.some.injEq, decide_false, Bool.false_eq_true]

theorem foldl_updateResources {objs : List (KubeObject V)}
    (hown : ∀ obj ∈ objs, inv.role obj.ref = some .ownGVKKind →
      getConditionType obj.ref ≠ getConditionType F) (held : Option Condition) :
    ((objs.flatMap fun obj => (updateResourceScript inv F ec obj).conditions).filter
        fun e => e.target = getConditionType F).foldl (fun held e => e.act held) held =
      concluded inv F ec held (some (.ok objs)) := by
  induction objs generalizing held with
  | nil => rfl
  | cons obj objs ih =>
    rw [List.flatMap_cons, List.filter_append, List.foldl_append,
      foldl_updateResource hnamed hec (hown obj List.mem_cons_self),
      ih fun obj' hobj' => hown obj' (List.mem_cons_of_mem _ hobj')]
    by_cases hobj : concludes inv ec obj
    · simp only [concluded, hobj, if_true, List.any_cons, Bool.true_or, ite_self]
    · simp only [concluded, hobj, Bool.false_eq_true, if_false, List.any_cons, Bool.false_or]

end Reply

/-- The entry of the ready map for a for-instance. -/
def Inv.readyCtxOf (inv : Inv V) (F : ObjectReference) : ReadyCtx V :=
  readyCtx (inv.resources.ctxAt (forPath F)) (inv.get .ownGVKKind [F, {}])
    (inv.get .watchGVKKind [F, {}])

theorem mem_getReadyMap_iff {inv : Inv V} (hnd : inv.resources.KeysNodup 2) {F : ObjectReference}
    {ctx : ReadyCtx V} :
    (F, ctx) ∈ inv.getReadyMap ↔
      (inv.resources.find (forPath F)).isSome ∧ ctx = inv.readyCtxOf F := by
  rw [mem_getReadyMap hnd]
  constructor
  · rintro ⟨forRes, hfind, rfl⟩
    obtain ⟨hsome, rfl⟩ := Resources.find_eq_some_iff.mp hfind
    exact ⟨hsome, rfl⟩
  · rintro ⟨hsome, rfl⟩
    exact ⟨_, Resources.find_eq_some_iff.mpr ⟨hsome, rfl⟩, rfl⟩

theorem nodup_getReadyMap {inv : Inv V} (hnd : inv.resources.KeysNodup 2) :
    (Keyed.keys Prod.fst inv.getReadyMap).Nodup := by
  have hkeys : Keyed.keys Prod.fst inv.getReadyMap =
      (inv.get .forGVKKind [{}]).map Prod.fst := by
    simp only [Keyed.keys, Inv.getReadyMap, List.map_map, Function.comp_def]
  rw [hkeys]
  exact Inv.nodup_get_top hnd (by decide)

/-- What is written at keys of one for-instance comes from its turn. -/
theorem filter_flatMap_readyMap {ord : Order} {inv : Inv V} (hnd : inv.resources.KeysNodup 2)
    {F : ObjectReference} (hF : (inv.resources.find (forPath F)).isSome) {β : Type}
    {g : ObjectReference × ReadyCtx V → List β} {p : β → Bool}
    (honly : ∀ G ctx, G ≠ F → (G, ctx) ∈ inv.getReadyMap → ∀ y ∈ g (G, ctx), p y = false) :
    ((ord.range .updateResources inv.getReadyMap).flatMap g).filter p =
      (g (F, inv.readyCtxOf F)).filter p := by
  rw [Keyed.filter_flatMap_of_key Prod.fst
    (((ord.perm _ _).map Prod.fst).nodup_iff.mpr (nodup_getReadyMap hnd))
    ((ord.perm _ _).mem_iff.mpr ((mem_getReadyMap_iff hnd).mpr ⟨hF, rfl⟩))]
  intro e he hne
  exact honly e.1 e.2 hne ((ord.perm _ _).mem_iff.mp he)

namespace Sdk

section Stage2

variable [DecidableEq V] {cfg : Config V} {ord : Order} {r r₁ r₂ : Sdk V}
  (hfresh : r.inv.Fresh cfg) (hdoc : r.Documented cfg)
  (h : (r.filed cfg).stage1 cfg ord = .ok r₁) {updateFn : UpdateResourceFn V}
  (hret : ∀ G ctx, (G, ctx) ∈ r₁.inv.getReadyMap → ∀ obj ∈ returnedObjs updateFn ord G ctx,
    r.inv.role obj.ref = some .ownGVKKind → obj.ref.Documented)

include hfresh h

/-- The for condition that the inventory holds has the type of the for-instance. -/
theorem type_of_forCondition (hdoc : r.Documented cfg) {F : ObjectReference}
    (hF : r.ForInstance cfg F) {c : Condition}
    (hc : (r₁.inv.resources.ctxAt (forPath F)).existingCondition = some c) :
    c.type = getConditionType F := by
  rcases forCondition_of_stage1 hfresh h hF hc with htype | ⟨hmem, hread⟩
  · exact htype
  · have hwritten := hdoc.forCondition c hmem (by rw [hread]; exact ForInstance.role hfresh hF)
    rw [← hwritten.eq, hread]

include hret

/-- The edits of stage 2 at the condition of a for-instance are of its own turn. -/
theorem stage2_conditions_at_for {F : ObjectReference} (hF : r.ForInstance cfg F)
    (hFdoc : F.Documented) :
    (stage2Script updateFn ord r₁.inv).conditions.filter (fun e => e.target = getConditionType F) =
      (updateForScript updateFn ord r₁.inv F (r₁.inv.readyCtxOf F)).conditions.filter
        fun e => e.target = getConditionType F := by
  have hsome : (r₁.inv.resources.find (forPath F)).isSome :=
    (isSome_of_stage1 hfresh h _).mpr ((isSome_stage1_for hfresh).mpr hF)
  rw [stage2Script, Script.conditions_flatMap,
    filter_flatMap_readyMap (keysNodup_of_stage1 hfresh h) hsome]
  intro G ctx hne hctx e he
  rw [decide_eq_false_iff_not]
  intro heq
  obtain ⟨hG, htarget | htarget | ⟨obj, hobj, hrole, htarget⟩⟩ := target_updateFor hfresh h hctx he
  · exact hne (hfresh.eq_of_for (ForInstance.role hfresh hG) (ForInstance.role hfresh hF)
      (htarget.symm.trans heq))
  · rw [heq, hFdoc.decode] at htarget
    exact hne htarget.symm
  · have href := (hret G ctx hctx obj hobj hrole).injective hFdoc (htarget.symm.trans heq)
    rw [href, ForInstance.role hfresh hF] at hrole
    cases hrole

include hdoc

/-- **The condition of a for-instance after stage 2**, from the one before it, the one the inventory
holds and the answer. -/
theorem lookup_stage2_for (hwrites : Writes (stage2Script updateFn ord r₁.inv) r₁ r₂)
    {F : ObjectReference} (hF : r.ForInstance cfg F) (hFdoc : F.Documented) :
    r₂.kptfile.getCondition (getConditionType F) =
      concluded r.inv F (r₁.inv.resources.ctxAt (forPath F)).existingCondition
        (r₁.kptfile.getCondition (getConditionType F))
        (reply updateFn ord F (r₁.inv.readyCtxOf F)) := by
  have hsome : (r₁.inv.resources.find (forPath F)).isSome :=
    (isSome_of_stage1 hfresh h _).mpr ((isSome_stage1_for hfresh).mpr hF)
  have hctx := (mem_getReadyMap_iff (keysNodup_of_stage1 hfresh h)).mpr ⟨hsome, rfl⟩
  have hroles : r₁.inv.role = r.inv.role := by
    rw [inv_of_stage1 hfresh h]
    rfl
  show Keyed.lookup Condition.type (getConditionType F) r₂.kptfile.conditions = _
  rw [hwrites.conditions, Keyed.lookup_applyAll,
    stage2_conditions_at_for hfresh h hret hF hFdoc, conditions_updateForScript]
  cases hreply : reply updateFn ord F (r₁.inv.readyCtxOf F) with
  | none => rfl
  | some answer =>
    cases answer with
    | error err =>
      simp only [failEdit, decide_true, List.filter_cons_of_pos, List.filter_nil, List.foldl_cons,
        List.foldl_nil, concluded]
      rfl
    | ok objs =>
      have hown : ∀ obj ∈ objs, r₁.inv.role obj.ref = some .ownGVKKind →
          getConditionType obj.ref ≠ getConditionType F := by
        intro obj hobj hrole heq
        rw [hroles] at hrole
        have hobjdoc := hret F _ hctx obj (mem_returnedObjs.mpr ⟨objs, hreply, hobj⟩) hrole
        rw [hobjdoc.injective hFdoc heq, ForInstance.role hfresh hF] at hrole
        cases hrole
      have hconcludes : ∀ ec, concludes r₁.inv ec = concludes r.inv ec := by
        intro ec
        funext obj
        unfold concludes
        rw [hroles]
      have hec : (r₁.inv.readyCtxOf F).forCondition =
          (r₁.inv.resources.ctxAt (forPath F)).existingCondition := rfl
      simp only [hec]
      rw [foldl_updateResources hFdoc.named
        (fun c hc => type_of_forCondition hfresh h hdoc hF hc) hown]
      simp only [concluded, hconcludes]
      rfl

end Stage2

/-! ## The condition at the end of the Run -/

section Run

variable [DecidableEq V]

/-- What `UpdateResourceFn` answers for a for-instance in a Run. -/
def answer (cfg : Config V) (ord : Order) (r : Sdk V) (F : ObjectReference) :
    Option (Except String (List (KubeObject V))) :=
  match (((r.ensured cfg).filed cfg).runWatches cfg ord).stage1 cfg ord, cfg.updateResourceFn with
  | .ok r₁, some updateFn =>
    if r₁.inv.ready ∧ (r₁.inv.resources.find (forPath F)).isSome then
      reply updateFn ord F (r₁.inv.readyCtxOf F)
    else none
  | _, _ => none

/-- The condition of a for-instance after stage 1, in the Kptfile. -/
def settled (cfg : Config V) (r : Sdk V) (F : ObjectReference) : Option Condition :=
  if r.Resets cfg F then some (forCondition F "update for condition" .conditionFalse)
  else (r.populateEdits cfg F).foldl (fun held e => e.act held)
    (r.kptfile.getCondition (getConditionType F))

/-- The condition of a for-instance after stage 1, in the inventory. -/
def settledEntry (cfg : Config V) (r : Sdk V) (F : ObjectReference) : Option Condition :=
  if r.Resets cfg F then some (forCondition F "update for condition" .conditionFalse)
  else (r.forCtx cfg F).existingCondition

omit [DecidableEq V] in
theorem getCondition_ensured {cfg : Config V} {r : Sdk V} {t : String}
    (ht : specializationConditionType ≠ t) :
    (r.ensured cfg).kptfile.getCondition t = r.kptfile.getCondition t := by
  have hfilter : (r.ensured cfg).kptfile.conditions.filter (fun c => c.type = t) =
      r.kptfile.conditions.filter fun c => c.type = t :=
    filter_ensured (decide_eq_false ht)
  have hhead : ∀ cs : List Condition, cs.find? (fun c => c.type = t) =
      (cs.filter fun c => c.type = t).head? := fun cs => List.head?_filter.symm
  rw [KptFile.getCondition, KptFile.getCondition, hhead, hhead, hfilter]

variable {cfg : Config V} {ord : Order} {r r₁ r' : Sdk V}

theorem settled_ensured (hfresh : r.inv.Fresh cfg) {F : ObjectReference} (hFdoc : F.Documented) :
    (r.ensured cfg).settled cfg F = r.settled cfg F ∧
      (r.ensured cfg).settledEntry cfg F = r.settledEntry cfg F := by
  have hF := ne_empty_of_named hFdoc.named
  have hedits : (r.ensured cfg).populateEdits cfg F = r.populateEdits cfg F := by
    unfold populateEdits
    rw [wanted_ensured, inv_ensured]
  constructor
  · simp only [settled, resets_ensured hfresh hF, hedits,
      getCondition_ensured (specialization_ne hFdoc)]
  · simp only [settledEntry, resets_ensured hfresh hF, forCtx_ensured hF]

theorem settled_of_stage1 (hfresh : r.inv.Fresh cfg) (hdoc : r.Documented cfg)
    (h : (r.filed cfg).stage1 cfg ord = .ok r₁) {F : ObjectReference} (hF : r.ForInstance cfg F)
    (hFdoc : F.Documented) :
    r₁.kptfile.getCondition (getConditionType F) = r.settled cfg F ∧
      (r₁.inv.resources.ctxAt (forPath F)).existingCondition = r.settledEntry cfg F := by
  constructor
  · refine (lookup_stage1_for hfresh hdoc h hF hFdoc).trans ?_
    unfold settled
    by_cases hreset : r.Resets cfg F
    · rw [if_pos hreset, if_pos hreset]
    · rw [if_neg hreset, if_neg hreset]
      rfl
  · rw [entry_stage1_for hfresh hdoc h hF hFdoc]
    unfold settledEntry
    by_cases hreset : r.Resets cfg F
    · rw [if_pos hreset, if_pos hreset]
    · rw [if_neg hreset, if_neg hreset]

/-- **The condition of a for-instance at the end of a Run** whose watches succeed. -/
theorem getCondition_run_for (hfresh : r.inv.Fresh cfg) (hdoc : r.Documented cfg)
    (hwatches : (r.ensured cfg).WatchesSucceed cfg ord)
    (hret : ∀ obj ∈ r.returned cfg ord, r.inv.role obj.ref = some .ownGVKKind →
      obj.ref.Documented)
    (h : r.run cfg ord = .ok r') {F : ObjectReference} (hF : (r.ensured cfg).ForInstance cfg F)
    (hFdoc : F.Documented) :
    r'.kptfile.getCondition (getConditionType F) =
      concluded r.inv F (r.settledEntry cfg F) (r.settled cfg F) (r.answer cfg ord F) := by
  have hs := fresh_ensured hfresh
  have hsdoc := documented_ensured hfresh hdoc
  obtain ⟨r₁, r₂, h₁, h₂, rfl⟩ := run_eq_ok.mp h
  have hstage := h₁
  rw [runWatches_of_succeed hwatches] at hstage
  have hready : r₁.inv.ready = true := by
    rw [inv_of_stage1 hs hstage]
    exact hs.ready
  obtain ⟨updateFn, hfn⟩ := Option.isSome_iff_exists.mp hfresh.updates
  obtain ⟨r₂', hr₂', hwrites⟩ := updateResources_writes hfn ord hready
  obtain rfl : r₂' = r₂ := Except.ok.inj (hr₂'.symm.trans h₂)
  have hsome : (r₁.inv.resources.find (forPath F)).isSome :=
    (isSome_of_stage1 hs hstage _).mpr ((isSome_stage1_for hs).mpr hF)
  have hanswer : r.answer cfg ord F = reply updateFn ord F (r₁.inv.readyCtxOf F) := by
    simp only [answer, h₁, hfn, hready, hsome, and_self, if_true]
  obtain ⟨hsettled, hentry⟩ := settled_of_stage1 hs hsdoc hstage hF hFdoc
  rw [getCondition_runReadiness (specialization_ne hFdoc),
    lookup_stage2_for hs hsdoc hstage ?_ hwrites hF hFdoc, hsettled, hentry,
    (settled_ensured hfresh hFdoc).1, (settled_ensured hfresh hFdoc).2, inv_ensured, hanswer]
  intro G ctx hctx obj hobj hrole
  rw [inv_ensured] at hrole
  exact hret obj (mem_returned h₁ hready hfn hctx hobj) hrole

end Run

end Sdk

end Nephio.CondKptSdk
