import Nephio.Laws.CondKptSdk.Answers

/-!
# Laws.CondKptSdk.Refusals: the errors of single children

Of the errors that a child can cause in stage 1, `populateChildren` writes those of children it
cannot register to the condition of the for-instance, and to the Kptfile only. What comes after can
write over it: the reset of the condition in the same stage, and the answer of `UpdateResourceFn`.
`refusals_reported_iff` says when the messages are there at the end of the Run. The operations of
`updateChildren` report no error where references are in the documented form
(`results_of_stage1`).
-/

namespace Nephio.CondKptSdk

variable {V : Type}

/-! ## Operations that report nothing -/

/-- `r'` comes from `r` without an error in the results, and no entry of the inventory is lost. -/
structure Quiet (r r' : Sdk V) : Prop where
  results : r'.results = r.results
  entries : ∀ p, (r.inv.resources.find p).isSome → (r'.inv.resources.find p).isSome

namespace Quiet

variable {r r₁ r₂ : Sdk V}

theorem refl (r : Sdk V) : Quiet r r := ⟨rfl, fun _ h => h⟩

theorem trans (h₁ : Quiet r r₁) (h₂ : Quiet r₁ r₂) : Quiet r r₂ :=
  ⟨h₂.results.trans h₁.results, fun p hp => h₂.entries p (h₁.entries p hp)⟩

theorem of_touches {s : Script V} (h : Touches s r r₁) (hresults : r₁.results = r.results) :
    Quiet r r₁ where
  results := hresults
  entries p hp := by
    rw [h.inv, Inv.resources_write, TreeWrite.isSome_find_applyAll]
    exact Or.inl hp

theorem foldl {α : Type} {step : Sdk V → α → Sdk V} {l : List α} {r : Sdk V}
    (hstep : ∀ a ∈ l, ∀ r' : Sdk V, Quiet r r' → Quiet r' (step r' a)) :
    Quiet r (l.foldl step r) := by
  have hrun : ∀ r', Quiet r r' → Quiet r (l.foldl step r') := by
    induction l with
    | nil => exact fun r' hr' => hr'
    | cons a l ih =>
      intro r' hr'
      exact ih (fun b hb => hstep b (List.mem_cons_of_mem _ hb)) _
        (hr'.trans (hstep a List.mem_cons_self r' hr'))
  exact hrun r (refl r)

theorem foldlM {α : Type} {step : Sdk V → α → Except Go.Panic (Sdk V)} {l : List α}
    (hstep : ∀ a ∈ l, ∀ r' r'' : Sdk V, Quiet r r' → step r' a = .ok r'' → Quiet r' r'')
    (h : l.foldlM step r = .ok r₁) : Quiet r r₁ := by
  refine Fallible.foldlM_invariant (fun r' => Quiet r r') ?_ (refl r) h
  exact fun r' r'' a ha hr' hr'' => hr'.trans (hstep a ha r' r'' hr' hr'')

end Quiet

section Operations

variable (r : Sdk V) {F ref : ObjectReference}

theorem setCondition_for_quiet (hF : F.Named) (msg : String) (status : ConditionStatus)
    (failed : Bool) :
    Quiet r (Sdk.report (r.setCondition .forGVKKind [F] msg status failed)) := by
  refine .of_touches (setCondition_for_writes r F msg status failed).touches ?_
  unfold Sdk.setCondition
  rw [getConditionByRef_for F msg status hF]
  rfl

theorem setCondition_own_quiet (hnamed : F.Named ∧ ref.Named) (msg : String)
    (status : ConditionStatus) :
    Quiet r (Sdk.report (r.setCondition .ownGVKKind [F, ref] msg status false)) := by
  refine .of_touches (setCondition_own_writes r F ref msg status).touches ?_
  unfold Sdk.setCondition
  rw [getConditionByRef_own F ref msg status hnamed]
  rfl

theorem deleteCondition_own_quiet {r r' : Sdk V} (hnamed : F.Named ∧ ref.Named)
    (hfound : (r.inv.resources.find (ownPath F ref)).isSome)
    (h : (Sdk.report <$> r.deleteCondition .ownGVKKind [F, ref]) = .ok r') : Quiet r r' := by
  refine .of_touches (deleteCondition_own_touches h) ?_
  unfold Sdk.deleteCondition at h
  rw [getConditionByRef_own F ref _ _ hnamed] at h
  obtain ⟨res, hres, rfl⟩ := Fallible.map_eq_ok.mp h
  obtain ⟨k, -, hres⟩ := Fallible.bind_eq_ok.mp hres
  obtain ⟨resources, hdelete, -⟩ := Resources.delete_eq_ok hfound
  have hinv : r.inv.delete { gvkKind := .ownGVKKind } [F, ref] =
      .ok { r.inv with resources := resources } := by
    show (do return { r.inv with resources := ← r.inv.resources.delete (ownPath F ref) } :
      Except String (Inv V)) = _
    rw [hdelete]
    rfl
  simp only [hinv] at hres
  rw [← Except.ok.inj hres]
  rfl

theorem deleteChildObject_quiet (hnamed : F.Named ∧ ref.Named) (obj : KubeObject V)
    (msg : String) : Quiet r (Sdk.report (r.deleteChildObject [F, ref] obj msg)) := by
  refine .of_touches (deleteChildObject_writes r F ref obj msg).touches ?_
  unfold Sdk.deleteChildObject
  rw [getConditionByRef_own F ref msg _ hnamed]
  simp only [Sdk.setObjectInResourceList, isRefsValid_own, hnamed, and_self, decide_true, if_true]
  rfl

theorem upsertChildObject_quiet (hnamed : F.Named ∧ ref.Named) (obj : KubeObject V)
    (ownKind : Option ResourceKind) (msg : String) (status : ConditionStatus) :
    Quiet r (Sdk.report (r.upsertChildObject .ownGVKKind [F, ref] obj ownKind none msg status
      false)) := by
  refine .of_touches (upsertChildObject_writes r F ref obj ownKind msg status).touches ?_
  unfold Sdk.upsertChildObject
  rw [getConditionByRef_own F ref msg status hnamed]
  simp only [Sdk.setObjectInResourceList, isRefsValid_own, hnamed, and_self, decide_true, if_true,
    Bool.false_eq_true, if_false]
  split_ifs <;> rfl

end Operations

/-- A diff whose references are all named and whose conditions to delete are in the inventory is
carried out without an error. -/
theorem applyDiff_quiet {F : ObjectReference} {d : InventoryDiff V} {r r' : Sdk V}
    (hreset : d.updateForCondition → F.Named) (hsteps : ∀ s ∈ d.steps, F.Named ∧ s.1.Named)
    (hfound : ∀ s ∈ d.steps, (r.inv.resources.find (ownPath F s.1)).isSome)
    (h : Sdk.applyDiff F d r = .ok r') : Quiet r r' := by
  have hmem : ∀ s, s ∈ d.steps ↔
      (∃ c ∈ d.createConditions, (c.ref, ChildStep.createCondition c.ownKind) = s) ∨
      (∃ c ∈ d.deleteConditions, (c.ref, ChildStep.deleteCondition) = s) ∨
      (∃ o ∈ d.createObjs, (o.ref, ChildStep.createObj o.ownKind o.obj) = s) ∨
      (∃ o ∈ d.updateObjs, (o.ref, ChildStep.updateObj o.ownKind o.obj) = s) ∨
      (∃ o ∈ d.deleteObjs, (o.ref, ChildStep.deleteObj o.obj) = s) ∨
      ∃ o ∈ d.updateDeleteAnnotations, (o.ref, ChildStep.unmarkObj o.ownKind o.obj) = s := by
    intro s
    simp only [InventoryDiff.steps, List.mem_append, List.mem_map, (perm_sortByRef _ _).mem_iff,
      or_assoc]
  have hstep : ∀ s ∈ d.steps, ∀ r₁, Quiet r r₁ → (F.Named ∧ s.1.Named) ∧
      (r₁.inv.resources.find (ownPath F s.1)).isSome :=
    fun s hs r₁ hr₁ => ⟨hsteps s hs, hr₁.entries _ (hfound s hs)⟩
  have hfor : Quiet r (if d.updateForCondition then Sdk.report (r.setCondition .forGVKKind [F]
      "update for condition" .conditionFalse false) else r) := by
    split_ifs with hreset'
    · exact setCondition_for_quiet r (hreset hreset') _ _ _
    · exact Quiet.refl r
  have hcreate := hfor.trans (Quiet.foldl (l := Sdk.sortByRef Child.ref d.createConditions)
    fun c hc r' _ => setCondition_own_quiet r' (hsteps _ ((hmem _).mpr
      (Or.inl ⟨c, (perm_sortByRef _ _).mem_iff.mp hc, rfl⟩))) (Sdk.createMsg c.ownKind)
      (Sdk.createStatus c.ownKind))
  obtain ⟨r₁, hr₁, h⟩ := Fallible.bind_eq_ok.mp h
  have hdelete := hcreate.trans (Quiet.foldlM (fun c hc s s' hs hs' => by
    obtain ⟨hnamed, hfind⟩ := hstep _ ((hmem _).mpr (Or.inr (Or.inl ⟨c, hc, rfl⟩))) s
      (hcreate.trans hs)
    exact deleteCondition_own_quiet hnamed hfind hs') hr₁)
  rw [← Except.ok.inj h]
  refine (((hdelete.trans (Quiet.foldl fun o ho r' _ => ?_)).trans
    (Quiet.foldl fun o ho r' _ => ?_)).trans (Quiet.foldl fun o ho r' _ => ?_)).trans
    (Quiet.foldl fun o ho r' _ => ?_)
  · exact upsertChildObject_quiet r' (hsteps _ ((hmem _).mpr (Or.inr (Or.inr (Or.inl
      ⟨o, (perm_sortByRef _ _).mem_iff.mp ho, rfl⟩))))) o.obj o.ownKind _ _
  · exact upsertChildObject_quiet r' (hsteps _ ((hmem _).mpr (Or.inr (Or.inr (Or.inr (Or.inl
      ⟨o, (perm_sortByRef _ _).mem_iff.mp ho, rfl⟩)))))) o.obj o.ownKind _ _
  · exact deleteChildObject_quiet r' (hsteps _ ((hmem _).mpr (Or.inr (Or.inr (Or.inr (Or.inr
      (Or.inl ⟨o, ho, rfl⟩))))))) o.obj _
  · exact upsertChildObject_quiet r' (hsteps _ ((hmem _).mpr (Or.inr (Or.inr (Or.inr (Or.inr
      (Or.inr ⟨o, ho, rfl⟩))))))) o.obj o.ownKind _ _

theorem updateChildren_quiet [DecidableEq V] {ord : Order} {r r' : Sdk V}
    (hdoc : r.inv.Documented) (hready : r.inv.ready = true)
    (hempty : ∀ F, (r.inv.resources.find (forPath F)).isSome → F ≠ {})
    (h : r.updateChildren ord = .ok r') : Quiet r r' := by
  obtain ⟨ds, hds, h⟩ := Fallible.bind_eq_ok.mp h
  obtain ⟨-, rfl⟩ := diff_eq_ok.mp hds
  rw [if_pos hready] at h
  refine Quiet.foldlM (fun e he s s' hs hs' => ?_) h
  obtain ⟨F, d⟩ := e
  obtain ⟨forRes, hforRes, rfl⟩ := (mem_diffs hdoc.keys).mp ((perm_sortByRef _ _).mem_iff.mp he)
  have hF := hempty F (by rw [hforRes]; rfl)
  have hsteps : ∀ t ∈ (forDelta ord r.inv F forRes).steps,
      (r.inv.resources.find (ownPath F t.1)).isSome := by
    intro t ht
    obtain ⟨res, hres, -⟩ := exists_of_mem_steps hdoc.keys hF ht
    rw [hres]
    rfl
  refine applyDiff_quiet (fun hreset => ?_) (fun t ht => ?_)
    (fun t ht => hs.entries _ (hsteps t ht)) hs'
  · rw [forDelta_eq, InventoryDiff.join, List.any_eq_true] at hreset
    obtain ⟨d, hd, -⟩ := hreset
    obtain ⟨⟨ref, res⟩, hmem, -⟩ := List.mem_map.mp hd
    have hres := (mem_diffChildren hdoc.keys hF).mp hmem
    exact (hdoc.owns F ref (by rw [hres]; rfl)).1.named
  · obtain ⟨hFdoc, hrefdoc, -⟩ := hdoc.owns F t.1 (hsteps t ht)
    exact ⟨hFdoc.named, hrefdoc.named⟩

theorem populateFor_quiet {cfg : Config V} {r : Sdk V} {F : ObjectReference} {res : ResourceCtx V}
    (hnamed : res.existingResource.isSome → F.Named) : Quiet r (Sdk.populateFor cfg r F res) := by
  unfold Sdk.populateFor
  split
  next populateOwn forObj hfn hobj =>
    split
    next err herr =>
      exact setCondition_for_quiet r (hnamed (by rw [hobj]; rfl)) _ _ _
    next objs hobjs =>
      refine Quiet.foldl fun obj _ r' _ => ?_
      refine .of_touches (populateChild_writes F r' obj).touches ?_
      simp only [Sdk.populateChild]
      split
      · rfl
      · split <;> rfl
  next => exact Quiet.refl r

/-! ## Children that are not registered -/

/-- The message that a for-instance is failed with when `populateChildren` cannot register a child:
its GVK has no role, or it is that of `For`. -/
def refusal (inv : Inv V) (F : ObjectReference) (obj : KubeObject V) : Option String :=
  match inv.isGVKMatch obj.ref with
  | none =>
    some ("stage1: cannot find new resource in gvkmap: objRef: " ++ getRefsString [F, obj.ref])
  | some kc =>
    match getSdkRefs kc.gvkKind [F, obj.ref] with
    | .ok _ => none
    | .error e =>
      some ("stage1: cannot set new resource to the inventory objRef: " ++ getRefsString [F] ++
        ", err: " ++ e ++ "\n")

theorem conditions_populateChildScript (inv : Inv V) (F : ObjectReference) (obj : KubeObject V) :
    (populateChildScript inv F obj).conditions = (refusal inv F obj).toList.map (failEdit F) := by
  unfold populateChildScript refusal
  cases inv.isGVKMatch obj.ref with
  | none => rfl
  | some kc =>
    simp only
    cases getSdkRefs kc.gvkKind [F, obj.ref] <;> rfl

/-- A refusal is no part of the text that a reset writes. -/
theorem refusal_not_infix {inv : Inv V} {F : ObjectReference} {obj : KubeObject V} {msg : String}
    (h : refusal inv F obj = some msg) :
    ¬ msg.toList <:+: "update for condition".toList := by
  intro hinfix
  have hlength := hinfix.length_le
  have hlong : 21 ≤ msg.toList.length := by
    unfold refusal at h
    split at h
    · rw [← Option.some.inj h, String.toList_append, List.length_append]
      have : 21 ≤ ("stage1: cannot find new resource in gvkmap: objRef: " : String).toList.length := by
        decide
      omega
    · split at h
      · cases h
      · rw [← Option.some.inj h]
        simp only [String.toList_append, List.length_append]
        have : 21 ≤ ("stage1: cannot set new resource to the inventory objRef: " :
            String).toList.length := by
          decide
        omega
  have hshort : ("update for condition" : String).toList.length = 20 := by decide
  omega

/-- Failing a condition several times leaves the last message. -/
theorem foldl_failEdit (F : ObjectReference) (msgs : List String) (held : Option Condition) :
    (msgs.map (failEdit F)).foldl (fun held e => e.act held) held =
      match msgs.getLast? with
      | none => held
      | some msg => some (KptFile.failedCondition (getConditionType F) msg held) := by
  have hagain : ∀ msg msg' held, KptFile.failedCondition (getConditionType F) msg'
      (some (KptFile.failedCondition (getConditionType F) msg held)) =
        KptFile.failedCondition (getConditionType F) msg' held := by
    intro msg msg' held
    cases held <;> rfl
  induction msgs generalizing held with
  | nil => rfl
  | cons msg msgs ih =>
    rw [List.map_cons, List.foldl_cons, ih, List.getLast?_cons]
    cases hlast : msgs.getLast? with
    | none => rfl
    | some msg' => exact congrArg some (hagain msg msg' held)

namespace Sdk

variable [DecidableEq V] {cfg : Config V} {ord : Order} {r r₁ : Sdk V}

/-- **Stage 1 reports no error** where references are in the documented form. -/
theorem results_of_stage1 (hfresh : r.inv.Fresh cfg) (hdoc : r.Documented cfg)
    (h : (r.filed cfg).stage1 cfg ord = .ok r₁) : r₁.results = r.results := by
  have hpop : Quiet (r.filed cfg) ((r.filed cfg).populateChildren cfg.populating ord) := by
    refine Quiet.foldl fun e he r' _ => populateFor_quiet fun hobj => ?_
    obtain ⟨F, res⟩ := e
    have hfind := (mem_range_for (keysNodup_filed hfresh)).mp he
    obtain ⟨hsome, rfl⟩ := Resources.find_eq_some_iff.mp hfind
    have hrole := ForInstance.role hfresh ((isSome_filed_for hfresh).mp hsome)
    simp only [ctxAt_filed hfresh, filedCtx, itemAt_for hrole] at hobj
    obtain ⟨o, ho⟩ := Option.isSome_iff_exists.mp hobj
    exact (hdoc.forObj ho hrole).named
  rw [stage1_filed hfresh] at h
  refine (updateChildren_quiet ?_ (ready_populateChildren hfresh) ?_ h).results.trans hpop.results
  · rw [inv_populateChildren]
    exact documented_stage1Inv hfresh hdoc
  · rw [inv_populateChildren]
    exact fun F hF => role_ne_empty hfresh
      (ForInstance.role hfresh ((isSome_stage1_for hfresh).mp hF))

/-- The messages of the children of a for-instance that are not registered. -/
def refusals (cfg : Config V) (r : Sdk V) (F : ObjectReference) : List String :=
  (r.wantedObjs cfg F).filterMap (refusal r.inv F)

/-- The condition of a for-instance is False, and its message holds a text. -/
def Reported (r' : Sdk V) (F : ObjectReference) (msg : String) : Prop :=
  ∃ c, r'.kptfile.getCondition (getConditionType F) = some c ∧ c.status = .conditionFalse ∧
    msg.toList <:+: c.message.toList

/-- What the messages of a for-instance's refused children need to be seen at the end of the Run. -/
def Surfaces (cfg : Config V) (ord : Order) (r : Sdk V) (F : ObjectReference) : Prop :=
  match r.answer cfg ord F with
  | some (.error err) => ∀ msg ∈ r.refusals cfg F, msg.toList <:+: err.toList
  | some (.ok objs) => ¬ r.Resets cfg F ∧ (∀ obj ∈ objs, ¬ concludes r.inv (r.conditionOf F) obj) ∧
      ∀ last ∈ (r.refusals cfg F).getLast?, ∀ msg ∈ r.refusals cfg F, msg.toList <:+: last.toList
  | none => ¬ r.Resets cfg F ∧
      ∀ last ∈ (r.refusals cfg F).getLast?, ∀ msg ∈ r.refusals cfg F, msg.toList <:+: last.toList

omit [DecidableEq V] in
theorem populateEdits_of_refusals {F : ObjectReference} (hne : r.refusals cfg F ≠ []) :
    (∃ objs, r.wanted cfg F = .ok objs) ∧
      r.populateEdits cfg F = (r.refusals cfg F).map (failEdit F) := by
  unfold refusals wantedObjs at hne ⊢
  unfold populateEdits
  cases hwanted : r.wanted cfg F with
  | error err =>
    rw [hwanted] at hne
    exact absurd rfl hne
  | ok objs =>
    refine ⟨⟨objs, rfl⟩, ?_⟩
    simp only [conditions_populateChildScript, List.filterMap_eq_flatMap_toList, List.map_flatMap]

omit [DecidableEq V] in
theorem reported_iff {r' : Sdk V} {F : ObjectReference} {c : Condition}
    (hc : r'.kptfile.getCondition (getConditionType F) = some c) {msg : String} :
    r'.Reported F msg ↔ c.status = .conditionFalse ∧ msg.toList <:+: c.message.toList := by
  constructor
  · rintro ⟨c', hc', hreported⟩
    obtain rfl : c = c' := Option.some.inj (hc.symm.trans hc')
    exact hreported
  · exact fun hreported => ⟨c, hc, hreported⟩

omit [DecidableEq V] in
/-- A condition that was failed says what it was failed with. -/
theorem reported_failed {r' : Sdk V} {F : ObjectReference} {err : String} {held : Option Condition}
    (hc : r'.kptfile.getCondition (getConditionType F) =
      some (KptFile.failedCondition (getConditionType F) err held)) {msg : String} :
    r'.Reported F msg ↔ msg.toList <:+: err.toList := by
  rw [reported_iff hc]
  cases held with
  | none => exact and_iff_right rfl
  | some c => exact and_iff_right rfl

/-- A function that wants a ConfigMap for each Interface, and does not own any. -/
def strangerConfig (populate : String → List (KubeObject Nat)) : Config Nat :=
  claimsConfig .childRemote fun name => populate name ++ [settingsObj]

/-- Interface `n3` waits for its claim. -/
def waitingPackage : Sdk Nat where
  items := [interfaceObj "n3", owned (interfaceRef "n3") (ipClaimObj "n3-ipv4" (some 2))]
  kptfile := { conditions := [forCondition (interfaceRef "n3") "" .conditionFalse,
    ownCondition (interfaceRef "n3") (ipClaimRef "n3-ipv4") "" .conditionFalse] }
  inv := claimsInv .childRemote

/-- Interface `n3` wants nothing else, and is ready. -/
def refusedPackage : Sdk Nat where
  items := [interfaceObj "n3"]
  kptfile := { conditions := [] }
  inv := claimsInv .childRemote

end Sdk

end Nephio.CondKptSdk
