import Nephio.Laws.CondKptSdk.Answers

/-!
# Laws.CondKptSdk.Reasons: the owner of a for-instance

The reason of a for-instance's condition names the resource that owns it, which another function wrote
there. A Run that edits the condition keeps the reason, and one that writes it afresh loses it. It is
written afresh where the children cannot be populated and where stage 1 changes a child, so that the
reason survives exactly in the other Runs (`reason_kept_iff`).
-/

namespace Nephio.CondKptSdk

variable {V : Type}

namespace Sdk

/-- An edit of `SetConditionRefFailed` keeps the reason. -/
theorem reason_foldl_failEdit {F : ObjectReference} {es : List ConditionEdit}
    (hes : ∀ e ∈ es, ∃ msg, e = failEdit F msg) (c : Condition) :
    ∃ c', es.foldl (fun held e => e.act held) (some c) = some c' ∧ c'.reason = c.reason := by
  induction es generalizing c with
  | nil => exact ⟨c, rfl, rfl⟩
  | cons e es ih =>
    obtain ⟨msg, rfl⟩ := hes e List.mem_cons_self
    exact ih (fun e' he' => hes e' (List.mem_cons_of_mem _ he'))
      { c with message := msg, status := .conditionFalse }

section Reasons

variable [DecidableEq V]

/-- A Run writes the condition of a for-instance afresh. -/
def Detaches (cfg : Config V) (ord : Order) (r : Sdk V) (F : ObjectReference) : Prop :=
  (r.ensured cfg).WatchesSucceed cfg ord ∧ ((r.wanted cfg F).isOk = false ∨ r.Resets cfg F)

variable {cfg : Config V} {ord : Order} {r r' : Sdk V} {F : ObjectReference} {c : Condition}

omit [DecidableEq V] in
/-- The condition that the inventory files is that of the Kptfile. -/
theorem conditionOf_eq (hdoc : r.Documented cfg) (hF : r.inv.role F = some .forGVKKind)
    (hFdoc : F.Documented) :
    r.conditionOf F = r.kptfile.getCondition (getConditionType F) := by
  have hfilter : (r.kptfile.conditions.filter fun c => getGVKNFromConditionType c.type = F) =
      r.kptfile.conditions.filter fun c => c.type = getConditionType F := by
    refine List.filter_congr fun c hc => decide_eq_decide.mpr ⟨fun hdecode => ?_, fun htype => ?_⟩
    · rw [← (hdoc.forCondition c hc (hdecode.symm ▸ hF)).eq, hdecode]
    · rw [htype, hFdoc.decode]
  rw [conditionOf, hfilter]
  exact Keyed.getLast?_filter_key Condition.type hdoc.types

/-- The condition of a for-instance after stage 1 has one reason, in the Kptfile and in the
inventory. -/
theorem reason_settled (hdoc : r.Documented cfg) (hF : r.inv.role F = some .forGVKKind)
    (hFdoc : F.Documented) (hc : r.kptfile.getCondition (getConditionType F) = some c) :
    ∃ held entry, r.settled cfg F = some held ∧ r.settledEntry cfg F = some entry ∧
      held.reason = entry.reason ∧
      entry.reason = if (r.wanted cfg F).isOk = false ∨ r.Resets cfg F then "" else c.reason := by
  unfold settled settledEntry
  by_cases hreset : r.Resets cfg F
  · rw [if_pos hreset, if_pos hreset, if_pos (Or.inr hreset)]
    exact ⟨_, _, rfl, rfl, rfl, rfl⟩
  · rw [if_neg hreset, if_neg hreset]
    cases hwanted : r.wanted cfg F with
    | error err =>
      have hfailed : (Except.error err : Except String (List (KubeObject V))).isOk = false := rfl
      rw [if_pos (Or.inl hfailed)]
      simp only [populateEdits, forCtx, hwanted]
      exact ⟨_, _, rfl, rfl, rfl, rfl⟩
    | ok objs =>
      have hedits : ∀ e ∈ r.populateEdits cfg F, ∃ msg, e = failEdit F msg := by
        intro e he
        simp only [populateEdits, hwanted, List.mem_flatMap] at he
        obtain ⟨obj, -, he⟩ := he
        exact target_populateChildScript he
      have hkept : ¬ ((Except.ok objs : Except String (List (KubeObject V))).isOk = false ∨
          r.Resets cfg F) := fun h => h.elim (fun hfailed => by cases hfailed) hreset
      obtain ⟨held, hheld, hreason⟩ := reason_foldl_failEdit hedits c
      refine ⟨held, c, ?_, ?_, hreason, (if_neg hkept).symm⟩
      · rw [hc]
        exact hheld
      · simp only [forCtx, hwanted]
        rw [conditionOf_eq hdoc hF hFdoc, hc]

omit [DecidableEq V] in
theorem reason_concluded {inv : Inv V} {held entry c' : Condition}
    (hsame : held.reason = entry.reason) {answer : Option (Except String (List (KubeObject V)))}
    (h : concluded inv F (some entry) (some held) answer = some c') :
    c'.reason = entry.reason := by
  cases answer with
  | none =>
    rw [← Option.some.inj h]
    exact hsame
  | some answer =>
    cases answer with
    | error err =>
      rw [← Option.some.inj h]
      exact hsame
    | ok objs =>
      simp only [concluded] at h
      split_ifs at h
      · rw [← Option.some.inj h]
        rfl
      · rw [← Option.some.inj h]
        exact hsame

omit [DecidableEq V] in
/-- A resource with a for condition is a for-instance. -/
theorem forInstance_ensured (hfresh : r.inv.Fresh cfg) (hF : r.inv.role F = some .forGVKKind)
    (hFdoc : F.Documented) (hc : r.kptfile.getCondition (getConditionType F) = some c) :
    (r.ensured cfg).ForInstance cfg F := by
  rw [← @getCondition_ensured V cfg r _ (specialization_ne hFdoc)] at hc
  have hmem := Keyed.mem_of_lookup Condition.type hc
  have htype := Keyed.key_of_lookup Condition.type hc
  refine (reached_for (fresh_ensured hfresh)).mpr ⟨by rw [inv_ensured]; exact hF,
    (F, getGVKNFromConditionType c.reason), ?_, Or.inl rfl⟩
  exact mem_resourcesOf.mpr (Or.inl ⟨c, hmem, by rw [htype, hFdoc.decode], rfl⟩)

/-- After a Run whose watches fail the condition has its reason. -/
theorem reason_idle (hfresh : r.inv.Fresh cfg) (hdoc : r.Documented cfg)
    (hfail : ¬ (r.ensured cfg).WatchesSucceed cfg ord) (h : r.run cfg ord = .ok r')
    (hF : r.inv.role F = some .forGVKKind) (hFdoc : F.Documented) {c' : Condition}
    (hc : r.kptfile.getCondition (getConditionType F) = some c)
    (hc' : r'.kptfile.getCondition (getConditionType F) = some c') : c'.reason = c.reason := by
  have hs := fresh_ensured hfresh
  have hsdoc := documented_ensured hfresh hdoc
  have hne := specialization_ne hFdoc
  obtain ⟨r₁, r₂, h₁, h₂, rfl⟩ := run_eq_ok.mp h
  obtain ⟨err, r₁', h₁', hconditions, -, hinv⟩ := stage1_idle hs hsdoc hfail
  obtain rfl : r₁' = r₁ := Except.ok.inj (h₁'.symm.trans h₁)
  have hnotReady : r₁'.inv.ready = false := by
    rw [hinv]
    rfl
  have hinstance := forInstance_ensured hfresh hF hFdoc hc
  rw [getCondition_runReadiness hne, (updateResources_notReady hnotReady h₂).1] at hc'
  rw [← getCondition_ensured hne] at hc
  have hwatch : ∀ e ∈ ((r.ensured cfg).watchEdits cfg err).filter
      (fun e => e.target = getConditionType F), ∃ msg, e = failEdit F msg := by
    intro e he
    obtain ⟨he, htarget⟩ := List.mem_filter.mp he
    have htarget := of_decide_eq_true htarget
    rcases target_watchEdits hs he with ⟨-, hspecialization⟩ | ⟨G, hG, hGinstance, rfl⟩
    · exact absurd (hspecialization.symm.trans htarget) hne
    · obtain ⟨o, ho⟩ := Option.isSome_iff_exists.mp hG
      have hGdoc := hsdoc.forObj ho (hGinstance.role hs)
      exact ⟨err, by rw [hGdoc.injective hFdoc htarget]⟩
  obtain ⟨c₁, hc₁, hreason⟩ := reason_foldl_failEdit hwatch c
  have hlookup : r₁'.kptfile.getCondition (getConditionType F) =
      ((idleScript ord ((r.ensured cfg).idleInv cfg)).conditions.filter
        fun e => e.target = getConditionType F).foldl (fun held e => e.act held) (some c₁) := by
    show Keyed.lookup Condition.type (getConditionType F) r₁'.kptfile.conditions = _
    rw [hconditions, Keyed.lookup_applyAll, Keyed.lookup_applyAll, ← hc₁, ← hc]
    rfl
  rw [hlookup, idle_conditions_at_for (documented_idleInv hs hsdoc)
    ((find_idle_for hs hsdoc).mpr ⟨hinstance, rfl⟩) hFdoc.named] at hc'
  split_ifs at hc'
  · cases hc'
  · rw [← Option.some.inj hc', hreason]

end Reasons

/-! ### An Interface that an NFDeployment owns -/

def nfDeploymentType : String :=
  getConditionType
    { apiVersion := "workload.nephio.org/v1alpha1", kind := "NFDeployment", name := "upf" }

/-- Interface `n3` is done, and its claim has the given spec. -/
def ownedInterface (spec : Nat) : Sdk Nat where
  items := [interfaceObj "n3", owned (interfaceRef "n3") (ipClaimObj "n3-ipv4" (some spec))]
  kptfile := { conditions :=
    [{ forCondition (interfaceRef "n3") "update done" .conditionTrue with
        reason := nfDeploymentType },
      ownCondition (interfaceRef "n3") (ipClaimRef "n3-ipv4") "" .conditionTrue] }
  inv := claimsInv .childRemote

end Sdk

end Nephio.CondKptSdk
