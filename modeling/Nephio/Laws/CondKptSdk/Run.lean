import Nephio.Laws.CondKptSdk.Reconcile
import Nephio.Laws.CondKptSdk.Stage2

/-!
# Laws.CondKptSdk.Run: a Run, stage by stage

`run_eq_ok` takes a Run apart. The condition of the specializer itself, which a Root function keeps,
is about no reference, so it changes nothing in the views of the package (`Ensured`).
-/

namespace Nephio.CondKptSdk

variable {V : Type}

namespace Sdk

/-- The sdk when the inventory is filled: a Root function has ensured its own condition. -/
def ensured (cfg : Config V) (r : Sdk V) : Sdk V :=
  if cfg.root then r.ensureConditionsAndGates else r

theorem run_eq [DecidableEq V] (cfg : Config V) (ord : Order) (r : Sdk V) :
    r.run cfg ord = (do
      let r₁ ← (((r.ensured cfg).filed cfg).runWatches cfg ord).stage1 cfg ord
      let r₂ ← r₁.updateResources cfg ord
      return r₂.runReadiness cfg) := by
  unfold run
  rw [← ensured]
  simp only [populateInventory_filed]

theorem run_eq_ok [DecidableEq V] {cfg : Config V} {ord : Order} {r r' : Sdk V} :
    r.run cfg ord = .ok r' ↔ ∃ r₁ r₂,
      (((r.ensured cfg).filed cfg).runWatches cfg ord).stage1 cfg ord = .ok r₁ ∧
      r₁.updateResources cfg ord = .ok r₂ ∧ r₂.runReadiness cfg = r' := by
  rw [run_eq]
  constructor
  · intro h
    obtain ⟨r₁, hr₁, h⟩ := Fallible.bind_eq_ok.mp h
    obtain ⟨r₂, hr₂, h⟩ := Fallible.bind_eq_ok.mp h
    exact ⟨r₁, r₂, hr₁, hr₂, Except.ok.inj h⟩
  · rintro ⟨r₁, r₂, hr₁, hr₂, rfl⟩
    exact Fallible.bind_eq_ok.mpr ⟨r₁, hr₁, Fallible.bind_eq_ok.mpr ⟨r₂, hr₂, rfl⟩⟩

/-! ## The specializer's own condition -/

theorem decode_specialization :
    getGVKNFromConditionType specializationConditionType = {} := by
  decide +kernel

section Ensured

variable {cfg : Config V} {r : Sdk V}

@[simp] theorem inv_ensured : (r.ensured cfg).inv = r.inv := by
  unfold ensured
  split_ifs <;> rfl

@[simp] theorem items_ensured : (r.ensured cfg).items = r.items := by
  unfold ensured
  split_ifs <;> rfl

/-- At most the condition of the specializer is added. -/
theorem conditions_ensured (cfg : Config V) (r : Sdk V) :
    (r.ensured cfg).kptfile.conditions = r.kptfile.conditions ∨
      (Keyed.lookup Condition.type specializationConditionType r.kptfile.conditions = none ∧
        (r.ensured cfg).kptfile.conditions = r.kptfile.conditions ++ [initializeCondition]) := by
  unfold ensured ensureConditionsAndGates
  split_ifs with hroot
  · dsimp only
    split_ifs with hnone
    · have hlookup : Keyed.lookup Condition.type specializationConditionType
          r.kptfile.conditions = none := Option.isNone_iff_eq_none.mp hnone
      exact Or.inr ⟨hlookup, Keyed.upsert_of_lookup_none Condition.type hlookup⟩
    · exact Or.inl rfl
  · exact Or.inl rfl

theorem filter_ensured {p : Condition → Bool} (hp : p initializeCondition = false) :
    (r.ensured cfg).kptfile.conditions.filter p = r.kptfile.conditions.filter p := by
  rcases conditions_ensured cfg r with h | ⟨-, h⟩
  · rw [h]
  · rw [h, List.filter_append, List.filter_cons_of_neg (by rw [hp]; exact Bool.false_ne_true),
      List.filter_nil, List.append_nil]

theorem decode_initialize : getGVKNFromConditionType initializeCondition.type = {} ∧
    getGVKNFromConditionType initializeCondition.reason = {} :=
  ⟨decode_specialization, by decide +kernel⟩

@[simp] theorem forObj_ensured (F : ObjectReference) : (r.ensured cfg).forObj F = r.forObj F := by
  unfold forObj
  rw [items_ensured]

@[simp] theorem wanted_ensured (F : ObjectReference) :
    (r.ensured cfg).wanted cfg F = r.wanted cfg F := by
  unfold wanted
  rw [forObj_ensured]

@[simp] theorem wantedObjs_ensured (F : ObjectReference) :
    (r.ensured cfg).wantedObjs cfg F = r.wantedObjs cfg F := by
  unfold wantedObjs
  rw [wanted_ensured]

theorem conditionOf_ensured {F : ObjectReference} (hF : F ≠ {}) :
    (r.ensured cfg).conditionOf F = r.conditionOf F := by
  unfold conditionOf
  rw [filter_ensured]
  rw [decide_eq_false_iff_not, decode_initialize.1]
  exact hF.symm

theorem ownedCondition_ensured {F ref : ObjectReference} (hF : F ≠ {}) :
    (r.ensured cfg).ownedCondition F ref = r.ownedCondition F ref := by
  unfold ownedCondition
  rw [filter_ensured]
  rw [decide_eq_false_iff_not, decode_initialize.2]
  exact fun h => hF h.2.symm

@[simp] theorem ownedItem_ensured (F ref : ObjectReference) :
    (r.ensured cfg).ownedItem F ref = r.ownedItem F ref := by
  unfold ownedItem
  rw [items_ensured]

@[simp] theorem wantedObj_ensured (F ref : ObjectReference) :
    (r.ensured cfg).wantedObj cfg F ref = r.wantedObj cfg F ref := by
  unfold wantedObj
  rw [wantedObjs_ensured]

theorem childCtx_ensured {F ref : ObjectReference} (hF : F ≠ {}) :
    (r.ensured cfg).childCtx cfg F ref = r.childCtx cfg F ref := by
  simp only [childCtx, ownedCondition_ensured hF, ownedItem_ensured, wantedObj_ensured, inv_ensured]

theorem forCtx_ensured {F : ObjectReference} (hF : F ≠ {}) :
    (r.ensured cfg).forCtx cfg F = r.forCtx cfg F := by
  simp only [forCtx, conditionOf_ensured hF, forObj_ensured, wanted_ensured, inv_ensured]

theorem owns_ensured (hfresh : r.inv.Fresh cfg) {F ref : ObjectReference} :
    (r.ensured cfg).Owns F ref ↔ r.Owns F ref := by
  unfold Owns
  rw [inv_ensured]
  refine and_congr_right fun _ => and_congr_right fun hF => ?_
  rw [mem_resourcesOf, mem_resourcesOf, items_ensured]
  refine or_congr_left ?_
  rcases conditions_ensured cfg r with h | ⟨-, h⟩
  · rw [h]
  · rw [h]
    constructor
    · rintro ⟨c, hc, htype, hreason⟩
      rcases List.mem_append.mp hc with hc | hc
      · exact ⟨c, hc, htype, hreason⟩
      · rw [List.mem_singleton.mp hc, decode_initialize.2] at hreason
        exact absurd hreason.symm (role_ne_empty hfresh hF)
    · rintro ⟨c, hc, h⟩
      exact ⟨c, List.mem_append_left _ hc, h⟩

theorem wants_ensured {F ref : ObjectReference} :
    (r.ensured cfg).Wants cfg F ref ↔ r.Wants cfg F ref := by
  unfold Wants
  rw [inv_ensured, wantedObjs_ensured]

theorem resets_ensured [DecidableEq V] (hfresh : r.inv.Fresh cfg) {F : ObjectReference}
    (hF : F ≠ {}) : (r.ensured cfg).Resets cfg F ↔ r.Resets cfg F := by
  simp only [Resets, forObj_ensured, forCtx_ensured hF, owns_ensured hfresh, wants_ensured,
    childCtx_ensured hF]

theorem documented_ensured (hfresh : r.inv.Fresh cfg) (hdoc : r.Documented cfg) :
    (r.ensured cfg).Documented cfg := by
  have hmem : ∀ c ∈ (r.ensured cfg).kptfile.conditions,
      c ∈ r.kptfile.conditions ∨ c = initializeCondition := by
    intro c hc
    rcases conditions_ensured cfg r with h | ⟨-, h⟩
    · exact Or.inl (h ▸ hc)
    · rw [h] at hc
      rcases List.mem_append.mp hc with hc | hc
      · exact Or.inl hc
      · exact Or.inr (List.mem_singleton.mp hc)
  refine ⟨?_, ?_, ?_, ?_, ?_, ?_⟩
  · rcases conditions_ensured cfg r with h | ⟨hnone, h⟩
    · rw [h]
      exact hdoc.types
    · rw [h, ← Keyed.upsert_of_lookup_none Condition.type hnone]
      exact Keyed.nodup_keys_upsert _ hdoc.types _
  · simpa only [items_ensured, inv_ensured] using hdoc.forItem
  · intro c hc hrole
    rw [inv_ensured] at hrole
    rcases hmem c hc with hc | rfl
    · exact hdoc.forCondition c hc hrole
    · exact absurd decode_initialize.1 (role_ne_empty hfresh hrole)
  · simpa only [items_ensured, inv_ensured] using hdoc.ownItem
  · intro c hc hrole howner
    rw [inv_ensured] at hrole howner
    rcases hmem c hc with hc | rfl
    · exact hdoc.ownCondition c hc hrole howner
    · exact absurd decode_initialize.2 (role_ne_empty hfresh howner)
  · simpa only [wantedObjs_ensured, inv_ensured] using hdoc.wanted

end Ensured

end Sdk

end Nephio.CondKptSdk
