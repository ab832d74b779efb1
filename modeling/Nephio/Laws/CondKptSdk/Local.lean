import Nephio.Laws.CondKptSdk.Desired

/-!
# Laws.CondKptSdk.Local: the conditions of local children

The actor of a local child is the function itself, so nobody but the sdk sets the condition of a
local child, and the design has it True from the start. Creating the child keeps to that; rewriting
it, because its spec changed or to clean a delete annotation, sets the condition to False as for any
other kind (`locals_done_iff`).
-/

namespace Nephio.CondKptSdk

variable {V : Type}

namespace Sdk

/-- No local child has a condition that is not True. -/
def LocalsDone (r : Sdk V) : Prop :=
  ∀ c ∈ r.kptfile.conditions,
    r.inv.ownKindOf (getGVKNFromConditionType c.type) = some .childLocal →
      c.status = .conditionTrue

instance (r : Sdk V) : Decidable r.LocalsDone :=
  inferInstanceAs (Decidable (∀ c ∈ _, _))

/-- In `r₁` every local child that a for-instance of `r` wants has a True condition that names the
for-instance. -/
def WantedLocalsDone (cfg : Config V) (r r₁ : Sdk V) : Prop :=
  ∀ F ref, r.Wants cfg F ref → r.inv.ownKindOf ref = some .childLocal →
    ∃ c ∈ r₁.kptfile.conditions, c.type = getConditionType ref ∧ c.status = .conditionTrue ∧
      c.reason = getConditionType F

section Outcome

variable [DecidableEq V] {F ref : ObjectReference} {res : ResourceCtx V} {held : Option Condition}

/-- A wanted local child whose object is left alone ends with a True condition, if it had no
other. -/
theorem outcome_of_local (hkind : res.ownKind = some .childLocal) (hnew : res.newResource.isSome)
    (hspec : ¬ specChanged res) (hmark : ¬ unmarks res)
    (hheld : ∀ c, res.existingCondition = some c →
      held = some c ∧ c.status = .conditionTrue ∧ c.reason = getConditionType F) :
    ∃ c, outcome F ref res held = some c ∧ c.status = .conditionTrue ∧
      c.reason = getConditionType F := by
  obtain ⟨new, hnew⟩ := Option.isSome_iff_exists.mp hnew
  have hstatus : createStatus res.ownKind = .conditionTrue := if_pos hkind
  simp only [outcome, hnew, hspec, hmark, Bool.or_self, Bool.false_eq_true, if_false, hstatus]
  cases res.existingResource with
  | none => exact ⟨_, rfl, rfl, rfl⟩
  | some o =>
    cases hc : res.existingCondition with
    | none => exact ⟨_, rfl, rfl, rfl⟩
    | some c => exact ⟨c, hheld c hc⟩

/-- A wanted child whose object is rewritten ends with a False condition. -/
theorem outcome_of_rewritten (h : specChanged res ∨ unmarks res) :
    outcome F ref res held = some (ownCondition F ref "update resource" .conditionFalse) := by
  have hsome : ∃ o new, res.existingResource = some o ∧ res.newResource = some new := by
    cases ho : res.existingResource with
    | none =>
      rw [specChanged_eq_false (Or.inl ho), unmarks_eq_false (Or.inl ho)] at h
      simp at h
    | some o =>
      cases hnew : res.newResource with
      | none =>
        rw [specChanged_eq_false (Or.inr hnew), unmarks_eq_false (Or.inr hnew)] at h
        simp at h
      | some new => exact ⟨o, new, rfl, rfl⟩
  obtain ⟨o, new, ho, hnew⟩ := hsome
  simp only [outcome, ho, hnew, Option.isNone_some, Bool.false_eq_true, if_false, Bool.or_eq_true,
    h, if_true]

end Outcome

/-- Interface `n3` wants the local claim `n3-ipv4` with spec 2, and has it with some spec. -/
def localPackage (spec : Nat) : Sdk Nat where
  items := [interfaceObj "n3", owned (interfaceRef "n3") (ipClaimObj "n3-ipv4" (some spec))]
  kptfile := { conditions := [forCondition (interfaceRef "n3") "" .conditionTrue,
    ownCondition (interfaceRef "n3") (ipClaimRef "n3-ipv4") "" .conditionTrue] }
  inv := claimsInv .childLocal

end Sdk

end Nephio.CondKptSdk
