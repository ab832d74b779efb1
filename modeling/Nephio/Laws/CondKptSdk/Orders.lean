import Nephio.Data.Contents
import Nephio.Laws.CondKptSdk.Answers

/-!
# Laws.CondKptSdk.Orders: stage 1 and the order of the maps

Stage 1 ranges over Go maps in `populateChildren`, in the diff, and over the children of each
for-instance. The order shows in the package only as the order of its lists: whatever the orders, the
conditions and the items are the same up to a permutation (`stage1_any_order`). The lists themselves
can differ, since a condition that is deleted and set again goes to the end
(`deserted_in_any_order`).
-/

namespace Nephio.CondKptSdk.Sdk

variable {V : Type} {cfg : Config V} {ord ord' : Order} {r r₁ r₂ : Sdk V}

theorem roles_of_child {F ref : ObjectReference} (h : r.Owns F ref ∨ r.Wants cfg F ref) :
    r.inv.role ref = some .ownGVKKind ∧ r.inv.role F = some .forGVKKind :=
  h.elim (fun h => ⟨h.1, h.2.1⟩) fun h => ⟨h.1, h.2.1⟩

theorem ref_of_wantedObj {F ref : ObjectReference} {o : KubeObject V}
    (h : r.wantedObj cfg F ref = some o) : o.ref = ref := by
  obtain ⟨obj, hobj, rfl⟩ := Option.map_eq_some_iff.mp h
  exact of_decide_eq_true (List.mem_filter.mp (List.mem_of_getLast? hobj)).2

section Stage1

variable [DecidableEq V] (hfresh : r.inv.Fresh cfg) (hdoc : r.Documented cfg)
  (hdisj : r.Disjoint cfg) (h : (r.filed cfg).stage1 cfg ord = .ok r₁)
  (h' : (r.filed cfg).stage1 cfg ord' = .ok r₂)

include hfresh hdoc hdisj h h'

/-- A condition is that of a child, of a for-instance, or not written; none of it depends on the
order. -/
theorem getCondition_stage1_eq (t : String) :
    r₁.kptfile.getCondition t = r₂.kptfile.getCondition t := by
  by_cases hown : ∃ F ref, (r.Owns F ref ∨ r.Wants cfg F ref) ∧ getConditionType ref = t
  · obtain ⟨F, ref, hchild, rfl⟩ := hown
    exact (lookup_stage1_own hfresh hdoc h (hdisj.only hchild) hchild).trans
      (lookup_stage1_own hfresh hdoc h' (hdisj.only hchild) hchild).symm
  · have hown : ∀ F ref, r.Owns F ref ∨ r.Wants cfg F ref → getConditionType ref ≠ t :=
      fun F ref hchild htype => hown ⟨F, ref, hchild, htype⟩
    by_cases hfor : ∃ F, r.ForInstance cfg F ∧ F.Documented ∧ getConditionType F = t
    · obtain ⟨F, hF, hFdoc, rfl⟩ := hfor
      exact (settled_of_stage1 hfresh hdoc h hF hFdoc).1.trans
        (settled_of_stage1 hfresh hdoc h' hF hFdoc).1.symm
    · have hfor : ∀ F, r.ForInstance cfg F → F.Documented → getConditionType F ≠ t :=
        fun F hF hFdoc htype => hfor ⟨F, hF, hFdoc, htype⟩
      exact (lookup_stage1_other hfresh hdoc h hfor hown).trans
        (lookup_stage1_other hfresh hdoc h' hfor hown).symm

theorem items_stage1_eq (ref : ObjectReference) :
    r₁.items.filter (fun o => o.ref = ref) = r₂.items.filter fun o => o.ref = ref := by
  by_cases hown : ∃ F, r.Owns F ref ∨ r.Wants cfg F ref
  · obtain ⟨F, hchild⟩ := hown
    exact (items_stage1_own hfresh hdoc h (hdisj.only hchild) hchild).trans
      (items_stage1_own hfresh hdoc h' (hdisj.only hchild) hchild).symm
  · have hown : ∀ F, ¬ (r.Owns F ref ∨ r.Wants cfg F ref) := fun F hchild => hown ⟨F, hchild⟩
    exact (items_stage1_other hfresh hdoc h hown).trans
      (items_stage1_other hfresh hdoc h' hown).symm

end Stage1

/-- **Stage 1 in any order.** For a package whose references are in the documented form and whose
for-instances have different children: if stage 1 completes in one order of the maps it completes in
every other one, and what it leaves are the same conditions and the same items, up to the order in
which they are listed. -/
theorem stage1_any_order [DecidableEq V] (hinv : newInventory cfg = .ok r.inv)
    (hdoc : r.Documented cfg) (hdisj : r.Disjoint cfg)
    (h : (r.filed cfg).stage1 cfg ord = .ok r₁) (ord' : Order) :
    ∃ r₂, (r.filed cfg).stage1 cfg ord' = .ok r₂ ∧
      r₁.kptfile.conditions.Perm r₂.kptfile.conditions ∧ r₁.items.Perm r₂.items := by
  have hfresh := newInventory_fresh hinv
  have hpanic := noPanic_of_stage1 hfresh hdoc h
  obtain ⟨r₂, h'⟩ := (stage1_ok_iff ord' hfresh hdoc).mpr hpanic
  have hnodup : ∀ {ord : Order} {r' : Sdk V}, (r.filed cfg).stage1 cfg ord = .ok r' →
      (Keyed.keys Condition.type r'.kptfile.conditions).Nodup :=
    fun h => (writes_of_stage1 hfresh hdoc h).nodup hdoc.types
  refine ⟨r₂, h', ?_, ?_⟩
  · exact Keyed.perm_of_lookup (hnodup h) (hnodup h') fun t =>
      getCondition_stage1_eq hfresh hdoc hdisj h h' t
  · exact Keyed.perm_of_filter_key KubeObject.ref fun ref =>
      List.Perm.of_eq (items_stage1_eq hfresh hdoc hdisj h h' ref)

/-- The order of insertion, reversed at one place of the program. -/
def reversedAt (site : RangeSite) : Order where
  range s _ m := if s = site then m.reverse else m
  perm s _ m := by
    split_ifs
    · exact m.reverse_perm
    · exact .refl m

/-- Two claims of Interface `n3`, which is gone, each with its condition. -/
def deserted : Sdk Nat where
  items := [owned (interfaceRef "n3") (ipClaimObj "n3-ipv4" (some 1)),
    owned (interfaceRef "n3") (ipClaimObj "n3-ipv6" (some 1))]
  kptfile := { conditions :=
    [ownCondition (interfaceRef "n3") (ipClaimRef "n3-ipv4") "" .conditionTrue,
      ownCondition (interfaceRef "n3") (ipClaimRef "n3-ipv6") "" .conditionTrue] }
  inv := claimsInv .childRemote

/-- Both conditions are deleted, and set again in the order of the map: the lists differ, what they
hold does not. -/
theorem deserted_in_any_order :
    ∃ r₁ r₂, (deserted.filed (claimsConfig .childRemote claimsWanted)).stage1
        (claimsConfig .childRemote claimsWanted) .insertion = .ok r₁ ∧
      (deserted.filed (claimsConfig .childRemote claimsWanted)).stage1
        (claimsConfig .childRemote claimsWanted) (reversedAt (.diffOwn (interfaceRef "n3"))) =
          .ok r₂ ∧
      r₁.kptfile.conditions ≠ r₂.kptfile.conditions ∧
      r₁.kptfile.conditions.Perm r₂.kptfile.conditions ∧ r₁.items.Perm r₂.items := by
  have hinv := newInventory_claimsConfig .childRemote claimsWanted
  obtain ⟨r₁, h⟩ := (stage1_ok_iff .insertion (newInventory_fresh hinv)
    (r := deserted) (by decide +kernel)).mpr (by decide +kernel)
  obtain ⟨r₂, h', hconditions, hitems⟩ := stage1_any_order hinv (by decide +kernel)
    (by decide +kernel) h (reversedAt (.diffOwn (interfaceRef "n3")))
  have hdiffer : ((deserted.filed (claimsConfig .childRemote claimsWanted)).stage1
        (claimsConfig .childRemote claimsWanted) .insertion).toOption.map
          (fun r => r.kptfile.conditions) ≠
      ((deserted.filed (claimsConfig .childRemote claimsWanted)).stage1
        (claimsConfig .childRemote claimsWanted)
          (reversedAt (.diffOwn (interfaceRef "n3")))).toOption.map
          fun r => r.kptfile.conditions := by decide +kernel
  rw [h, h'] at hdiffer
  exact ⟨r₁, r₂, h, h', fun heq => hdiffer (congrArg some heq), hconditions, hitems⟩

end Nephio.CondKptSdk.Sdk
