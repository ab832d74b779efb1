import Nephio.Controllers.Finalizer
import Nephio.Controllers.GitResource
import Nephio.CondKptSdk.Updates
import Nephio.Laws.Go.Removal

/-!
# Laws.Removal: the three removal loops

`DeleteCondition`, `deleteObjFromResourceList` and `RemoveFinalizer` are one loop on three lists.
Each removes what its name says exactly where the matches lie apart (`removals_iff`). The lists of a
well-formed object have at most one match; a list with two neighbouring matches keeps the second,
and one whose last element is not the only match makes the loop panic.
-/

namespace Nephio

open Go CondKptSdk Controllers

variable {V : Type}

/-- A function that runs the loop and writes its result to a field has the loop's result. -/
theorem write_loop_eq_iff {α β : Type} {p : α → Bool} {xs ys : List α} {write : List α → β}
    {read : β → List α} (hread : ∀ zs, read (write zs) = zs) :
    (do let zs ← removeLoop p xs; return write zs) = Except.ok (write ys) ↔
      removeLoop p xs = .ok ys := by
  cases removeLoop p xs with
  | error e => exact ⟨fun h => (by cases h), fun h => (by cases h)⟩
  | ok zs =>
    refine ⟨fun h => ?_, fun h => ?_⟩
    · have := congrArg read (Except.ok.inj h)
      rw [hread, hread] at this
      rw [this]
    · rw [Except.ok.inj h]
      rfl

theorem deleteCondition_iff {k : KptFile} {ct : String} :
    k.deleteCondition ct = .ok { k with conditions := k.conditions.filter fun c => c.type ≠ ct } ↔
      Scattered (fun c => c.type = ct) k.conditions := by
  simp only [← removeLoop_eq_filter_iff, KptFile.deleteCondition, decide_not]
  exact @write_loop_eq_iff _ _ _ _ _ (fun ecs => { k with conditions := ecs }) KptFile.conditions
    fun _ => rfl

theorem deleteObjFromResourceList_iff {r : Sdk V} {obj : KubeObject V} :
    r.deleteObjFromResourceList obj =
        .ok { r with items := r.items.filter fun o => !o.isGVKNNEqual obj } ↔
      Scattered (fun o => o.isGVKNNEqual obj) r.items := by
  simp only [← removeLoop_eq_filter_iff, Sdk.deleteObjFromResourceList]
  exact @write_loop_eq_iff _ _ _ _ _ (fun items => { r with items := items }) Sdk.items
    fun _ => rfl

theorem removeFinalizer_iff {o : ObjectMeta} {finalizer : String} :
    o.removeFinalizer finalizer =
        .ok { o with finalizers := o.finalizers.filter fun e => e ≠ finalizer } ↔
      Scattered (fun e => e = finalizer) o.finalizers := by
  simp only [← removeLoop_eq_filter_iff, ObjectMeta.removeFinalizer, decide_not]
  exact @write_loop_eq_iff _ _ _ _ _ (fun f => { o with finalizers := f }) ObjectMeta.finalizers
    fun _ => rfl

/-- A list without repetitions is scattered, whatever goes from it. -/
theorem scattered_of_nodup {xs : List String} (h : xs.Nodup) (x : String) :
    Scattered (fun y => y = x) xs := by
  left
  have hcount := List.nodup_iff_count_le_one.mp h x
  rw [List.count_eq_length_filter] at hcount
  exact hcount

/-- The reconcilers' removal on a set of finalizers is the loop's. -/
theorem removeFinalizer_resource {S : Type} (cr : GitResource.Resource S) :
    (ObjectMeta.mk cr.finalizers).removeFinalizer GitResource.finalizer =
      .ok ⟨cr.removeFinalizer.finalizers⟩ :=
  removeFinalizer_iff.mpr (scattered_of_nodup cr.nodup _)

/-- **The removal loops.** Each leaves exactly what does not match, in order and without a panic,
if and only if at most one element matches, or no two neighbours match and the last element does
not. -/
theorem removals_iff (k : KptFile) (ct : String) (r : Sdk V) (obj : KubeObject V) (o : ObjectMeta)
    (finalizer : String) :
    (k.deleteCondition ct =
        .ok { k with conditions := k.conditions.filter fun c => c.type ≠ ct } ↔
      Scattered (fun c => c.type = ct) k.conditions) ∧
    (r.deleteObjFromResourceList obj =
        .ok { r with items := r.items.filter fun o => !o.isGVKNNEqual obj } ↔
      Scattered (fun o => o.isGVKNNEqual obj) r.items) ∧
    (o.removeFinalizer finalizer =
        .ok { o with finalizers := o.finalizers.filter fun e => e ≠ finalizer } ↔
      Scattered (fun e => e = finalizer) o.finalizers) :=
  ⟨deleteCondition_iff, deleteObjFromResourceList_iff, removeFinalizer_iff⟩

/-- The second of two neighbours stays, and a match at the end after another one is a panic. -/
theorem removals_go_wrong :
    (ObjectMeta.mk ["a", "a", "b"]).removeFinalizer "a" = .ok ⟨["a", "b"]⟩ ∧
      (ObjectMeta.mk ["a", "b", "a"]).removeFinalizer "a" = .error .sliceBounds ∧
      (ObjectMeta.mk ["a", "a"]).removeFinalizer "a" = .error .sliceBounds ∧
      (KptFile.mk [⟨"a", .conditionTrue, "", ""⟩, ⟨"a", .conditionTrue, "", ""⟩] []).deleteCondition
          "a" =
        .error .sliceBounds := by
  decide +kernel

end Nephio
