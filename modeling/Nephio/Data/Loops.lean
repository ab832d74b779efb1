import Mathlib

/-!
# Loops over lists

How the output of a loop is read off the element it is about, when the loop collects lists
(`flatMap`) and is then filtered, permuted or sorted.
-/

namespace Nephio.Loops

variable {α β κ : Type}

/-- Filtering what a loop collects, where the filter sees only which element it was collected for. -/
theorem filter_flatMap_eq {l : List α} {f : α → List β} {p : β → Bool} {q : α → Bool}
    (h : ∀ x ∈ l, ∀ y ∈ f x, p y = q x) : (l.flatMap f).filter p = (l.filter q).flatMap f := by
  induction l with
  | nil => rfl
  | cons x l ih =>
    rw [List.flatMap_cons, List.filter_append, ih fun y hy => h y (List.mem_cons_of_mem _ hy),
      List.filter_cons]
    have hx := h x List.mem_cons_self
    by_cases hq : q x = true
    · rw [if_pos hq, List.flatMap_cons, List.filter_eq_self.mpr fun y hy => (hx y hy).trans hq]
    · rw [if_neg hq, List.filter_eq_nil_iff.mpr fun y hy hp => hq ((hx y hy) ▸ hp), List.nil_append]

/-- An element that alone passes a filter is in the list, and nothing else in it passes. -/
theorem of_filter_eq_singleton {l : List α} {p : α → Prop} [DecidablePred p] {x : α}
    (h : l.filter (fun y => p y) = [x]) : x ∈ l ∧ ∀ y ∈ l, p y → y = x := by
  refine ⟨?_, fun y hy hp => ?_⟩
  · refine List.mem_of_mem_filter (p := fun y => p y) ?_
    rw [h]
    exact List.mem_singleton_self x
  · refine List.mem_singleton.mp ?_
    rw [← h]
    exact List.mem_filter.mpr ⟨hy, decide_eq_true hp⟩

/-- A permutation of at most one element is the same list. -/
theorem eq_of_perm_of_length_le_one {l l' : List α} (h : l.Perm l') (hlen : l'.length ≤ 1) :
    l = l' := by
  match l', hlen with
  | [], _ => exact h.eq_nil
  | [x], _ => exact List.perm_singleton.mp h

/-- The keys of a loop's output, when each turn adds at most one element, under the key of its
turn. -/
theorem map_flatMap_sublist {key : α → κ} {out : β → κ} {f : α → List β} (l : List α)
    (h : ∀ x ∈ l, ((f x).map out).Sublist [key x]) :
    ((l.flatMap f).map out).Sublist (l.map key) := by
  induction l with
  | nil => exact List.Sublist.refl _
  | cons x l ih =>
    rw [List.flatMap_cons, List.map_append, List.map_cons]
    exact (h x List.mem_cons_self).append (ih fun y hy => h y (List.mem_cons_of_mem _ hy))

/-- Two keys that tell the same elements apart repeat themselves on the same lists. -/
theorem nodup_map_iff {γ : Type} {f : α → β} {g : α → γ} (h : ∀ a b, f a = f b ↔ g a = g b)
    (l : List α) : (l.map f).Nodup ↔ (l.map g).Nodup := by
  simp only [List.Nodup, List.pairwise_map, ne_eq, h]

end Nephio.Loops
