import Nephio.Go.Sort

/-!
# Laws.Go.Sort: sorting by a key

With `<` on the key `sort.Slice` is given an order, and if the keys are distinct there is one result
for all orders of the input. With `≤` it is not; where the keys are distinct that makes no
difference, since no element is compared with itself. Where they are not, an insertion sort turns
the elements of each key around (`filter_insertionSort_le`), so that sorting twice is sorting once
only if they read the same backwards.
-/

namespace Nephio.Go

variable {α : Type} {key : α → String}

theorem strictWeak_lt (key : α → String) : StrictWeak fun a b => decide (key a < key b) where
  asymm a b hab := by
    rw [decide_eq_true_eq] at hab
    rw [decide_eq_false_iff_not]
    exact not_lt_of_gt hab
  trans a b c hab hbc := by
    rw [decide_eq_false_iff_not, not_lt] at hab hbc ⊢
    exact hbc.trans hab

section Slice

variable (sort : SliceSort) {xs ys : List α}

theorem pairwise_slice_lt (hxs : (xs.map key).Nodup) :
    (sort.slice (fun a b => key a < key b) xs).Pairwise fun a b => key a < key b := by
  have hnodup : ((sort.slice (fun a b => decide (key a < key b)) xs).map key).Nodup :=
    ((sort.perm _ xs).map key).nodup_iff.mpr hxs
  have hsorted := sort.sorted (strictWeak_lt key) xs
  rw [List.Nodup, List.pairwise_map] at hnodup
  refine (hsorted.and hnodup).imp fun h => ?_
  exact lt_of_le_of_ne (not_lt.mp (of_decide_eq_false h.1)) h.2

/-- Lists in the strict order of their keys are equal if they have the same elements. -/
theorem eq_of_perm_of_pairwise_lt (h : xs.Perm ys) (hxs : xs.Pairwise fun a b => key a < key b)
    (hys : ys.Pairwise fun a b => key a < key b) : xs = ys :=
  h.eq_of_pairwise (fun _ _ _ _ hab hba => absurd hba (not_lt_of_gt hab)) hxs hys

/-- **One result for all orders of the input**, where the keys are distinct. -/
theorem slice_lt_eq_of_perm (h : xs.Perm ys) (hxs : (xs.map key).Nodup) :
    sort.slice (fun a b => key a < key b) xs = sort.slice (fun a b => key a < key b) ys := by
  refine eq_of_perm_of_pairwise_lt ?_ (pairwise_slice_lt sort hxs)
    (pairwise_slice_lt sort ((h.map key).nodup_iff.mp hxs))
  exact (sort.perm _ xs).trans (h.trans (sort.perm _ ys).symm)

/-- Where the keys are distinct, `≤` is as good as `<`. -/
theorem slice_le_eq_lt (hxs : (xs.map key).Nodup) :
    sort.slice (fun a b => key a ≤ key b) xs = sort.slice (fun a b => key a < key b) xs := by
  refine sort.apart ((List.pairwise_map.mp hxs).imp fun hne => ?_)
  exact ⟨decide_eq_decide.mpr (le_iff_lt_or_eq.trans (or_iff_left hne)),
    decide_eq_decide.mpr (le_iff_lt_or_eq.trans (or_iff_left hne.symm))⟩

theorem pairwise_slice_le (hxs : (xs.map key).Nodup) :
    (sort.slice (fun a b => key a ≤ key b) xs).Pairwise fun a b => key a < key b := by
  rw [slice_le_eq_lt sort hxs]
  exact pairwise_slice_lt sort hxs

theorem slice_le_eq_of_perm (h : xs.Perm ys) (hxs : (xs.map key).Nodup) :
    sort.slice (fun a b => key a ≤ key b) xs = sort.slice (fun a b => key a ≤ key b) ys := by
  rw [slice_le_eq_lt sort hxs, slice_le_eq_lt sort ((h.map key).nodup_iff.mp hxs),
    slice_lt_eq_of_perm sort h hxs]

end Slice

/-! ## Insertion sort with `≤` -/

/-- The list that an insertion sort builds is in descending order, and the new element goes behind
those of its key. -/
theorem orderedInsert_ge {a : α} {xs : List α} (hxs : xs.Pairwise fun a b => key b ≤ key a) :
    (xs.orderedInsert (fun a b => decide (key a ≤ key b) = false) a).Pairwise
        (fun a b => key b ≤ key a) ∧
      ∀ k, (xs.orderedInsert (fun a b => decide (key a ≤ key b) = false) a).filter (key · = k) =
        xs.filter (key · = k) ++ [a].filter (key · = k) := by
  induction xs with
  | nil => exact ⟨List.pairwise_singleton _ _, fun k => rfl⟩
  | cons b xs ih =>
    rw [List.pairwise_cons] at hxs
    rw [List.orderedInsert_cons]
    by_cases hab : decide (key a ≤ key b) = false
    · rw [if_pos hab]
      have hlt : key b < key a := not_le.mp (of_decide_eq_false hab)
      refine ⟨List.pairwise_cons.mpr ⟨fun c hc => ?_, List.pairwise_cons.mpr hxs⟩, fun k => ?_⟩
      · rcases List.mem_cons.mp hc with rfl | hc
        · exact hlt.le
        · exact (hxs.1 c hc).trans hlt.le
      · by_cases hk : key a = k
        · -- the key of `a` is above all that follow
          have hnone : (b :: xs).filter (key · = k) = [] := by
            refine List.filter_eq_nil_iff.mpr fun c hc => ?_
            have hca : key c < key a := by
              rcases List.mem_cons.mp hc with rfl | hc
              · exact hlt
              · exact (hxs.1 c hc).trans_lt hlt
            simpa [← hk] using hca.ne
          rw [List.filter_cons, if_pos (by simpa using hk), hnone, List.filter_cons,
            if_pos (by simpa using hk)]
          rfl
        · rw [List.filter_cons, if_neg (by simpa using hk), List.filter_cons (x := a),
            if_neg (by simpa using hk), List.filter_nil, List.append_nil]
    · rw [if_neg hab]
      have hle : key a ≤ key b := of_decide_eq_true (Bool.eq_true_of_not_eq_false hab)
      obtain ⟨hsorted, hfilter⟩ := ih hxs.2
      refine ⟨List.pairwise_cons.mpr ⟨fun c hc => ?_, hsorted⟩, fun k => ?_⟩
      · rcases (List.mem_orderedInsert _).mp hc with rfl | hc
        · exact hle
        · exact hxs.1 c hc
      · rw [List.filter_cons, hfilter, List.filter_cons (x := b)]
        split <;> rfl

theorem insertionSort_ge (xs : List α) :
    (xs.insertionSort fun a b => decide (key a ≤ key b) = false).Pairwise
        (fun a b => key b ≤ key a) ∧
      ∀ k, (xs.insertionSort fun a b => decide (key a ≤ key b) = false).filter (key · = k) =
        (xs.filter (key · = k)).reverse := by
  induction xs with
  | nil => exact ⟨List.Pairwise.nil, fun k => rfl⟩
  | cons a xs ih =>
    rw [List.insertionSort_cons]
    obtain ⟨hsorted, hfilter⟩ := orderedInsert_ge (a := a) ih.1
    refine ⟨hsorted, fun k => ?_⟩
    rw [hfilter, ih.2]
    by_cases hk : key a = k
    · simp [hk]
    · simp [hk]

theorem pairwise_insertionSort_le (xs : List α) :
    (insertionSort (fun a b => key a ≤ key b) xs).Pairwise fun a b => key a ≤ key b :=
  List.pairwise_reverse.mpr (insertionSort_ge _).1

/-- **Elements of one key are turned around.** -/
theorem filter_insertionSort_le (xs : List α) (k : String) :
    (insertionSort (fun a b => key a ≤ key b) xs).filter (key · = k) =
      (xs.filter (key · = k)).reverse := by
  unfold insertionSort
  rw [List.filter_reverse, (insertionSort_ge xs.reverse).2, List.filter_reverse,
    List.reverse_reverse]

/-- Lists in the order of their keys are equal if they have the same elements for each key, in the
same order. -/
theorem eq_of_filter_eq {xs ys : List α} (hxs : xs.Pairwise fun a b => key a ≤ key b)
    (hys : ys.Pairwise fun a b => key a ≤ key b)
    (h : ∀ k, xs.filter (key · = k) = ys.filter (key · = k)) : xs = ys := by
  induction xs generalizing ys with
  | nil =>
    cases ys with
    | nil => rfl
    | cons y ys =>
      have := h (key y)
      rw [List.filter_nil, List.filter_cons, if_pos (by simp)] at this
      cases this
  | cons x xs ih =>
    cases ys with
    | nil =>
      have := h (key x)
      rw [List.filter_nil, List.filter_cons, if_pos (by simp)] at this
      cases this
    | cons y ys =>
      rw [List.pairwise_cons] at hxs hys
      have hmem : ∀ z, z ∈ x :: xs ↔ z ∈ y :: ys := by
        intro z
        have hz := congrArg (z ∈ ·) (h (key z))
        simpa only [List.mem_filter, decide_true, and_true, eq_iff_iff] using hz
      have hkey : key x = key y := by
        refine le_antisymm ?_ ?_
        · rcases List.mem_cons.mp ((hmem y).mpr List.mem_cons_self) with heq | hy
          · rw [heq]
          · exact hxs.1 y hy
        · rcases List.mem_cons.mp ((hmem x).mp List.mem_cons_self) with heq | hx
          · rw [heq]
          · exact hys.1 x hx
      have hhead : x = y ∧ xs.filter (key · = key x) = ys.filter (key · = key x) := by
        have hfilter := h (key x)
        rw [List.filter_cons, if_pos (by simp), List.filter_cons, if_pos (by simp [hkey]),
          List.cons.injEq] at hfilter
        exact hfilter
      refine List.cons_eq_cons.mpr ⟨hhead.1, ih hxs.2 hys.2 fun k => ?_⟩
      by_cases hk : key x = k
      · rw [← hk]
        exact hhead.2
      · have hfilter := h k
        rw [List.filter_cons, if_neg (by simpa using hk), List.filter_cons,
          if_neg (by simpa [← hkey] using hk)] at hfilter
        exact hfilter

/-- **When an insertion sort with `≤` leaves a list as it is.** -/
theorem insertionSort_le_eq_self_iff {xs : List α} (hxs : xs.Pairwise fun a b => key a ≤ key b) :
    insertionSort (fun a b => key a ≤ key b) xs = xs ↔
      ∀ k, (xs.filter (key · = k)).reverse = xs.filter (key · = k) := by
  constructor
  · intro h k
    rw [← filter_insertionSort_le, h]
  · intro h
    refine eq_of_filter_eq (pairwise_insertionSort_le xs) hxs fun k => ?_
    rw [filter_insertionSort_le, h k]

end Nephio.Go
