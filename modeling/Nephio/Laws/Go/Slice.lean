import Nephio.Data.Fallible
import Nephio.Go.Slice

/-!
# Laws.Go.Slice: what the removal loop leaves

The loop that shrinks the slice it ranges over is right where at most one element is to go: before
it the turns change nothing, its own turn closes the gap, and after it the array holds only elements
that stay. `removeLoop_eq_filter` is that case. With two elements to go it may skip one of them, or
panic.
-/

namespace Nephio.Go

variable {α : Type} {p : α → Bool}

/-- A turn that reads an element that stays changes nothing. -/
theorem removeTurn_keep {s : List α × Nat} {idx : Nat}
    (h : ∀ c, s.1[idx]? = some c → p c = false) : removeTurn p s idx = .ok s := by
  unfold removeTurn
  cases hc : s.1[idx]? with
  | none => rfl
  | some c => simp only [h c hc, Bool.false_eq_true, if_false]

/-- Turns that read only elements that stay change nothing. -/
theorem foldlM_removeTurn_keep {s : List α × Nat} (idxs : List Nat)
    (h : ∀ idx ∈ idxs, ∀ c, s.1[idx]? = some c → p c = false) :
    idxs.foldlM (removeTurn p) s = .ok s := by
  induction idxs with
  | nil => rfl
  | cons idx idxs ih =>
    rw [List.foldlM_cons, removeTurn_keep (h idx List.mem_cons_self)]
    exact ih fun i hi => h i (List.mem_cons_of_mem _ hi)

theorem removeLoop_of_forall_not {xs : List α} (h : ∀ x ∈ xs, p x = false) :
    removeLoop p xs = .ok xs := by
  unfold removeLoop
  rw [foldlM_removeTurn_keep]
  · exact congrArg Except.ok (List.take_length)
  · intro idx _ c hc
    exact h c (List.mem_of_getElem? hc)

/-- The turn that reads the one element to go closes the gap it leaves. -/
theorem removeTurn_remove {as bs : List α} {x : α} (hx : p x = true) :
    removeTurn p (as ++ x :: bs, (as ++ x :: bs).length) as.length =
      .ok (as ++ bs ++ (as ++ x :: bs).drop (as ++ bs).length, (as ++ bs).length) := by
  have hget : (as ++ x :: bs)[as.length]? = some x := by
    rw [List.getElem?_append_right (Nat.le_refl _), Nat.sub_self]
    rfl
  have hlen : as.length + 1 ≤ (as ++ x :: bs).length := by
    simp only [List.length_append, List.length_cons]
    omega
  have hpred : (as ++ x :: bs).length - 1 = (as ++ bs).length := by
    simp only [List.length_append, List.length_cons]
    omega
  have hdrop : (as ++ x :: bs).drop (as.length + 1) = bs := by
    rw [← List.drop_drop, List.drop_left]
    rfl
  unfold removeTurn
  simp only [hget, hx, if_true, hlen, hpred, List.take_left', List.take_length, hdrop]

/-- After that turn the array holds, from the next turn on, only elements that follow the removed
one: the last of them twice. -/
theorem mem_of_read_after {as bs : List α} {x c : α} {idx : Nat} (hlo : as.length + 1 ≤ idx)
    (hhi : idx < as.length + 1 + bs.length)
    (h : (as ++ bs ++ (as ++ x :: bs).drop (as ++ bs).length)[idx]? = some c) : c ∈ bs := by
  obtain ⟨b, bs', rfl⟩ : ∃ b bs', bs = b :: bs' := by
    cases bs with
    | nil => simp only [List.length_nil] at hhi; omega
    | cons b bs' => exact ⟨b, bs', rfl⟩
  have htail : (as ++ x :: b :: bs').drop (as ++ b :: bs').length = (b :: bs').drop bs'.length := by
    rw [List.length_append, ← List.drop_drop, List.drop_left, List.length_cons, List.drop_succ_cons]
  rw [htail, List.append_assoc, List.getElem?_append_right (by omega)] at h
  rcases List.mem_append.mp (List.mem_of_getElem? h) with hmem | hmem
  · exact hmem
  · exact List.mem_of_mem_drop hmem

/-- **One element at most to go.** The loop then filters. -/
theorem removeLoop_eq_filter {xs : List α} (h : (xs.filter p).length ≤ 1) :
    removeLoop p xs = .ok (xs.filter fun x => !p x) := by
  by_cases hall : ∀ x ∈ xs, p x = false
  · rw [removeLoop_of_forall_not hall, List.filter_eq_self.mpr]
    intro x hx
    rw [hall x hx]
    rfl
  · -- the first element to go splits the list, and it is the only one
    push Not at hall
    obtain ⟨y, hy, hpy⟩ := hall
    have hpy : p y = true := by simpa using hpy
    obtain ⟨as, bs, rfl⟩ := List.append_of_mem hy
    have hcount : (as.filter p).length = 0 ∧ (bs.filter p).length = 0 := by
      simp only [List.filter_append, List.filter_cons, hpy, if_true, List.length_append,
        List.length_cons] at h
      omega
    have has : ∀ x ∈ as, p x = false := by
      intro x hx
      simpa using List.filter_eq_nil_iff.mp (List.eq_nil_of_length_eq_zero hcount.1) x hx
    have hbs : ∀ x ∈ bs, p x = false := by
      intro x hx
      simpa using List.filter_eq_nil_iff.mp (List.eq_nil_of_length_eq_zero hcount.2) x hx
    have hrange : List.range (as ++ y :: bs).length =
        List.range as.length ++ as.length :: List.range' (as.length + 1) bs.length := by
      simp only [List.length_append, List.length_cons, List.range_eq_range']
      rw [← List.range'_append_1, Nat.zero_add, List.range'_succ]
    unfold removeLoop
    rw [hrange, List.foldlM_append, foldlM_removeTurn_keep]
    · change (do
        let s ← (as.length :: List.range' (as.length + 1) bs.length).foldlM (removeTurn p) _
        return s.1.take s.2) = _
      rw [List.foldlM_cons, removeTurn_remove hpy]
      change (do
        let s ← (List.range' (as.length + 1) bs.length).foldlM (removeTurn p) _
        return s.1.take s.2) = _
      rw [foldlM_removeTurn_keep]
      · change Except.ok _ = _
        rw [List.take_left', List.filter_append, List.filter_cons_of_neg (by simp [hpy]),
          List.filter_eq_self.mpr, List.filter_eq_self.mpr]
        · intro x hx
          rw [hbs x hx]
          rfl
        · intro x hx
          rw [has x hx]
          rfl
        · rfl
      · intro idx hidx c hc
        obtain ⟨hlo, hhi⟩ := List.mem_range'_1.mp hidx
        exact hbs c (mem_of_read_after hlo hhi hc)
    · intro idx hidx c hc
      rw [List.getElem?_append_left (List.mem_range.mp hidx)] at hc
      exact has c (List.mem_of_getElem? hc)

/-! ## What stays

Whatever is to go, and however the loop mistreats it, nothing else is lost. -/

/-- The state of the loop: the slice is within the array, and holds what stays. -/
structure Kept (p : α → Bool) (xs : List α) (s : List α × Nat) : Prop where
  within : s.2 ≤ s.1.length
  kept : (s.1.take s.2).filter (fun x => !p x) = xs.filter fun x => !p x

theorem Kept.removeTurn {xs : List α} {s s' : List α × Nat} (h : Kept p xs s) {idx : Nat}
    (hs : removeTurn p s idx = .ok s') : Kept p xs s' := by
  unfold Go.removeTurn at hs
  cases hc : s.1[idx]? with
  | none =>
    rw [hc] at hs
    exact Except.ok.inj hs ▸ h
  | some c =>
    simp only [hc] at hs
    split_ifs at hs with hp hidx
    · obtain ⟨hlt, hget⟩ := List.getElem?_eq_some_iff.mp hc
      have hbound := h.within
      -- the slice, split at the element that goes
      have hlt' : idx < (s.1.take s.2).length := by
        rw [List.length_take]
        omega
      have hget' : (s.1.take s.2)[idx] = c := by
        rw [List.getElem_take]
        exact hget
      have htake : (s.1.take s.2).take idx = s.1.take idx := by
        rw [List.take_take, Nat.min_eq_left (by omega)]
      have hsplit : s.1.take s.2 = s.1.take idx ++ c :: (s.1.take s.2).drop (idx + 1) :=
        calc s.1.take s.2
            = (s.1.take s.2).take idx ++ (s.1.take s.2).drop idx := (List.take_append_drop _ _).symm
          _ = s.1.take idx ++ c :: (s.1.take s.2).drop (idx + 1) := by
            rw [htake, List.drop_eq_getElem_cons hlt', hget']
      have hfilter := congrArg (List.filter fun x => !p x) hsplit
      rw [List.filter_append, List.filter_cons_of_neg (by simp [hp]), ← List.filter_append] at hfilter
      have hlen : (s.1.take idx ++ (s.1.take s.2).drop (idx + 1)).length = s.2 - 1 := by
        simp only [List.length_append, List.length_take, List.length_drop]
        omega
      rw [← Except.ok.inj hs]
      refine ⟨?_, ?_⟩
      · simp only [List.length_append, List.length_take, List.length_drop]
        omega
      · rw [← h.kept, hfilter, List.take_left' hlen]
    · exact Except.ok.inj hs ▸ h

/-- **The removal loop loses nothing that stays.** -/
theorem filter_removeLoop {xs ys : List α} (h : removeLoop p xs = .ok ys) :
    ys.filter (fun x => !p x) = xs.filter fun x => !p x := by
  unfold removeLoop at h
  obtain ⟨s, hs, hys⟩ := Fallible.bind_eq_ok.mp h
  have hkept : Kept p xs s :=
    Fallible.foldlM_invariant (Kept p xs) (fun s s' idx _ hk hstep => hk.removeTurn hstep)
      ⟨Nat.le_refl _, by rw [List.take_length]⟩ hs
  rw [← Except.ok.inj hys]
  exact hkept.kept

end Nephio.Go
