import Nephio.Laws.Go.Slice

/-!
# Laws.Go.Removal: the removal loop in closed form

A turn that removes shifts the next element into the place the loop has just left, so that element
is never read: of two neighbours that are both to go, the second stays. `leaves` says that.

The tail of the array that the shrinking slice gives up holds copies of the last element, and the
loop goes on to read them. Where the last element stays, they change nothing. Where it goes and
another one has gone before it, a copy is read past the end of the slice: the loop panics.
-/

namespace Nephio.Go

variable {α : Type} {p : α → Bool}

/-- What the loop leaves where it does not panic. -/
def leaves (p : α → Bool) : List α → List α
  | [] => []
  | [x] => if p x then [] else [x]
  | x :: y :: ys => if p x then y :: leaves p ys else x :: leaves p (y :: ys)

/-- The loop in the middle of its work: the elements before the index, the rest of the slice, and
the tail of the array that the slice has given up. -/
def turnsFrom (p : α → Bool) (done rest stale : List α) : Except Panic (List α × Nat) :=
  (List.range' done.length (rest.length + stale.length)).foldlM (removeTurn p)
    (done ++ rest ++ stale, done.length + rest.length)

theorem removeLoop_eq_turnsFrom (xs : List α) :
    removeLoop p xs = do
      let s ← turnsFrom p [] xs []
      return s.1.take s.2 := by
  simp only [removeLoop, turnsFrom, List.range_eq_range', List.length_nil, List.nil_append,
    List.append_nil, Nat.zero_add, Nat.add_zero]

/-! ## One turn -/

theorem turnsFrom_cons_keep {done rest stale : List α} {x : α} (hx : p x = false) :
    turnsFrom p done (x :: rest) stale = turnsFrom p (done ++ [x]) rest stale := by
  have hlen : (x :: rest).length + stale.length = rest.length + stale.length + 1 := by
    simp only [List.length_cons]
    omega
  unfold turnsFrom
  rw [hlen, List.range'_succ, List.foldlM_cons, removeTurn_keep]
  · simp only [List.length_append, List.length_cons, List.length_nil, List.append_assoc,
      List.cons_append, List.nil_append, Nat.zero_add]
    rw [Nat.add_right_comm, Nat.add_assoc]
    rfl
  · intro c hc
    rw [List.append_assoc, List.getElem?_append_right (Nat.le_refl _), Nat.sub_self] at hc
    rw [← Option.some.inj hc]
    exact hx

/-- The turn that removes `x` moves `y` to where the loop has been, and leaves behind a copy of the
last element. -/
theorem turnsFrom_cons_remove {done ys stale : List α} {x y : α} (hx : p x = true) :
    turnsFrom p done (x :: y :: ys) stale =
      turnsFrom p (done ++ [y]) ys ((y :: ys).getLast (List.cons_ne_nil _ _) :: stale) := by
  have hlen : (x :: y :: ys).length + stale.length =
      ys.length + ((y :: ys).getLast (List.cons_ne_nil _ _) :: stale).length + 1 := by
    simp only [List.length_cons]
    omega
  have hget : (done ++ x :: y :: ys ++ stale)[done.length]? = some x := by
    rw [List.append_assoc, List.getElem?_append_right (Nat.le_refl _), Nat.sub_self]
    rfl
  have hslice : (done ++ x :: y :: ys ++ stale).take (done.length + (x :: y :: ys).length) =
      done ++ x :: y :: ys := by
    rw [← List.length_append, List.take_left]
  have htail : (done ++ x :: y :: ys ++ stale).drop (done.length + (x :: y :: ys).length - 1) =
      (y :: ys).getLast (List.cons_ne_nil _ _) :: stale := by
    have hsplit : done ++ x :: y :: ys ++ stale =
        (done ++ x :: (y :: ys).dropLast) ++
          ((y :: ys).getLast (List.cons_ne_nil _ _) :: stale) := by
      conv_lhs => rw [← List.dropLast_append_getLast (List.cons_ne_nil y ys)]
      simp only [List.append_assoc, List.cons_append, List.nil_append]
    rw [hsplit, List.drop_left']
    simp only [List.length_append, List.length_cons, List.length_dropLast]
    omega
  have hturn : removeTurn p
      (done ++ x :: y :: ys ++ stale, done.length + (x :: y :: ys).length) done.length =
        .ok (done ++ [y] ++ ys ++ ((y :: ys).getLast (List.cons_ne_nil _ _) :: stale),
          (done ++ [y]).length + ys.length) := by
    have hbound : done.length + 1 ≤ done.length + (x :: y :: ys).length := by
      simp only [List.length_cons]
      omega
    have hrest : (done ++ x :: y :: ys).drop (done.length + 1) = y :: ys := by
      rw [← List.drop_drop, List.drop_left]
      rfl
    have hdone : (done ++ x :: y :: ys ++ stale).take done.length = done := by
      rw [List.append_assoc, List.take_left]
    unfold removeTurn
    simp only [hget, hx, if_true]
    rw [if_pos hbound, hdone, hslice, hrest, htail]
    simp only [List.append_assoc, List.cons_append, List.nil_append, List.length_append,
      List.length_cons, List.length_nil]
    congr 2
    omega
  unfold turnsFrom
  rw [hlen, List.range'_succ, List.foldlM_cons, hturn]
  simp only [List.length_append, List.length_cons, List.length_nil, Nat.zero_add]
  rfl

/-- Past the end of the slice, elements that stay change nothing. -/
theorem turnsFrom_nil_keep {done stale : List α} (hstale : ∀ z ∈ stale, p z = false) :
    turnsFrom p done [] stale = .ok (done ++ [] ++ stale, done.length) := by
  refine foldlM_removeTurn_keep _ ?_
  intro idx hidx c hc
  rw [List.append_nil, List.getElem?_append_right (List.mem_range'_1.mp hidx).1] at hc
  exact hstale c (List.mem_of_getElem? hc)

/-- There, the turn for an element to go is a panic. -/
theorem removeTurn_panic {before after : List α} {z : α} {n : Nat} (hz : p z = true)
    (hn : n ≤ before.length) :
    removeTurn p (before ++ z :: after, n) before.length = .error .sliceBounds := by
  have hget : (before ++ z :: after)[before.length]? = some z := by
    rw [List.getElem?_append_right (Nat.le_refl _), Nat.sub_self]
    rfl
  unfold removeTurn
  simp only [hget, hz, if_true]
  rw [if_neg (by omega)]

theorem turnsFrom_nil_panic {done stale : List α} {z : α} (hz : p z = true) :
    turnsFrom p done [] (z :: stale) = .error .sliceBounds := by
  unfold turnsFrom
  rw [List.length_nil, Nat.zero_add, List.length_cons, List.range'_succ, List.foldlM_cons,
    List.append_nil, Nat.add_zero, removeTurn_panic hz (Nat.le_refl _)]
  rfl

/-- The slice's own last element goes, with a copy of it after it: the next turn reads the copy. -/
theorem turnsFrom_singleton_panic {done stale : List α} {x z : α} (hx : p x = true)
    (hz : p z = true) : turnsFrom p done [x] (z :: stale) = .error .sliceBounds := by
  have hturn : removeTurn p (done ++ [x] ++ z :: stale, done.length + 1) done.length =
      .ok ((done ++ [x]) ++ z :: stale, done.length) := by
    have hget : (done ++ [x] ++ z :: stale)[done.length]? = some x := by
      rw [List.append_assoc, List.getElem?_append_right (Nat.le_refl _), Nat.sub_self]
      rfl
    have hdone : (done ++ [x] ++ z :: stale).take done.length = done := by
      rw [List.append_assoc, List.take_left]
    have hslice : ((done ++ [x] ++ z :: stale).take (done.length + 1)).drop (done.length + 1) =
        [] := by
      rw [List.drop_take, Nat.sub_self, List.take_zero]
    have htail : (done ++ [x] ++ z :: stale).drop (done.length + 1 - 1) = x :: z :: stale := by
      rw [Nat.add_sub_cancel, List.append_assoc, List.drop_left]
      rfl
    unfold removeTurn
    simp only [hget, hx, if_true, Nat.le_refl]
    rw [hdone, hslice, htail]
    simp only [List.append_assoc, List.append_nil, List.cons_append, List.nil_append,
      Nat.add_sub_cancel]
  have hnext : removeTurn p ((done ++ [x]) ++ z :: stale, done.length) (done ++ [x]).length =
      .error .sliceBounds :=
    removeTurn_panic hz (by rw [List.length_append]; exact Nat.le_add_right _ _)
  have hlen : [x].length + (z :: stale).length = stale.length + 1 + 1 := by
    simp only [List.length_cons, List.length_nil]
    omega
  unfold turnsFrom
  rw [hlen, List.range'_succ, List.foldlM_cons, List.length_singleton, hturn]
  change (List.range' (done.length + 1) (stale.length + 1)).foldlM (removeTurn p) _ = _
  rw [List.range'_succ, List.foldlM_cons, show done.length + 1 = (done ++ [x]).length by
    rw [List.length_append, List.length_singleton], hnext]
  rfl

/-! ## The whole loop -/

theorem forall_getLast?_cons {q : α → Prop} {x : α} {ys : List α}
    (h : ∀ z ∈ (x :: ys).getLast?, q z) : ∀ z ∈ ys.getLast?, q z := by
  intro z hz
  apply h
  cases ys with
  | nil => cases hz
  | cons y ys =>
    rw [List.getLast?_cons_cons]
    exact hz

/-- The last element stays: so do the copies of it, and the loop ends with `leaves`. -/
theorem turnsFrom_of_last_stays {rest : List α} (done stale : List α)
    (hlast : ∀ z ∈ rest.getLast?, p z = false) (hstale : ∀ z ∈ stale, p z = false) :
    ∃ s, turnsFrom p done rest stale = .ok s ∧ s.1.take s.2 = done ++ leaves p rest := by
  fun_induction leaves p rest generalizing done stale with
  | case1 =>
    refine ⟨_, turnsFrom_nil_keep hstale, ?_⟩
    rw [List.append_nil, List.take_left]
  | case2 x hx => exact absurd hx (by rw [hlast x rfl]; exact Bool.false_ne_true)
  | case3 x hx =>
    rw [turnsFrom_cons_keep (by simpa using hx)]
    refine ⟨_, turnsFrom_nil_keep hstale, ?_⟩
    rw [List.append_nil, List.take_left]
  | case4 x y ys hx ih =>
    have hlast := forall_getLast?_cons hlast
    rw [turnsFrom_cons_remove hx]
    obtain ⟨s, hs, htake⟩ := ih (done ++ [y])
      ((y :: ys).getLast (List.cons_ne_nil _ _) :: stale) (forall_getLast?_cons hlast) (by
        intro z hz
        rcases List.mem_cons.mp hz with rfl | hz
        · exact hlast _ (List.getLast?_eq_some_getLast _)
        · exact hstale z hz)
    exact ⟨s, hs, by rw [htake, List.append_assoc]; rfl⟩
  | case5 x y ys hx ih =>
    rw [turnsFrom_cons_keep (by simpa using hx)]
    obtain ⟨s, hs, htake⟩ := ih (done ++ [x]) stale (forall_getLast?_cons hlast) hstale
    exact ⟨s, hs, by rw [htake, List.append_assoc]; rfl⟩

/-- A copy of the last element has been left behind, and the last element goes: a copy is read past
the end of the slice. -/
theorem turnsFrom_of_stale_goes {rest : List α} (done : List α) (z : α) (stale : List α)
    (hlast : ∀ w ∈ rest.getLast?, p w = true) (hz : p z = true) :
    turnsFrom p done rest (z :: stale) = .error .sliceBounds := by
  fun_induction leaves p rest generalizing done z stale with
  | case1 => exact turnsFrom_nil_panic hz
  | case2 x hx => exact turnsFrom_singleton_panic hx hz
  | case3 x hx => exact absurd (hlast x rfl) hx
  | case4 x y ys hx ih =>
    have hlast := forall_getLast?_cons hlast
    rw [turnsFrom_cons_remove hx]
    exact ih _ _ _ (forall_getLast?_cons hlast) (hlast _ (List.getLast?_eq_some_getLast _))
  | case5 x y ys hx ih =>
    rw [turnsFrom_cons_keep (by simpa using hx)]
    exact ih _ _ _ (forall_getLast?_cons hlast) hz

/-- The last element goes, and another one before it. -/
theorem turnsFrom_of_two_go {rest : List α} (done : List α)
    (hlast : ∀ w ∈ rest.getLast?, p w = true) (htwo : 2 ≤ (rest.filter p).length) :
    turnsFrom p done rest [] = .error .sliceBounds := by
  induction rest generalizing done with
  | nil => simp only [List.filter_nil, List.length_nil] at htwo; omega
  | cons x rest ih =>
    cases hx : p x with
    | false =>
      rw [turnsFrom_cons_keep hx]
      rw [List.filter_cons, hx] at htwo
      exact ih _ (forall_getLast?_cons hlast) htwo
    | true =>
      cases rest with
      | nil =>
        have := List.length_filter_le p [x]
        simp only [List.length_singleton] at this
        omega
      | cons y ys =>
        have hlast := forall_getLast?_cons hlast
        rw [turnsFrom_cons_remove hx]
        exact turnsFrom_of_stale_goes _ _ _ (forall_getLast?_cons hlast)
          (hlast _ (List.getLast?_eq_some_getLast _))

/-! ## When the loop is right -/

/-- At most one element goes; or no two neighbours go and the last element stays. -/
def Scattered (p : α → Bool) (xs : List α) : Prop :=
  (xs.filter p).length ≤ 1 ∨
    xs.IsChain (fun x y => ¬ (p x ∧ p y)) ∧ ∀ z ∈ xs.getLast?, p z = false

instance (p : α → Bool) (xs : List α) : Decidable (Scattered p xs) := by
  unfold Scattered
  infer_instance

/-- The element that a removal moves back stays, whatever it is. -/
theorem leaves_eq_filter_iff {xs : List α} :
    leaves p xs = xs.filter (fun x => !p x) ↔ xs.IsChain fun x y => ¬ (p x ∧ p y) := by
  fun_induction leaves p xs with
  | case1 => simp
  | case2 x hx => simp [hx]
  | case3 x hx => simp [hx]
  | case4 x y ys hx ih =>
    rw [List.isChain_cons_cons, List.filter_cons, if_neg (by rw [hx]; decide)]
    cases hy : p y with
    | true =>
      refine ⟨fun h => ?_, fun h => absurd ⟨hx, rfl⟩ h.1⟩
      have hmem : y ∈ (y :: ys).filter fun x => !p x := h ▸ List.mem_cons_self
      have := (List.mem_filter.mp hmem).2
      rw [hy] at this
      cases this
    | false =>
      rw [List.filter_cons, if_pos (by rw [hy]; rfl), List.cons.injEq]
      cases ys with
      | nil => simp [leaves]
      | cons w ws =>
        rw [List.isChain_cons_cons, hy]
        simpa using ih
  | case5 x y ys hx ih =>
    rw [List.isChain_cons_cons, List.filter_cons, if_pos (by simpa using hx), List.cons.injEq, ih]
    simp [hx]

/-- **When the loop removes what it is to remove.** -/
theorem removeLoop_eq_filter_iff {xs : List α} :
    removeLoop p xs = .ok (xs.filter fun x => !p x) ↔ Scattered p xs := by
  by_cases hone : (xs.filter p).length ≤ 1
  · exact ⟨fun _ => .inl hone, fun _ => removeLoop_eq_filter hone⟩
  · by_cases hlast : ∀ z ∈ xs.getLast?, p z = false
    · obtain ⟨s, hs, htake⟩ := turnsFrom_of_last_stays [] [] hlast (by simp)
      have hloop : removeLoop p xs = .ok (leaves p xs) := by
        rw [removeLoop_eq_turnsFrom, hs]
        exact congrArg Except.ok htake
      rw [hloop, Except.ok.injEq, leaves_eq_filter_iff]
      exact ⟨fun h => .inr ⟨h, hlast⟩, fun h => (h.resolve_left hone).1⟩
    · have hgoes : ∀ z ∈ xs.getLast?, p z = true := by
        intro z hz
        push Not at hlast
        obtain ⟨w, hw, hpw⟩ := hlast
        rw [Option.mem_def.mp hz] at hw
        rw [Option.some.inj hw]
        simpa using hpw
      rw [removeLoop_eq_turnsFrom, turnsFrom_of_two_go [] hgoes (by omega)]
      exact ⟨fun h => (by cases h), fun h => absurd (h.resolve_left hone).2 hlast⟩

end Nephio.Go
