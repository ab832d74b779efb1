import Nephio.Data.Loops

/-!
# What depends on the order of arrival

A loop over elements that arrive in any order. What is kept may be everything, in the order of
arrival (`flatMap_arrival_iff`), or only what arrived last (`getLast?_arrival_iff`): either is the
same for every order exactly when there is no choice, that is, when all that could be kept is equal.
Or of each key only the first element is kept (`firsts`).
-/

namespace Nephio.Loops

variable {α β : Type}

theorem flatMap_filter_eq (p : α → Bool) (f : α → List β) (l : List α) :
    (l.filter p).flatMap f = l.flatMap fun x => if p x then f x else [] := by
  induction l with
  | nil => rfl
  | cons x l ih =>
    rw [List.filter_cons, List.flatMap_cons, ← ih]
    split_ifs
    · exact List.flatMap_cons
    · rfl

/-- Any element may come first, with the others in their order. -/
theorem exists_perm_cons {x : α} {l : List α} (h : x ∈ l) :
    ∃ l', (x :: l').Perm l ∧ ∀ p : α → Bool, p x = false → (x :: l').filter p = l.filter p := by
  obtain ⟨s, t, rfl⟩ := List.append_of_mem h
  refine ⟨s ++ t, List.perm_middle.symm, fun p hp => ?_⟩
  have hx : ¬ p x = true := Bool.not_eq_true _ ▸ hp
  rw [List.filter_cons_of_neg hx, List.filter_append, List.filter_append, List.filter_cons_of_neg hx]

/-- Any element may come last, with the others in their order. -/
theorem exists_perm_concat {x : α} {l : List α} (h : x ∈ l) :
    ∃ l', (l' ++ [x]).Perm l ∧ ∀ p : α → Bool, p x = false → (l' ++ [x]).filter p = l.filter p := by
  obtain ⟨l', hl', hfilter⟩ := exists_perm_cons h
  refine ⟨l', (List.perm_append_singleton x l').trans hl', fun p hp => ?_⟩
  have hx : ¬ p x = true := Bool.not_eq_true _ ▸ hp
  rw [← hfilter p hp, List.filter_append, List.filter_cons_of_neg hx, List.filter_cons_of_neg hx,
    List.filter_nil, List.append_nil]

/-- Where all elements are equal there is one order. -/
theorem eq_of_perm_of_forall_eq {l l' : List α} (h : l'.Perm l) (heq : ∀ a ∈ l, ∀ b ∈ l, a = b) :
    l' = l := by
  cases l with
  | nil => exact h.eq_nil
  | cons a l =>
    have hl : a :: l = List.replicate (a :: l).length a :=
      List.eq_replicate_iff.mpr ⟨rfl, fun b hb => heq b hb a List.mem_cons_self⟩
    rw [hl] at h ⊢
    exact List.perm_replicate.mp h

/-- A default does not hide what arrived last. -/
theorem getLast?_or_eq_iff {l l' : List α} (h : l'.Perm l) (d : Option α) :
    l'.getLast?.or d = l.getLast?.or d ↔ l'.getLast? = l.getLast? := by
  cases hl : l.getLast? with
  | none =>
    rw [List.getLast?_eq_none_iff.mp hl] at h
    rw [h.eq_nil, List.getLast?_nil]
    exact iff_of_true rfl rfl
  | some a =>
    cases hl' : l'.getLast? with
    | none =>
      rw [List.getLast?_eq_none_iff.mp hl'] at h
      rw [← h.nil_eq, List.getLast?_nil] at hl
      cases hl
    | some b => rw [Option.some_or, Option.some_or]

section Arrival

variable {f : α → List β} {l : List α} (hf : ∀ x ∈ l, (f x).length ≤ 1)
include hf

theorem eq_singleton_of_mem {x : α} (hx : x ∈ l) {b : β} (hb : b ∈ f x) : f x = [b] := by
  match hfx : f x, hf x hx with
  | [], _ =>
    rw [hfx] at hb
    exact absurd hb List.not_mem_nil
  | [c], _ =>
    rw [hfx] at hb
    rw [List.mem_singleton.mp hb]

/-- Everything is kept, in the order of arrival. -/
theorem flatMap_arrival_iff :
    (∀ l' : List α, l'.Perm l → l'.flatMap f = l.flatMap f) ↔
      ∀ a ∈ l.flatMap f, ∀ b ∈ l.flatMap f, a = b := by
  constructor
  · intro h
    have hhead : ∀ a ∈ l.flatMap f, (l.flatMap f).head? = some a := by
      intro a ha
      obtain ⟨x, hx, hax⟩ := List.mem_flatMap.mp ha
      obtain ⟨l', hl', -⟩ := exists_perm_cons hx
      rw [← h _ hl', List.flatMap_cons, eq_singleton_of_mem hf hx hax]
      rfl
    intro a ha b hb
    exact Option.some.inj ((hhead a ha).symm.trans (hhead b hb))
  · intro h l' hl'
    exact eq_of_perm_of_forall_eq (hl'.flatMap_right f) h

/-- Only what arrived last is kept. -/
theorem getLast?_arrival_iff :
    (∀ l' : List α, l'.Perm l → (l'.flatMap f).getLast? = (l.flatMap f).getLast?) ↔
      ∀ a ∈ l.flatMap f, ∀ b ∈ l.flatMap f, a = b := by
  constructor
  · intro h
    have hlast : ∀ a ∈ l.flatMap f, (l.flatMap f).getLast? = some a := by
      intro a ha
      obtain ⟨x, hx, hax⟩ := List.mem_flatMap.mp ha
      obtain ⟨l', hl', -⟩ := exists_perm_concat hx
      rw [← h _ hl', List.flatMap_append, List.flatMap_singleton, eq_singleton_of_mem hf hx hax]
      exact List.getLast?_concat
    intro a ha b hb
    exact Option.some.inj ((hlast a ha).symm.trans (hlast b hb))
  · intro h l' hl'
    rw [eq_of_perm_of_forall_eq (hl'.flatMap_right f) h]

end Arrival

/-! ## The first of each key -/

section Firsts

variable {κ : Type} [DecidableEq κ] (key : α → κ)

/-- An element is appended unless its key is there. -/
def addFirst (acc : List α) (x : α) : List α :=
  if acc.any fun y => key y = key x then acc else acc ++ [x]

/-- The first of each key. -/
def firsts (l : List α) : List α := l.foldl (addFirst key) []

variable {key}

theorem mem_addFirst_iff {acc : List α} {x y : α} :
    y ∈ addFirst key acc x ↔ y ∈ acc ∨ ((∀ z ∈ acc, key z ≠ key x) ∧ y = x) := by
  unfold addFirst
  split_ifs with h
  · obtain ⟨z, hz, hkey⟩ := List.any_eq_true.mp h
    refine (or_iff_left fun hne => ?_).symm
    exact hne.1 z hz (of_decide_eq_true hkey)
  · rw [List.mem_append, List.mem_singleton, and_iff_right]
    intro z hz hkey
    exact h (List.any_eq_true.mpr ⟨z, hz, decide_eq_true hkey⟩)

theorem nodup_addFirst {acc : List α} (h : (acc.map key).Nodup) (x : α) :
    ((addFirst key acc x).map key).Nodup := by
  unfold addFirst
  split_ifs with hany
  · exact h
  · rw [List.map_append, List.nodup_append]
    refine ⟨h, List.nodup_singleton _, fun k hk k' hk' heq => hany ?_⟩
    obtain ⟨z, hz, rfl⟩ := List.mem_map.mp hk
    exact List.any_eq_true.mpr ⟨z, hz, decide_eq_true (heq.trans (List.mem_singleton.mp hk'))⟩

theorem mem_foldl_addFirst_iff {l acc : List α} {x : α} :
    x ∈ l.foldl (addFirst key) acc ↔
      x ∈ acc ∨ ((∀ z ∈ acc, key z ≠ key x) ∧ l.find? (fun y => key y = key x) = some x) := by
  induction l generalizing acc with
  | nil =>
    rw [List.find?_nil]
    exact (or_iff_left fun h => by cases h.2).symm
  | cons y l ih =>
    rw [List.foldl_cons, ih, mem_addFirst_iff, List.find?_cons]
    by_cases hkey : key y = key x
    · simp only [hkey, decide_true, mem_addFirst_iff]
      constructor
      · rintro ((hx | ⟨hacc, rfl⟩) | ⟨hne, -⟩)
        · exact .inl hx
        · exact .inr ⟨hacc, rfl⟩
        · refine absurd hkey (hne y (.inr ⟨fun z hz => ?_, rfl⟩))
          exact hne z (.inl hz)
      · rintro (hx | ⟨hacc, hx⟩)
        · exact .inl (.inl hx)
        · exact .inl (.inr ⟨hacc, (Option.some.inj hx).symm⟩)
    · simp only [hkey, decide_false, mem_addFirst_iff]
      constructor
      · rintro ((hx | ⟨-, rfl⟩) | ⟨hne, hx⟩)
        · exact .inl hx
        · exact absurd rfl hkey
        · exact .inr ⟨fun z hz => hne z (.inl hz), hx⟩
      · rintro (hx | ⟨hacc, hx⟩)
        · exact .inl (.inl hx)
        · refine .inr ⟨?_, hx⟩
          rintro z (hz | ⟨-, rfl⟩)
          · exact hacc z hz
          · exact hkey

theorem mem_firsts_iff {l : List α} {x : α} :
    x ∈ firsts key l ↔ l.find? (fun y => key y = key x) = some x := by
  rw [firsts, mem_foldl_addFirst_iff]
  simp

theorem nodup_firsts (l : List α) : ((firsts key l).map key).Nodup := by
  have hrun : ∀ acc : List α, (acc.map key).Nodup → ((l.foldl (addFirst key) acc).map key).Nodup := by
    induction l with
    | nil => exact fun acc h => h
    | cons x l ih => exact fun acc h => ih _ (nodup_addFirst h x)
  exact hrun [] List.nodup_nil

theorem mem_of_mem_firsts {l : List α} {x : α} (h : x ∈ firsts key l) : x ∈ l :=
  List.mem_of_find?_eq_some (mem_firsts_iff.mp h)

theorem mem_map_firsts_iff {l : List α} {k : κ} :
    k ∈ (firsts key l).map key ↔ ∃ x ∈ l, key x = k := by
  constructor
  · intro h
    obtain ⟨x, hx, rfl⟩ := List.mem_map.mp h
    exact ⟨x, mem_of_mem_firsts hx, rfl⟩
  · rintro ⟨x, hx, rfl⟩
    have hsome : (l.find? fun y => key y = key x).isSome :=
      List.find?_isSome.mpr ⟨x, hx, decide_eq_true rfl⟩
    obtain ⟨y, hy⟩ := Option.isSome_iff_exists.mp hsome
    have hkey : key y = key x := by simpa using List.find?_some hy
    refine List.mem_map.mpr ⟨y, mem_firsts_iff.mpr ?_, hkey⟩
    rw [hkey]
    exact hy

/-- Where elements of one key are equal, the order of arrival does not matter. -/
theorem perm_firsts {l l' : List α} (heq : ∀ x ∈ l, ∀ y ∈ l, key x = key y → x = y)
    (hmem : ∀ x, x ∈ l' ↔ x ∈ l) : (firsts key l').Perm (firsts key l) := by
  have hfirsts : ∀ {l : List α}, (∀ x ∈ l, ∀ y ∈ l, key x = key y → x = y) →
      ∀ x, x ∈ firsts key l ↔ x ∈ l := by
    intro l heq x
    refine ⟨mem_of_mem_firsts, fun hx => ?_⟩
    obtain ⟨y, hy, hkey⟩ := List.mem_map.mp
      (mem_map_firsts_iff.mpr ⟨x, hx, (rfl : key x = key x)⟩)
    rw [heq x hx y (mem_of_mem_firsts hy) hkey.symm]
    exact hy
  have heq' : ∀ x ∈ l', ∀ y ∈ l', key x = key y → x = y := fun x hx y hy =>
    heq x ((hmem x).mp hx) y ((hmem y).mp hy)
  refine (List.perm_ext_iff_of_nodup (nodup_firsts l').of_map (nodup_firsts l).of_map).mpr ?_
  intro x
  rw [hfirsts heq', hfirsts heq, hmem]

theorem foldl_addFirst_of_forall {acc l : List α} (h : ∀ x ∈ l, ∃ y ∈ acc, key y = key x) :
    l.foldl (addFirst key) acc = acc := by
  induction l with
  | nil => rfl
  | cons x l ih =>
    obtain ⟨y, hy, hkey⟩ := h x List.mem_cons_self
    have hadd : addFirst key acc x = acc :=
      if_pos (List.any_eq_true.mpr ⟨y, hy, decide_eq_true hkey⟩)
    rw [List.foldl_cons, hadd]
    exact ih fun z hz => h z (List.mem_cons_of_mem _ hz)

theorem foldl_addFirst_of_nodup {acc l : List α} (h : ((acc ++ l).map key).Nodup) :
    l.foldl (addFirst key) acc = acc ++ l := by
  induction l generalizing acc with
  | nil => exact (List.append_nil acc).symm
  | cons x l ih =>
    have hnew : ¬ (acc.any fun y => decide (key y = key x)) = true := by
      rw [List.any_eq_true]
      rintro ⟨y, hy, hkey⟩
      rw [List.map_append, List.nodup_append] at h
      exact h.2.2 (key y) (List.mem_map_of_mem hy) (key x) List.mem_cons_self
        (of_decide_eq_true hkey)
    have hadd : addFirst key acc x = acc ++ [x] := if_neg hnew
    rw [List.foldl_cons, hadd, ih (by rwa [List.append_assoc]), List.append_assoc]
    rfl

theorem firsts_eq_self_iff {l : List α} : firsts key l = l ↔ (l.map key).Nodup := by
  refine ⟨fun h => ?_, fun h => foldl_addFirst_of_nodup h⟩
  rw [← h]
  exact nodup_firsts l

theorem addFirst_of_mem [DecidableEq α] {acc : List α} {x : α} (h : x ∈ acc) :
    addFirst id acc x = acc := if_pos (List.any_eq_true.mpr ⟨x, h, decide_eq_true rfl⟩)

theorem addFirst_of_notMem [DecidableEq α] {acc : List α} {x : α} (h : x ∉ acc) :
    addFirst id acc x = acc ++ [x] := by
  refine if_neg fun hany => ?_
  obtain ⟨y, hy, heq⟩ := List.any_eq_true.mp hany
  have hsame : y = x := of_decide_eq_true heq
  exact h (hsame ▸ hy)

theorem mem_firsts_id_iff [DecidableEq α] {l : List α} {x : α} : x ∈ firsts id l ↔ x ∈ l := by
  refine ⟨mem_of_mem_firsts, fun h => ?_⟩
  have hmem := (@mem_map_firsts_iff _ _ _ id l x).mpr ⟨x, h, rfl⟩
  rwa [List.map_id] at hmem

end Firsts

end Nephio.Loops
