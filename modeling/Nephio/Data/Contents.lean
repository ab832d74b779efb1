import Nephio.Data.Keyed

/-!
# Data.Contents: what a list holds, whatever its order

Lists that hold the same at every key are permutations of each other (`perm_of_lookup`,
`perm_of_filter_key`), and writing what a list holds does not change it (`upsertAll_of_lookup`).
-/

namespace Nephio.Keyed

variable {α κ : Type} [DecidableEq κ] {key : α → κ}

/-- Writing what is there changes nothing. -/
theorem upsertAll_of_lookup {xs l : List α} (h : ∀ x ∈ xs, lookup key (key x) l = some x) :
    upsertAll key xs l = l := by
  induction xs with
  | nil => rfl
  | cons x xs ih =>
    show upsertAll key xs (upsert key x l) = l
    rw [upsert_of_lookup key (h x List.mem_cons_self)]
    exact ih fun y hy => h y (List.mem_cons_of_mem _ hy)

/-- A key is looked up among the elements that can have it. -/
theorem lookup_filter {p : α → Bool} {k : κ} {l : List α} (hp : ∀ x ∈ l, key x = k → p x = true) :
    lookup key k (l.filter p) = lookup key k l := by
  induction l with
  | nil => rfl
  | cons x l ih =>
    have ih := ih fun y hy => hp y (List.mem_cons_of_mem _ hy)
    rw [List.filter_cons, lookup_cons]
    split_ifs with hpx hkey hkey
    · rw [lookup_cons, if_pos hkey]
    · rw [lookup_cons, if_neg hkey, ih]
    · exact absurd (hp x List.mem_cons_self hkey) hpx
    · exact ih

/-- Two lists with distinct keys that hold the same at every key. -/
theorem perm_of_lookup {l l' : List α} (hnd : (keys key l).Nodup) (hnd' : (keys key l').Nodup)
    (h : ∀ k, lookup key k l = lookup key k l') : l.Perm l' := by
  refine (List.perm_ext_iff_of_nodup (List.Nodup.of_map _ hnd) (List.Nodup.of_map _ hnd')).mpr ?_
  intro x
  have hmem := fun l (hnd : (keys key l).Nodup) => lookup_eq_some_iff key hnd (k := key x) (x := x)
  rw [← and_iff_left (a := x ∈ l) (rfl : key x = key x), ← hmem l hnd, h, hmem l' hnd',
    and_iff_left rfl]

variable (key) in
/-- Two lists whose elements of every key are permutations of each other. -/
theorem perm_of_filter_key [DecidableEq α] {l l' : List α}
    (h : ∀ k, (l.filter fun x => key x = k).Perm (l'.filter fun x => key x = k)) : l.Perm l' := by
  refine List.perm_iff_count.mpr fun x => ?_
  have hcount : ∀ l : List α, (l.filter fun y => key y = key x).count x = l.count x := fun l =>
    List.count_filter (p := fun y => key y = key x) (decide_eq_true rfl)
  rw [← hcount l, (h (key x)).count_eq x, hcount l']

omit [DecidableEq κ] in
/-- The keys of optional elements are among the keys there can be, in their order. -/
theorem keys_flatMap_toList {β : Type} {f : β → Option α} {g : β → κ}
    (h : ∀ x y, f x = some y → key y = g x) (l : List β) :
    (keys key (l.flatMap fun x => (f x).toList)).Sublist (l.map g) := by
  induction l with
  | nil => exact List.Sublist.slnil
  | cons x l ih =>
    rw [List.flatMap_cons, keys, List.map_append, List.map_cons]
    cases hx : f x with
    | none => exact ih.cons _
    | some y =>
      rw [Option.toList_some, List.map_singleton, List.singleton_append, h x y hx]
      exact ih.cons_cons _

end Nephio.Keyed
