import Nephio.Data.Alter
import Nephio.Data.Arrival

/-!
# The latest of a list

A loop that keeps an element as long as none of a higher rank comes, so that of the elements of the
highest rank it keeps the first (`latest`), and a map that it keeps for each key
(`value_applyAll_keep`).
-/

namespace Nephio.Loops

variable {α β : Type} [LinearOrder β] (rank : α → β)

/-- A turn of the loop. -/
def keepLatest (held : Option α) (x : α) : Option α :=
  match held with
  | none => some x
  | some y => if rank y < rank x then some x else some y

/-- The element that is kept. -/
def latest (l : List α) : Option α := l.foldl (keepLatest rank) none

/-- No element of the list has a higher rank. -/
def Greatest (l : List α) (x : α) : Prop := x ∈ l ∧ ∀ y ∈ l, rank y ≤ rank x

variable {rank}

theorem foldl_keepLatest_some (l : List α) (y : α) :
    ∃ x, l.foldl (keepLatest rank) (some y) = some x ∧ Greatest rank (y :: l) x ∧
      ((∀ z ∈ l, rank z ≤ rank y) → x = y) := by
  induction l generalizing y with
  | nil =>
    refine ⟨y, rfl, ⟨List.mem_cons_self, fun z hz => ?_⟩, fun _ => rfl⟩
    rw [List.mem_singleton.mp hz]
  | cons z l ih =>
    by_cases hlt : rank y < rank z
    · obtain ⟨x, hx, hgreatest, -⟩ := ih z
      refine ⟨x, ?_, ⟨List.mem_cons_of_mem _ hgreatest.1, fun w hw => ?_⟩, fun hall => ?_⟩
      · rw [List.foldl_cons, keepLatest, if_pos hlt]
        exact hx
      · rcases List.mem_cons.mp hw with rfl | hw
        · exact hlt.le.trans (hgreatest.2 z List.mem_cons_self)
        · exact hgreatest.2 w hw
      · exact absurd (hall z List.mem_cons_self) (not_le.mpr hlt)
    · obtain ⟨x, hx, hgreatest, hfirst⟩ := ih y
      have hle : rank z ≤ rank y := not_lt.mp hlt
      refine ⟨x, ?_, ⟨?_, fun w hw => ?_⟩, fun hall => ?_⟩
      · rw [List.foldl_cons, keepLatest, if_neg hlt]
        exact hx
      · rcases List.mem_cons.mp hgreatest.1 with rfl | hmem
        · exact List.mem_cons_self
        · exact List.mem_cons_of_mem _ (List.mem_cons_of_mem _ hmem)
      · rcases List.mem_cons.mp hw with rfl | hw
        · exact hgreatest.2 w List.mem_cons_self
        · rcases List.mem_cons.mp hw with rfl | hw
          · exact hle.trans (hgreatest.2 y List.mem_cons_self)
          · exact hgreatest.2 w (List.mem_cons_of_mem _ hw)
      · exact hfirst fun w hw => hall w (List.mem_cons_of_mem _ hw)

theorem greatest_of_latest {l : List α} {x : α} (h : latest rank l = some x) :
    Greatest rank l x := by
  cases l with
  | nil => cases h
  | cons y l =>
    obtain ⟨z, hz, hgreatest, -⟩ := @foldl_keepLatest_some _ _ _ rank l y
    cases h.symm.trans hz
    exact hgreatest

theorem latest_eq_none_iff {l : List α} : latest rank l = none ↔ l = [] := by
  cases l with
  | nil => exact iff_of_true rfl rfl
  | cons y l =>
    obtain ⟨z, hz, -, -⟩ := @foldl_keepLatest_some _ _ _ rank l y
    refine iff_of_false (fun h => ?_) (List.cons_ne_nil y l)
    cases h.symm.trans hz

theorem exists_latest {l : List α} (h : l ≠ []) : ∃ x, latest rank l = some x :=
  Option.ne_none_iff_exists'.mp fun hnone => h (latest_eq_none_iff.mp hnone)

/-- An element of the highest rank is kept where it comes first. -/
theorem latest_cons_of_greatest {l : List α} {x : α} (h : Greatest rank (x :: l) x) :
    latest rank (x :: l) = some x := by
  obtain ⟨z, hz, -, hfirst⟩ := @foldl_keepLatest_some _ _ _ rank l x
  have hkept : z = x := hfirst fun y hy => h.2 y (List.mem_cons_of_mem _ hy)
  exact hz.trans (congrArg some hkept)

theorem greatest_of_perm {l l' : List α} (h : l'.Perm l) {x : α} :
    Greatest rank l' x ↔ Greatest rank l x := by
  unfold Greatest
  simp only [h.mem_iff]

end Nephio.Loops

namespace Nephio.Keyed

variable {κ α β : Type} [DecidableEq κ] [LinearOrder β] (rank : α → β)

/-- Keep the latest under a key. -/
def Edit.keep (k : κ) (x : α) : Edit (Prod.fst : κ × α → κ) where
  target := k
  act held := (Loops.keepLatest rank (held.map Prod.snd) x).map fun y => (k, y)
  keeps := by
    intro held y _ h
    obtain ⟨z, -, rfl⟩ := Option.map_eq_some_iff.mp h
    rfl

theorem keep_apply (k : κ) (x : α) (l : List (κ × α)) :
    (Edit.keep rank k x).apply l =
      match lookup Prod.fst k l with
      | some y => if rank y.2 < rank x then upsert Prod.fst (k, x) l else l
      | none => upsert Prod.fst (k, x) l := by
  cases hheld : lookup Prod.fst k l with
  | none => simp only [Edit.apply, Edit.keep, hheld, Loops.keepLatest, Option.map_none,
      Option.map_some]
  | some y =>
    by_cases hlt : rank y.2 < rank x
    · simp only [Edit.apply, Edit.keep, hheld, Loops.keepLatest, Option.map_some, if_pos hlt]
    · simp only [Edit.apply, Edit.keep, hheld, Loops.keepLatest, Option.map_some, if_neg hlt]
      obtain ⟨k', y⟩ := y
      obtain rfl : k' = k := key_of_lookup Prod.fst hheld
      exact upsert_of_lookup Prod.fst hheld

/-- The map of the latest, from no entries. -/
theorem value_applyAll_keep (name : α → κ) (xs : List α) (k : κ) :
    value k (applyAll (xs.map fun x => Edit.keep rank (name x) x) []) =
      Loops.latest rank (xs.filter (name · = k)) := by
  rw [value_applyAll, List.filter_map, Loops.latest]
  have hrun : ∀ (ys : List α) (held : Option (κ × α)),
      (((ys.map fun x => Edit.keep rank (name x) x).foldl (fun held e => e.act held) held).map
        Prod.snd) = ys.foldl (Loops.keepLatest rank) (held.map Prod.snd) := by
    intro ys
    induction ys with
    | nil => exact fun _ => rfl
    | cons y ys ih =>
      intro held
      rw [List.map_cons, List.foldl_cons, List.foldl_cons, ih]
      congr 1
      show ((Loops.keepLatest rank (held.map Prod.snd) y).map _).map Prod.snd = _
      rw [Option.map_map]
      exact Option.map_id'
  exact hrun (xs.filter (name · = k)) none

end Nephio.Keyed
