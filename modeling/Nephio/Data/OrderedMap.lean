import Nephio.Data.Keyed

/-!
# Insertion-ordered maps

A map that remembers the order in which its keys came in: a key that is there keeps its place when it
is written again, and one that was erased comes in at the end. A keyed list with distinct keys is
such a map (`ofList`), and the two writes of `Keyed` are its two writes.
-/

namespace Nephio

/-- A map with its keys in the order of their insertion. -/
@[ext]
structure OrderedMap (κ α : Type) where
  order : List κ
  entry : κ → Option α
  nodup : order.Nodup
  mem_order : ∀ k, k ∈ order ↔ (entry k).isSome

namespace OrderedMap

variable {κ α : Type} [DecidableEq κ]

def insert (m : OrderedMap κ α) (k : κ) (v : α) : OrderedMap κ α where
  order := if k ∈ m.order then m.order else m.order ++ [k]
  entry := Function.update m.entry k (some v)
  nodup := by
    split_ifs with h
    · exact m.nodup
    · exact List.nodup_append.mpr ⟨m.nodup, List.nodup_singleton k, fun a ha b hb hab =>
        h (List.mem_singleton.mp hb ▸ hab ▸ ha)⟩
  mem_order k' := by
    by_cases hk : k' = k
    · subst hk
      rw [Function.update_self]
      split_ifs with h
      · exact iff_of_true h rfl
      · exact iff_of_true (List.mem_append_right _ (List.mem_singleton_self _)) rfl
    · rw [Function.update_of_ne hk, ← m.mem_order]
      split_ifs
      · rfl
      · rw [List.mem_append, List.mem_singleton]
        exact or_iff_left hk

def erase (m : OrderedMap κ α) (k : κ) : OrderedMap κ α where
  order := m.order.filter (· ≠ k)
  entry := Function.update m.entry k none
  nodup := m.nodup.filter _
  mem_order k' := by
    by_cases hk : k' = k
    · subst hk
      rw [Function.update_self]
      refine iff_of_false (fun h => ?_) nofun
      exact of_decide_eq_true (List.mem_filter.mp h).2 rfl
    · rw [Function.update_of_ne hk, ← m.mem_order, List.mem_filter]
      exact and_iff_left (decide_eq_true hk)

theorem entry_insert (m : OrderedMap κ α) (k k' : κ) (v : α) :
    (m.insert k v).entry k' = if k = k' then some v else m.entry k' := by
  show Function.update m.entry k (some v) k' = _
  rw [Function.update_apply]
  simp only [eq_comm]

theorem entry_erase (m : OrderedMap κ α) (k k' : κ) :
    (m.erase k).entry k' = if k = k' then none else m.entry k' := by
  show Function.update m.entry k none k' = _
  rw [Function.update_apply]
  simp only [eq_comm]

section OfList

variable (key : α → κ)

/-- The map of a list with distinct keys. -/
def ofList (l : List α) (h : (Keyed.keys key l).Nodup) : OrderedMap κ α where
  order := Keyed.keys key l
  entry k := Keyed.lookup key k l
  nodup := h
  mem_order _ := (Keyed.lookup_isSome key).symm

theorem ofList_upsert {x : α} {l : List α} (h : (Keyed.keys key l).Nodup)
    (h' : (Keyed.keys key (Keyed.upsert key x l)).Nodup) :
    ofList key (Keyed.upsert key x l) h' = (ofList key l h).insert (key x) x := by
  ext1
  case order => exact Keyed.keys_upsert key x l
  case entry =>
    funext k
    rw [entry_insert]
    exact Keyed.lookup_upsert key k x l

theorem ofList_drop {k : κ} {l : List α} (h : (Keyed.keys key l).Nodup)
    (h' : (Keyed.keys key (Keyed.drop key k l)).Nodup) :
    ofList key (Keyed.drop key k l) h' = (ofList key l h).erase k := by
  ext1
  case order => exact Keyed.keys_drop key k l
  case entry =>
    funext k'
    rw [entry_erase]
    exact Keyed.lookup_drop key k' k l

end OfList

end OrderedMap

end Nephio
