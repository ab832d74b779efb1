import Nephio.Data.Keyed
import Nephio.Data.Loops

/-!
# Maps that are filled entry by entry

A Go map from keys to values is a list of pairs, keyed by the first. `Edit.alter` changes the value
of a key, starting from a given one where the map has none; `Edit.adjust` changes it where the map
has one. What a run of them leaves at a key is a fold over the edits of that key
(`lookup_applyAll_alter`), and maps with the same entries are permutations of each other
(`perm_of_lookup`).
-/

namespace Nephio.Keyed

variable {κ β ι : Type} [DecidableEq κ]

/-- Change the value of a key, `init` where there is none. -/
def Edit.alter (k : κ) (init : β) (change : β → β) : Edit (Prod.fst : κ × β → κ) where
  target := k
  act held := some (k, change ((held.map Prod.snd).getD init))
  keeps := by
    intro held x _ h
    rw [← Option.some.inj h]

/-- Change the value of a key where there is one. -/
def Edit.adjust (k : κ) (change : β → β) : Edit (Prod.fst : κ × β → κ) where
  target := k
  act held := held.map fun x => (k, change x.2)
  keeps := by
    intro held x _ h
    obtain ⟨y, -, rfl⟩ := Option.map_eq_some_iff.mp h
    rfl

/-- The value of a key. -/
def value (k : κ) (l : List (κ × β)) : Option β := (lookup Prod.fst k l).map Prod.snd

theorem value_eq_some_iff {l : List (κ × β)} (hnd : (keys Prod.fst l).Nodup) {k : κ} {b : β} :
    value k l = some b ↔ (k, b) ∈ l := by
  rw [value, Option.map_eq_some_iff]
  constructor
  · rintro ⟨x, hx, rfl⟩
    rw [← key_of_lookup _ hx]
    exact mem_of_lookup _ hx
  · intro h
    exact ⟨(k, b), lookup_of_mem _ hnd h, rfl⟩

theorem alter_apply (k : κ) (init : β) (change : β → β) (l : List (κ × β)) :
    (Edit.alter k init change).apply l = upsert Prod.fst (k, change ((value k l).getD init)) l := rfl

theorem adjust_apply (k : κ) (change : β → β) (l : List (κ × β)) :
    (Edit.adjust k change).apply l =
      match lookup Prod.fst k l with
      | some x => upsert Prod.fst (k, change x.2) l
      | none => l := by
  simp only [Edit.apply, Edit.adjust]
  cases hx : lookup Prod.fst k l with
  | none => exact drop_of_lookup_none _ hx
  | some x => rfl

theorem value_applyAll (es : List (Edit (Prod.fst : κ × β → κ))) (k : κ) (l : List (κ × β)) :
    value k (applyAll es l) =
      ((es.filter (·.target = k)).foldl (fun held e => e.act held)
        (lookup Prod.fst k l)).map Prod.snd := by
  rw [value, lookup_applyAll]

omit [DecidableEq κ] in
/-- A run of alterations of one key. -/
theorem foldl_alter {k : κ} {init : β} {change : ι → β → β} (xs : List ι) (held : Option (κ × β))
    (hxs : xs ≠ []) :
    ((xs.map fun x => Edit.alter k init (change x)).foldl (fun held e => e.act held) held).map
        Prod.snd =
      some (xs.foldl (fun b x => change x b) ((held.map Prod.snd).getD init)) := by
  induction xs generalizing held with
  | nil => exact absurd rfl hxs
  | cons x xs ih =>
    rw [List.map_cons, List.foldl_cons, List.foldl_cons]
    cases xs with
    | nil => rfl
    | cons y xs => exact ih _ (List.cons_ne_nil _ _)

section AlterAll

variable {name : ι → κ} {init : κ → β} {change : ι → β → β}

/-- **What a run of alterations leaves at a key.** -/
theorem value_applyAll_alter (xs : List ι) (k : κ) (l : List (κ × β)) :
    value k (applyAll (xs.map fun x => Edit.alter (name x) (init (name x)) (change x)) l) =
      if xs.filter (name · = k) = [] then value k l
      else some ((xs.filter (name · = k)).foldl (fun b x => change x b)
        ((value k l).getD (init k))) := by
  have hfilter : (xs.map fun x => Edit.alter (name x) (init (name x)) (change x)).filter
        (·.target = k) =
      (xs.filter (name · = k)).map fun x => Edit.alter k (init k) (change x) := by
    rw [List.filter_map]
    refine List.map_congr_left fun x hx => ?_
    have hk : name x = k := of_decide_eq_true (List.mem_filter.mp hx).2
    rw [hk]
  rw [value_applyAll, hfilter]
  by_cases hnil : xs.filter (name · = k) = []
  · rw [if_pos hnil, hnil]
    rfl
  · rw [if_neg hnil, foldl_alter _ _ hnil]
    rfl

end AlterAll

omit [DecidableEq κ] in
theorem nodup_entries {l : List (κ × β)} (hnd : (keys Prod.fst l).Nodup) : l.Nodup :=
  List.Nodup.of_map _ hnd

theorem perm_cons_drop {α : Type} {key : α → κ} {l : List α} (hnd : (keys key l).Nodup) {x : α}
    (hx : x ∈ l) : l.Perm (x :: drop key (key x) l) := by
  have hl : l.Nodup := List.Nodup.of_map key hnd
  have hnotMem : x ∉ drop key (key x) l := fun hmem =>
    of_decide_eq_true (List.mem_filter.mp hmem).2 rfl
  rw [List.perm_ext_iff_of_nodup hl (List.nodup_cons.mpr ⟨hnotMem, hl.filter _⟩)]
  intro y
  rw [List.mem_cons, drop, List.mem_filter, decide_eq_true_eq]
  constructor
  · intro hy
    by_cases hkey : key y = key x
    · exact Or.inl (List.inj_on_of_nodup_map hnd hy hx hkey)
    · exact Or.inr ⟨hy, hkey⟩
  · rintro (rfl | ⟨hy, -⟩)
    · exact hx
    · exact hy

/-- **Maps with the same entries are permutations of each other.** -/
theorem perm_of_value {l l' : List (κ × β)} (hnd : (keys Prod.fst l).Nodup)
    (hnd' : (keys Prod.fst l').Nodup) (h : ∀ k, value k l = value k l') : l.Perm l' := by
  refine (List.perm_ext_iff_of_nodup (nodup_entries hnd) (nodup_entries hnd')).mpr fun x => ?_
  rw [← value_eq_some_iff hnd, ← value_eq_some_iff hnd', h]

/-- The entries of a key: one at most. -/
theorem filter_fst_eq {l : List (κ × β)} (hnd : (keys Prod.fst l).Nodup) (k : κ) :
    l.filter (·.1 = k) = ((value k l).map fun b => (k, b)).toList := by
  cases hvalue : value k l with
  | none =>
    have hk : k ∉ keys Prod.fst l :=
      (lookup_eq_none _).mp (Option.map_eq_none_iff.mp hvalue)
    refine List.filter_eq_nil_iff.mpr fun x hx => ?_
    rw [decide_eq_true_eq]
    exact fun heq => hk (heq ▸ List.mem_map_of_mem hx)
  | some b => exact filter_key_eq Prod.fst hnd ((value_eq_some_iff hnd).mp hvalue)

/-! ## Maps of lists -/

/-- Append to the list of a key. -/
def Edit.append (x : κ × β) : Edit (Prod.fst : κ × List β → κ) := .alter x.1 [] (· ++ [x.2])

omit [DecidableEq κ] in
theorem foldl_append_snd (xs : List (κ × β)) (bs : List β) :
    xs.foldl (fun bs x => bs ++ [x.2]) bs = bs ++ xs.map Prod.snd := by
  induction xs generalizing bs with
  | nil => rw [List.foldl_nil, List.map_nil, List.append_nil]
  | cons x xs ih =>
    rw [List.foldl_cons, ih, List.map_cons, List.append_assoc]
    rfl

/-- The list of a key: what was appended to it, in that order. -/
theorem value_applyAll_append (xs : List (κ × β)) (k : κ) :
    value k (applyAll (xs.map Edit.append) []) =
      if xs.filter (·.1 = k) = [] then none else some ((xs.filter (·.1 = k)).map Prod.snd) := by
  have h := @value_applyAll_alter κ (List β) (κ × β) _ Prod.fst (fun _ => [])
    (fun x bs => bs ++ [x.2]) xs k []
  rw [foldl_append_snd] at h
  exact h

/-- What the values of a map list, each with its key. -/
def entries {γ : Type} (list : β → List γ) (l : List (κ × β)) : List (κ × γ) :=
  l.flatMap fun x => (list x.2).map fun c => (x.1, c)

theorem filter_entries {γ : Type} {list : β → List γ} {l : List (κ × β)}
    (hnd : (keys Prod.fst l).Nodup) (k : κ) :
    (entries list l).filter (·.1 = k) =
      (((value k l).map list).getD []).map fun c => (k, c) := by
  have hkey : ∀ x ∈ l, ∀ y ∈ (list x.2).map (fun c => (x.1, c)),
      decide (y.1 = k) = decide (x.1 = k) := by
    intro x _ y hy
    obtain ⟨c, -, rfl⟩ := List.mem_map.mp hy
    rfl
  rw [entries, Loops.filter_flatMap_eq hkey, filter_fst_eq hnd]
  cases value k l with
  | none => rfl
  | some b => exact List.flatMap_singleton _ _

/-- Lists of pairs are permutations of each other where they are for each key. -/
theorem perm_of_filter_fst {xs ys : List (κ × β)}
    (h : ∀ k, (xs.filter (·.1 = k)).Perm (ys.filter (·.1 = k))) : xs.Perm ys := by
  classical
  rw [List.perm_iff_count]
  intro x
  have hcount := (h x.1).count_eq x
  rwa [List.count_filter (by simp), List.count_filter (by simp)] at hcount

/-- **What a map lists**, put together from what it lists under each key. -/
theorem perm_entries {γ : Type} {list : β → List γ} {l : List (κ × β)} {xs : List (κ × γ)}
    (hnd : (keys Prod.fst l).Nodup)
    (h : ∀ k, (((value k l).map list).getD []).Perm ((xs.filter (·.1 = k)).map Prod.snd)) :
    (entries list l).Perm xs := by
  refine perm_of_filter_fst fun k => ?_
  have hxs : ((xs.filter (·.1 = k)).map Prod.snd).map (fun c => (k, c)) = xs.filter (·.1 = k) := by
    rw [List.map_map]
    refine (List.map_congr_left fun x hx => ?_).trans (List.map_id _)
    exact Prod.ext (of_decide_eq_true (List.mem_filter.mp hx).2).symm rfl
  rw [filter_entries hnd, ← hxs]
  exact (h k).map _

end Nephio.Keyed
