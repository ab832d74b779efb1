import Mathlib

/-!
# Keyed lists

A list whose elements are found by a key: read the first one that has it, overwrite that one in
place or append, drop every one that has it. Conditions by type, items by identity and the entries
of a Go map by their key are all kept this way.

An `Edit` is what one write does at its key. The law of this module is that a script of edits is
read off key by key (`lookup_applyAll`): what a key holds at the end is what the edits of that key,
in their order, make of what it held, whatever the edits of other keys do and however the two are
interleaved.
-/

namespace Nephio.Keyed

variable {α κ : Type} [DecidableEq κ] (key : α → κ)

/-- Overwrite the first element that has the key of `x`, or append `x`. -/
def upsert (x : α) : List α → List α
  | [] => [x]
  | y :: ys => if key y = key x then x :: ys else y :: upsert x ys

/-- The first element that has key `k`. -/
def lookup (k : κ) (l : List α) : Option α := l.find? (fun y => key y = k)

/-- Drop every element that has key `k`. -/
def drop (k : κ) (l : List α) : List α := l.filter (fun y => key y ≠ k)

/-- The keys, in order. -/
def keys (l : List α) : List κ := l.map key

/-! ## Reading after one write -/

@[simp] theorem lookup_nil (k : κ) : lookup key k [] = none := rfl

theorem lookup_cons (k : κ) (y : α) (ys : List α) :
    lookup key k (y :: ys) = if key y = k then some y else lookup key k ys := by
  unfold lookup
  rw [List.find?_cons]
  by_cases h : key y = k
  · simp only [h, decide_true, if_true]
  · simp only [h, decide_false, if_false]

theorem key_of_lookup {k : κ} {l : List α} {x : α} (h : lookup key k l = some x) : key x = k := by
  simpa using List.find?_some h

theorem mem_of_lookup {k : κ} {l : List α} {x : α} (h : lookup key k l = some x) : x ∈ l :=
  List.mem_of_find?_eq_some h

theorem lookup_eq_none {k : κ} {l : List α} : lookup key k l = none ↔ k ∉ keys key l := by
  simp only [lookup, List.find?_eq_none, decide_eq_true_eq, keys, List.mem_map, not_exists, not_and]

theorem lookup_isSome {k : κ} {l : List α} : (lookup key k l).isSome ↔ k ∈ keys key l := by
  rw [Option.isSome_iff_ne_none, ne_eq, lookup_eq_none, not_not]

/-- With distinct keys, reading finds any element by its key. -/
theorem lookup_of_mem {l : List α} (hnd : (keys key l).Nodup) {x : α} (hx : x ∈ l) :
    lookup key (key x) l = some x := by
  induction l with
  | nil => cases hx
  | cons y ys ih =>
    rw [lookup_cons]
    simp only [keys, List.map_cons, List.nodup_cons] at hnd
    rcases List.mem_cons.mp hx with rfl | hmem
    · rw [if_pos rfl]
    · rw [if_neg, ih hnd.2 hmem]
      intro heq
      exact hnd.1 (heq ▸ List.mem_map_of_mem hmem)

theorem lookup_eq_some_iff {l : List α} (hnd : (keys key l).Nodup) {k : κ} {x : α} :
    lookup key k l = some x ↔ x ∈ l ∧ key x = k := by
  constructor
  · intro h
    exact ⟨mem_of_lookup key h, key_of_lookup key h⟩
  · rintro ⟨hx, rfl⟩
    exact lookup_of_mem key hnd hx

theorem lookup_upsert (k : κ) (x : α) (l : List α) :
    lookup key k (upsert key x l) = if key x = k then some x else lookup key k l := by
  induction l with
  | nil => rw [upsert, lookup_cons]
  | cons y ys ih =>
    by_cases hyx : key y = key x
    · rw [upsert, if_pos hyx, lookup_cons, lookup_cons, hyx]
      split_ifs <;> rfl
    · rw [upsert, if_neg hyx, lookup_cons, ih, lookup_cons]
      by_cases hxk : key x = k
      · have hyk : key y ≠ k := fun h => hyx (h.trans hxk.symm)
        simp only [hxk, hyk, if_true, if_false]
      · simp only [hxk, if_false]

theorem lookup_drop (k k' : κ) (l : List α) :
    lookup key k (drop key k' l) = if k' = k then none else lookup key k l := by
  induction l with
  | nil => simp only [drop, List.filter_nil, lookup_nil, ite_self]
  | cons y ys ih =>
    simp only [drop] at ih
    by_cases hy : key y = k'
    · rw [drop, List.filter_cons_of_neg (by simpa using hy), ih, lookup_cons, hy]
      split_ifs <;> rfl
    · rw [drop, List.filter_cons_of_pos (by simpa using hy), lookup_cons, lookup_cons, ih]
      by_cases hyk : key y = k
      · rw [if_pos hyk, if_pos hyk, if_neg (fun h => hy (hyk.trans h.symm))]
      · rw [if_neg hyk, if_neg hyk]

/-! ## The keys after one write -/

theorem keys_upsert (x : α) (l : List α) :
    keys key (upsert key x l) =
      if key x ∈ keys key l then keys key l else keys key l ++ [key x] := by
  induction l with
  | nil => simp only [upsert, keys, List.map_cons, List.map_nil, List.not_mem_nil, if_false,
      List.nil_append]
  | cons y ys ih =>
    simp only [keys] at ih
    by_cases hyx : key y = key x
    · rw [upsert, if_pos hyx, keys, keys, List.map_cons, List.map_cons, hyx,
        if_pos List.mem_cons_self]
    · rw [upsert, if_neg hyx, keys, keys, List.map_cons, List.map_cons, ih]
      have hne : key x ≠ key y := fun h => hyx h.symm
      simp only [List.mem_cons, hne, false_or]
      by_cases hmem : key x ∈ List.map key ys
      · simp only [hmem, if_true]
      · simp only [hmem, if_false, List.cons_append]

theorem keys_drop (k : κ) (l : List α) : keys key (drop key k l) = (keys key l).filter (· ≠ k) := by
  simp only [keys, drop, List.filter_map, Function.comp_def]

theorem nodup_keys_upsert {l : List α} (h : (keys key l).Nodup) (x : α) :
    (keys key (upsert key x l)).Nodup := by
  rw [keys_upsert]
  split_ifs with hx
  · exact h
  · exact List.nodup_append.mpr ⟨h, List.nodup_singleton _, by
      intro a ha b hb heq
      rw [List.mem_singleton.mp hb] at heq
      exact hx (heq ▸ ha)⟩

theorem nodup_keys_drop {l : List α} (h : (keys key l).Nodup) (k : κ) :
    (keys key (drop key k l)).Nodup := by
  rw [keys_drop]
  exact h.filter _

theorem mem_upsert_self (x : α) (l : List α) : x ∈ upsert key x l := by
  induction l with
  | nil => exact List.mem_singleton_self x
  | cons y ys ih =>
    rw [upsert]
    split_ifs
    · exact List.mem_cons_self
    · exact List.mem_cons_of_mem _ ih

/-- An element with another key stays, and no other element comes in. -/
theorem mem_upsert_of_ne {x y : α} {l : List α} (hne : key y ≠ key x) :
    y ∈ upsert key x l ↔ y ∈ l := by
  induction l with
  | nil =>
    simp only [upsert, List.mem_singleton, List.not_mem_nil, iff_false]
    rintro rfl
    exact hne rfl
  | cons z zs ih =>
    rw [upsert]
    split_ifs with hz
    · constructor
      · intro h
        rcases List.mem_cons.mp h with rfl | h
        · exact absurd rfl hne
        · exact List.mem_cons_of_mem _ h
      · intro h
        rcases List.mem_cons.mp h with rfl | h
        · exact absurd hz hne
        · exact List.mem_cons_of_mem _ h
    · rw [List.mem_cons, List.mem_cons, ih]

theorem mem_of_mem_upsert {x y : α} {l : List α} (h : y ∈ upsert key x l) : y = x ∨ y ∈ l := by
  induction l with
  | nil => exact Or.inl (List.mem_singleton.mp h)
  | cons z zs ih =>
    rw [upsert] at h
    split_ifs at h
    · rcases List.mem_cons.mp h with rfl | h
      · exact Or.inl rfl
      · exact Or.inr (List.mem_cons_of_mem _ h)
    · rcases List.mem_cons.mp h with rfl | h
      · exact Or.inr List.mem_cons_self
      · exact (ih h).imp id (List.mem_cons_of_mem _)

/-- What an upsert does to a sum: the weight of the element it replaces, if any, is exchanged. -/
theorem sum_map_upsert (w : α → Nat) (x : α) (l : List α) :
    ((upsert key x l).map w).sum + ((lookup key (key x) l).map w).getD 0 =
      (l.map w).sum + w x := by
  induction l with
  | nil => simp [upsert, lookup]
  | cons y l ih =>
    by_cases hy : key y = key x
    · rw [upsert, if_pos hy, lookup_cons, if_pos hy]
      simp only [List.map_cons, List.sum_cons, Option.map_some, Option.getD_some]
      omega
    · rw [upsert, if_neg hy, lookup_cons, if_neg hy]
      simp only [List.map_cons, List.sum_cons]
      omega

/-- Writing what is read already changes nothing. -/
theorem upsert_of_lookup {x : α} {l : List α} (h : lookup key (key x) l = some x) :
    upsert key x l = l := by
  induction l with
  | nil => cases h
  | cons y ys ih =>
    rw [lookup_cons] at h
    rw [upsert]
    split_ifs at h ⊢ with hy
    · rw [Option.some.inj h]
    · rw [ih h]

theorem upsert_of_lookup_none {x : α} {l : List α} (h : lookup key (key x) l = none) :
    upsert key x l = l ++ [x] := by
  induction l with
  | nil => rfl
  | cons y ys ih =>
    rw [lookup_cons] at h
    split_ifs at h with hy
    rw [upsert, if_neg hy, ih h, List.cons_append]

/-- Writes of different keys commute unless both append. -/
theorem upsert_comm {x y : α} {l : List α} (hne : key x ≠ key y)
    (hpres : key x ∈ keys key l ∨ key y ∈ keys key l) :
    upsert key x (upsert key y l) = upsert key y (upsert key x l) := by
  induction l with
  | nil => rcases hpres with h | h <;> cases h
  | cons z zs ih =>
    by_cases hzx : key z = key x
    · simp only [upsert, hzx, hne, if_true, if_false]
    · by_cases hzy : key z = key y
      · have hyx : key y ≠ key x := fun h => hne h.symm
        simp only [upsert, hzy, hyx, if_true, if_false]
      · have hpres' : key x ∈ keys key zs ∨ key y ∈ keys key zs := by
          simp only [keys, List.map_cons, List.mem_cons] at hpres ⊢
          rcases hpres with (h | h) | (h | h)
          · exact absurd h.symm hzx
          · exact Or.inl h
          · exact absurd h.symm hzy
          · exact Or.inr h
        simp only [upsert, hzx, hzy, if_false, ih hpres']

omit [DecidableEq κ] in
/-- Where only the element of one key contributes to a loop, the loop gives what it gives. -/
theorem flatMap_of_key {β : Type} {l : List α} (hnd : (keys key l).Nodup) {x : α} (hx : x ∈ l)
    {g : α → List β} (hg : ∀ y ∈ l, key y ≠ key x → g y = []) : l.flatMap g = g x := by
  induction l with
  | nil => cases hx
  | cons y ys ih =>
    simp only [keys, List.map_cons, List.nodup_cons] at hnd
    rw [List.flatMap_cons]
    rcases List.mem_cons.mp hx with rfl | hmem
    · have hrest : ys.flatMap g = [] := by
        rw [List.flatMap_eq_nil_iff]
        intro z hz
        refine hg z (List.mem_cons_of_mem _ hz) fun heq => hnd.1 ?_
        exact heq ▸ List.mem_map_of_mem hz
      rw [hrest, List.append_nil]
    · have hy : g y = [] := by
        refine hg y List.mem_cons_self fun heq => hnd.1 ?_
        exact heq ▸ List.mem_map_of_mem hmem
      rw [hy, List.nil_append]
      exact ih hnd.2 hmem fun z hz => hg z (List.mem_cons_of_mem _ hz)

omit [DecidableEq κ] in
/-- The same where the output is filtered, and only one element puts out what passes. -/
theorem filter_flatMap_of_key {β : Type} {l : List α} (hnd : (keys key l).Nodup) {x : α}
    (hx : x ∈ l) {g : α → List β} {p : β → Bool}
    (hp : ∀ y ∈ l, key y ≠ key x → ∀ z ∈ g y, p z = false) :
    (l.flatMap g).filter p = (g x).filter p := by
  rw [List.filter_flatMap]
  refine flatMap_of_key key hnd hx fun y hy hne => ?_
  rw [List.filter_eq_nil_iff]
  intro z hz hpz
  rw [hp y hy hne z hz] at hpz
  cases hpz

/-- With distinct keys, the elements of one key are the one that has it. -/
theorem filter_key_eq {l : List α} (hnd : (keys key l).Nodup) {x : α} (hx : x ∈ l) :
    l.filter (fun y => key y = key x) = [x] := by
  induction l with
  | nil => cases hx
  | cons y ys ih =>
    simp only [keys, List.map_cons, List.nodup_cons] at hnd
    rcases List.mem_cons.mp hx with rfl | hmem
    · have hrest : ys.filter (fun y => key y = key x) = [] := by
        rw [List.filter_eq_nil_iff]
        intro z hz heq
        exact hnd.1 (of_decide_eq_true heq ▸ List.mem_map_of_mem hz)
      rw [List.filter_cons_of_pos (by simp), hrest]
    · have hne : key y ≠ key x := fun heq => hnd.1 (heq ▸ List.mem_map_of_mem hmem)
      rw [List.filter_cons_of_neg (by simpa using hne)]
      exact ih hnd.2 hmem

/-- Where the keys are distinct the last element with a key is the one. -/
theorem getLast?_filter_key {l : List α}
    (hnd : (keys key l).Nodup) {k : κ} :
    (l.filter fun x => key x = k).getLast? = lookup key k l := by
  cases hlookup : lookup key k l with
  | none =>
    rw [List.getLast?_eq_none_iff, List.filter_eq_nil_iff]
    intro x hx
    rw [decide_eq_true_eq]
    exact fun hkey => (lookup_eq_none key).mp hlookup (hkey ▸ List.mem_map_of_mem hx)
  | some x =>
    obtain rfl := key_of_lookup key hlookup
    rw [filter_key_eq key hnd (mem_of_lookup key hlookup), List.getLast?_singleton]

theorem drop_of_lookup_none {k : κ} {l : List α} (h : lookup key k l = none) :
    drop key k l = l := by
  refine List.filter_eq_self.mpr fun x hx => ?_
  have hk := (lookup_eq_none key).mp h
  exact decide_eq_true fun heq => hk (heq ▸ List.mem_map_of_mem hx)

/-- A filter that only looks at the key can be applied before or after a write. -/
theorem filter_upsert {p : α → Bool} (hp : ∀ a b, key a = key b → p a = p b) (x : α)
    (l : List α) :
    (upsert key x l).filter p = if p x then upsert key x (l.filter p) else l.filter p := by
  induction l with
  | nil => cases hpx : p x <;> simp [upsert, hpx]
  | cons y ys ih =>
    by_cases hy : key y = key x
    · have hpy := hp y x hy
      cases hpx : p x <;> simp [upsert, hy, hpy, hpx]
    · cases hpy : p y <;> cases hpx : p x <;> simp [upsert, hy, hpy, hpx, ih]

/-- What is written is found if it replaces what was found before, or if nothing was. -/
theorem find?_upsert {p : α → Bool} {x : α} (hx : p x = true) {l : List α}
    (h : ∀ y, l.find? p = some y → key y = key x) :
    (upsert key x l).find? p = some x := by
  induction l with
  | nil => exact List.find?_cons_of_pos hx
  | cons a l ih =>
    by_cases ha : key a = key x
    · rw [upsert, if_pos ha]
      exact List.find?_cons_of_pos hx
    · rw [upsert, if_neg ha]
      have hpa : ¬ p a = true := fun hpa => ha (h a (List.find?_cons_of_pos hpa))
      rw [List.find?_cons_of_neg hpa]
      refine ih fun y hy => h y ?_
      rw [List.find?_cons_of_neg hpa]
      exact hy

theorem filter_upsert_of_false {p : α → Bool} {x : α} (hx : p x = false) {l : List α}
    (h : ∀ y ∈ l, key y = key x → p y = false) : (upsert key x l).filter p = l.filter p := by
  induction l with
  | nil =>
    rw [upsert, List.filter_cons_of_neg (Bool.not_eq_true _ ▸ hx)]
  | cons a l ih =>
    by_cases ha : key a = key x
    · have hpa := h a List.mem_cons_self ha
      rw [upsert, if_pos ha, List.filter_cons_of_neg (Bool.not_eq_true _ ▸ hx),
        List.filter_cons_of_neg (Bool.not_eq_true _ ▸ hpa)]
    · rw [upsert, if_neg ha, List.filter_cons, List.filter_cons,
        ih fun y hy => h y (List.mem_cons_of_mem _ hy)]

theorem upsert_upsert_self (x : α) (l : List α) :
    upsert key x (upsert key x l) = upsert key x l := by
  refine upsert_of_lookup key ?_
  rw [lookup_upsert, if_pos rfl]

/-! ## Runs of writes -/

/-- Write one element after the other. -/
def upsertAll (xs l : List α) : List α := xs.foldl (fun l x => upsert key x l) l

@[simp] theorem upsertAll_nil (l : List α) : upsertAll key [] l = l := rfl

theorem upsertAll_append (xs ys l : List α) :
    upsertAll key (xs ++ ys) l = upsertAll key ys (upsertAll key xs l) := List.foldl_append

/-- A key holds what was written last under it. -/
theorem lookup_upsertAll (k : κ) (xs l : List α) :
    lookup key k (upsertAll key xs l) = (xs.filter (key · = k)).getLast?.or (lookup key k l) := by
  induction xs using List.reverseRecOn with
  | nil => rfl
  | append_singleton xs x ih =>
    rw [upsertAll_append, upsertAll, List.foldl_cons, List.foldl_nil, lookup_upsert, ih,
      List.filter_append, List.filter_cons, List.filter_nil]
    by_cases hx : key x = k
    · simp only [hx, if_true, decide_true, List.getLast?_concat, Option.some_or]
    · simp only [hx, if_false, decide_false, Bool.false_eq_true, List.append_nil]

theorem filter_upsertAll {p : α → Bool} (hp : ∀ a b, key a = key b → p a = p b) (xs l : List α) :
    (upsertAll key xs l).filter p = upsertAll key (xs.filter p) (l.filter p) := by
  induction xs generalizing l with
  | nil => rfl
  | cons x xs ih =>
    change (upsertAll key xs (upsert key x l)).filter p = _
    rw [ih, filter_upsert key hp, List.filter_cons]
    split_ifs <;> rfl

theorem nodup_keys_upsertAll {l : List α} (h : (keys key l).Nodup) (xs : List α) :
    (keys key (upsertAll key xs l)).Nodup := by
  induction xs generalizing l with
  | nil => exact h
  | cons x xs ih => exact ih (nodup_keys_upsert key h x)

theorem mem_of_mem_upsertAll {y : α} {xs l : List α} (h : y ∈ upsertAll key xs l) :
    y ∈ xs ∨ y ∈ l := by
  induction xs generalizing l with
  | nil => exact Or.inr h
  | cons x xs ih =>
    rcases ih h with hxs | hl
    · exact Or.inl (List.mem_cons_of_mem _ hxs)
    · rcases mem_of_mem_upsert key hl with rfl | hl
      · exact Or.inl List.mem_cons_self
      · exact Or.inr hl

theorem keys_upsertAll {xs l : List α} (h : ∀ x ∈ xs, key x ∈ keys key l) :
    keys key (upsertAll key xs l) = keys key l := by
  induction xs generalizing l with
  | nil => rfl
  | cons x xs ih =>
    have hkeys : keys key (upsert key x l) = keys key l := by
      rw [keys_upsert, if_pos (h x List.mem_cons_self)]
    refine (ih fun x' hx' => ?_).trans hkeys
    rw [hkeys]
    exact h x' (List.mem_cons_of_mem _ hx')

/-- Distinct keys in one order and the same entries make the same list. -/
theorem eq_of_lookup {l l' : List α} (hkeys : keys key l = keys key l')
    (hnd : (keys key l).Nodup) (h : ∀ k, lookup key k l = lookup key k l') : l = l' := by
  induction l generalizing l' with
  | nil => exact (List.map_eq_nil_iff.mp hkeys.symm).symm
  | cons y ys ih =>
    cases l' with
    | nil => cases hkeys
    | cons y' ys' =>
      obtain ⟨hkey, hrest⟩ := List.cons.inj hkeys
      have hhead := h (key y)
      rw [lookup_cons, if_pos rfl, lookup_cons, if_pos hkey.symm] at hhead
      have hnd' := List.nodup_cons.mp hnd
      rw [Option.some.inj hhead, ih hrest hnd'.2]
      intro k
      by_cases hk : key y = k
      · have hnone : k ∉ keys key ys := hk ▸ hnd'.1
        rw [(lookup_eq_none key).mpr hnone, (lookup_eq_none key).mpr]
        rw [← show keys key ys = keys key ys' from hrest]
        exact hnone
      · have htail := h k
        rwa [lookup_cons, if_neg hk, lookup_cons, if_neg (hkey ▸ hk)] at htail

/-- Writes that replace entries of a list by their images. -/
theorem upsertAll_eq_map {f : α → α} (hf : ∀ y, key (f y) = key y) {xs l : List α}
    (hnd : (keys key l).Nodup) (hxs : ∀ x ∈ xs, ∃ y ∈ l, x = f y)
    (hl : ∀ y ∈ l, f y = y ∨ f y ∈ xs) : upsertAll key xs l = l.map f := by
  have hmap : keys key (l.map f) = keys key l := by
    simp only [keys, List.map_map, Function.comp_def, hf]
  have hkeys : keys key (upsertAll key xs l) = keys key l := by
    refine keys_upsertAll key fun x hx => ?_
    obtain ⟨y, hy, rfl⟩ := hxs x hx
    rw [hf]
    exact List.mem_map_of_mem hy
  refine eq_of_lookup key (hkeys.trans hmap.symm) (hkeys ▸ hnd) fun k => ?_
  rw [lookup_upsertAll]
  cases hk : lookup key k l with
  | none =>
    have hnot := (lookup_eq_none key).mp hk
    rw [(lookup_eq_none key).mpr (hmap ▸ hnot), List.filter_eq_nil_iff.mpr]
    · rfl
    · intro x hx hxk
      obtain ⟨y, hy, rfl⟩ := hxs x hx
      rw [hf, decide_eq_true_eq] at hxk
      exact hnot (hxk ▸ List.mem_map_of_mem hy)
  | some y =>
    obtain ⟨hy, rfl⟩ := (lookup_eq_some_iff key hnd).mp hk
    -- every write at this key is the image of the one entry that has it
    have hall : ∀ x ∈ xs.filter (key · = key y), x = f y := by
      intro x hx
      obtain ⟨hx, hkey⟩ := List.mem_filter.mp hx
      obtain ⟨y', hy', rfl⟩ := hxs x hx
      rw [hf, decide_eq_true_eq] at hkey
      rw [List.inj_on_of_nodup_map hnd hy' hy hkey]
    have himage : lookup key (key y) (l.map f) = some (f y) := by
      have hmem := lookup_of_mem key (hmap ▸ hnd) (List.mem_map_of_mem hy)
      rwa [hf] at hmem
    rw [himage]
    cases hlast : (xs.filter (key · = key y)).getLast? with
    | some x =>
      rw [hall x (List.mem_of_getLast? hlast)]
      rfl
    | none =>
      have hnone : f y ∉ xs := by
        intro hmem
        have hnil := List.getLast?_eq_none_iff.mp hlast
        have hin : f y ∈ xs.filter (key · = key y) :=
          List.mem_filter.mpr ⟨hmem, decide_eq_true (hf y)⟩
        rw [hnil] at hin
        cases hin
      rw [(hl y hy).resolve_right hnone]
      rfl

/-! ## Edits -/

/-- What one write does at its key: `act` maps what the key holds to what it holds afterwards, and
what is written has that key. -/
structure Edit where
  target : κ
  act : Option α → Option α
  keeps : ∀ held x, (∀ y, held = some y → key y = target) → act held = some x → key x = target

variable {key}

/-- Write `x`, whatever its key held. -/
def Edit.put (x : α) : Edit key where
  target := key x
  act _ := some x
  keeps := by
    intro held y _ h
    rw [← Option.some.inj h]

/-- Drop what the key holds. -/
def Edit.remove (k : κ) : Edit key where
  target := k
  act _ := none
  keeps := by
    intro held y _ h
    cases h

/-- Carry an edit out on a list. -/
def Edit.apply (e : Edit key) (l : List α) : List α :=
  match e.act (lookup key e.target l) with
  | some x => upsert key x l
  | none => drop key e.target l

/-- Carry out a script, first edit first. -/
def applyAll (es : List (Edit key)) (l : List α) : List α :=
  es.foldl (fun l e => e.apply l) l

@[simp] theorem applyAll_nil (l : List α) : applyAll ([] : List (Edit key)) l = l := rfl

@[simp] theorem applyAll_cons (e : Edit key) (es : List (Edit key)) (l : List α) :
    applyAll (e :: es) l = applyAll es (e.apply l) := rfl

theorem applyAll_append (es fs : List (Edit key)) (l : List α) :
    applyAll (es ++ fs) l = applyAll fs (applyAll es l) := List.foldl_append

omit [DecidableEq κ] in
@[simp] theorem Edit.put_target (x : α) : (Edit.put x : Edit key).target = key x := rfl

omit [DecidableEq κ] in
@[simp] theorem Edit.put_act (x : α) (held : Option α) :
    (Edit.put x : Edit key).act held = some x := rfl

omit [DecidableEq κ] in
@[simp] theorem Edit.remove_target (k : κ) : (Edit.remove k : Edit key).target = k := rfl

omit [DecidableEq κ] in
@[simp] theorem Edit.remove_act (k : κ) (held : Option α) :
    (Edit.remove k : Edit key).act held = none := rfl

@[simp] theorem Edit.put_apply (x : α) (l : List α) :
    (Edit.put x : Edit key).apply l = upsert key x l := rfl

@[simp] theorem Edit.remove_apply (k : κ) (l : List α) :
    (Edit.remove k : Edit key).apply l = drop key k l := rfl

/-- An edit acts at its key and nowhere else. -/
theorem lookup_apply (e : Edit key) (k : κ) (l : List α) :
    lookup key k (e.apply l) = if e.target = k then e.act (lookup key k l) else lookup key k l := by
  unfold Edit.apply
  cases hact : e.act (lookup key e.target l) with
  | none =>
    rw [lookup_drop]
    split_ifs with h
    · rw [← h, hact]
    · rfl
  | some x =>
    have hx : key x = e.target := e.keeps _ x (fun y hy => key_of_lookup key hy) hact
    rw [lookup_upsert, hx]
    split_ifs with h
    · rw [← h, hact]
    · rfl

/-- **A script is read off key by key.** -/
theorem lookup_applyAll (es : List (Edit key)) (k : κ) (l : List α) :
    lookup key k (applyAll es l) =
      (es.filter (·.target = k)).foldl (fun held e => e.act held) (lookup key k l) := by
  induction es generalizing l with
  | nil => rfl
  | cons e es ih =>
    rw [applyAll_cons, ih, lookup_apply]
    by_cases h : e.target = k
    · rw [List.filter_cons_of_pos (by simpa using h), List.foldl_cons, if_pos h]
    · rw [List.filter_cons_of_neg (by simpa using h), if_neg h]

/-- A script that never writes at `k` leaves what `k` holds. -/
theorem lookup_applyAll_of_forall_ne {es : List (Edit key)} {k : κ} (h : ∀ e ∈ es, e.target ≠ k)
    (l : List α) : lookup key k (applyAll es l) = lookup key k l := by
  rw [lookup_applyAll, List.filter_eq_nil_iff.mpr]
  · rfl
  · intro e he
    simpa using h e he

/-- An edit keeps everything that is not at its key. -/
theorem filter_apply_of_ne (e : Edit key) {k : κ} (h : e.target ≠ k) (l : List α) :
    (e.apply l).filter (fun x => key x = k) = l.filter fun x => key x = k := by
  unfold Edit.apply
  cases hact : e.act (lookup key e.target l) with
  | some x =>
    have hx : key x = e.target :=
      e.keeps _ x (fun y hy => key_of_lookup key hy) hact
    have hkey : ∀ a b : α, key a = key b → decide (key a = k) = decide (key b = k) :=
      fun a b hab => by rw [hab]
    simp only [filter_upsert key hkey, hx, h, decide_false, Bool.false_eq_true, if_false]
  | none =>
    rw [drop, List.filter_filter]
    refine List.filter_congr fun y _ => ?_
    by_cases hy : key y = k
    · simp only [hy, decide_true, Bool.true_and, ne_eq, h.symm, not_false_eq_true]
    · simp only [hy, decide_false, Bool.false_and]

theorem filter_applyAll_of_forall_ne {es : List (Edit key)} {k : κ} (h : ∀ e ∈ es, e.target ≠ k)
    (l : List α) :
    (applyAll es l).filter (fun x => key x = k) = l.filter fun x => key x = k := by
  induction es generalizing l with
  | nil => rfl
  | cons e es ih =>
    rw [applyAll_cons, ih fun e' he' => h e' (List.mem_cons_of_mem _ he'),
      filter_apply_of_ne e (h e List.mem_cons_self)]

theorem nodup_keys_apply {l : List α} (h : (keys key l).Nodup) (e : Edit key) :
    (keys key (e.apply l)).Nodup := by
  unfold Edit.apply
  split
  · exact nodup_keys_upsert key h _
  · exact nodup_keys_drop key h _

theorem nodup_keys_applyAll {l : List α} (h : (keys key l).Nodup) (es : List (Edit key)) :
    (keys key (applyAll es l)).Nodup := by
  induction es generalizing l with
  | nil => exact h
  | cons e es ih => exact ih (nodup_keys_apply h e)

end Nephio.Keyed
