import Nephio.Laws.KubeObject.Yaml

/-!
# Laws.KubeObject.Data: the copy keeps the data

`Same` compares two trees without their comments and without the order of the fields. `format`
stays within it (`same_format`): a mapping's fields are only permuted, a list's items only replaced
by their formatted selves.

Which mapping of the source a mapping was last matched with is read off the comments. `format` does
not look at them and copies them at every match, so a source whose mappings carry their own keys as
a comment (`label`) leaves its mark on what it is matched with.
-/

namespace Nephio.Formatting.Yaml

variable {C D : Type}

/-! ## The same data -/

/-- Tag and value of the key of a field. -/
def keyData (kv : Key C × Yaml C) : KeyTag × String := (kv.1.tag, kv.1.value)

/-- The same data: scalars, tags and lists alike, and in every mapping the same fields in some
order. -/
inductive Same : Yaml C → Yaml C → Prop where
  | scalar {c c' : C} {tag value : String} : Same (.scalar c tag value) (.scalar c' tag value)
  | reference {c c' : C} {anchor : String} : Same (.reference c anchor) (.reference c' anchor)
  | sequence {c c' : C} {tag : String} {items items' : List (Yaml C)} :
    List.Forall₂ Same items items' → Same (.sequence c tag items) (.sequence c' tag items')
  | mapping {c c' : C} {tag : String} {fields ordered fields' : List (Key C × Yaml C)} :
    fields.Perm ordered → ordered.map keyData = fields'.map keyData →
    List.Forall₂ Same (ordered.map Prod.snd) (fields'.map Prod.snd) →
    Same (.mapping c tag fields) (.mapping c' tag fields')
  | document {c c' : C} {items items' : List (Yaml C)} :
    List.Forall₂ Same items items' → Same (.document c items) (.document c' items')

/-- The same field, up to comments and order. -/
def SameField (kv kv' : Key C × Yaml C) : Prop := keyData kv = keyData kv' ∧ Same kv.2 kv'.2

/-- The same fields, in some order. -/
def SameFields (fields fields' : List (Key C × Yaml C)) : Prop :=
  ∃ ordered, fields.Perm ordered ∧ List.Forall₂ SameField ordered fields'

theorem forall₂_sameField_iff {fields fields' : List (Key C × Yaml C)} :
    List.Forall₂ SameField fields fields' ↔
      fields.map keyData = fields'.map keyData ∧
        List.Forall₂ Same (fields.map Prod.snd) (fields'.map Prod.snd) := by
  induction fields generalizing fields' with
  | nil => cases fields' <;> simp
  | cons kv fields ih =>
    cases fields' with
    | nil => simp
    | cons kv' fields' =>
      rw [List.forall₂_cons, ih, List.map_cons, List.map_cons, List.map_cons, List.map_cons,
        List.forall₂_cons, List.cons.injEq]
      exact and_and_and_comm

theorem same_mapping_iff {c c' : C} {tag tag' : String} {fields fields' : List (Key C × Yaml C)} :
    Same (.mapping c tag fields) (.mapping c' tag' fields') ↔
      tag = tag' ∧ SameFields fields fields' := by
  constructor
  · intro h
    cases h with
    | mapping hperm hkeys hvalues => exact ⟨rfl, _, hperm, forall₂_sameField_iff.mpr ⟨hkeys, hvalues⟩⟩
  · rintro ⟨rfl, ordered, hperm, hfields⟩
    obtain ⟨hkeys, hvalues⟩ := forall₂_sameField_iff.mp hfields
    exact .mapping hperm hkeys hvalues

theorem Same.refl (y : Yaml C) : Same y y := by
  induction y using induct with
  | scalar c tag value => exact .scalar
  | reference c anchor => exact .reference
  | sequence c tag items ih => exact .sequence (List.forall₂_same.mpr ih)
  | document c items ih => exact .document (List.forall₂_same.mpr ih)
  | mapping c tag fields ih =>
    exact same_mapping_iff.mpr
      ⟨rfl, fields, .refl _, List.forall₂_same.mpr fun kv hkv => ⟨rfl, ih kv hkv⟩⟩

theorem SameFields.perm {fields fields' fields'' : List (Key C × Yaml C)}
    (h : SameFields fields fields') (hperm : fields'.Perm fields'') :
    SameFields fields fields'' := by
  obtain ⟨ordered, hp, hf⟩ := h
  have hcomp : Relation.Comp (List.Forall₂ SameField) List.Perm ordered fields'' :=
    ⟨fields', hf, hperm⟩
  rw [List.forall₂_comp_perm_eq_perm_comp_forall₂] at hcomp
  obtain ⟨ordered', hp', hf'⟩ := hcomp
  exact ⟨ordered', hp.trans hp', hf'⟩

/-! ## Looking up a key -/

/-- `pick` finds the field, and leaves the others. -/
theorem perm_of_pick {fields rest : List (Key C × Yaml C)} {kv : Key C × Yaml C} {key : String}
    (h : pick fields key = some (kv, rest)) :
    fields.Perm (kv :: rest) ∧ kv.1.value = key := by
  rcases pick_eq_some h with ⟨hkey, rfl⟩ | ⟨first, others, j, hfirst, rfl, hidx, hfound, rfl⟩
  · exact ⟨.refl _, hkey⟩
  · obtain ⟨hlt, hkey, -⟩ := List.findIdx?_eq_some_iff_getElem.mp hidx
    obtain ⟨_, rfl⟩ := List.getElem?_eq_some_iff.mp hfound
    refine ⟨?_, by simpa using hkey⟩
    calc List.Perm (first :: others) (first :: others[j] :: others.eraseIdx j) :=
          (List.getElem_cons_eraseIdx_perm hlt).symm.cons first
      List.Perm _ (others[j] :: first :: others.eraseIdx j) := .swap _ _ _
      List.Perm _ (others[j] :: others.set j first) :=
          (List.set_perm_cons_eraseIdx hlt first).symm.cons _

theorem not_mem_keys_of_pick {fields : List (Key C × Yaml C)} {key : String}
    (h : pick fields key = none) : key ∉ keys fields := by
  have hnone := List.findIdx?_eq_none_iff.mp (pick_eq_none h)
  intro hmem
  obtain ⟨kv, hkv, rfl⟩ := List.mem_map.mp hmem
  exact absurd (hnone kv hkv) (by simp)

/-! ## The copy stays within the same data -/

theorem forall₂_modify {α : Type} {R : α → α → Prop} {g : α → α} {xs ys : List α}
    (h : List.Forall₂ R xs ys) (hg : ∀ x y, R x y → R x (g y)) (j : Nat) :
    List.Forall₂ R xs (ys.modify j g) := by
  induction h generalizing j with
  | nil => cases j <;> exact .nil
  | cons hxy h ih =>
    cases j with
    | zero => exact .cons (hg _ _ hxy) h
    | succ j => exact .cons hxy (ih j)

theorem forall_modify {α : Type} {P : α → Prop} {g : α → α} {xs : List α} {j : Nat}
    (h : ∀ x ∈ xs, P x) (hg : ∀ x ∈ xs, P (g x)) : ∀ x ∈ xs.modify j g, P x := by
  intro x hx
  obtain ⟨i, hi, rfl⟩ := List.getElem_of_mem hx
  rw [List.getElem_modify]
  split
  · exact hg _ (List.getElem_mem _)
  · exact h _ (List.getElem_mem _)

theorem sameFields_formatFields {fields : List (Key C × Yaml C)}
    (ih : ∀ kv ∈ fields, ∀ d y : Yaml C, Same d y → Same d (format kv.2 y))
    {fields₀ fields' : List (Key C × Yaml C)} (h : SameFields fields₀ fields') :
    SameFields fields₀ (formatFields fields fields') := by
  induction fields generalizing fields₀ fields' with
  | nil =>
    rw [formatFields]
    exact h
  | cons kv fields ihf =>
    have ihf := @ihf fun kv' hkv' => ih kv' (List.mem_cons_of_mem _ hkv')
    rw [formatFields]
    cases hpick : pick fields' kv.1.value with
    | none => exact ihf h
    | some found =>
      obtain ⟨⟨k', v'⟩, rest⟩ := found
      obtain ⟨ordered, hperm, hall⟩ := h.perm (perm_of_pick hpick).1
      cases hall with
      | cons hhead htail =>
        obtain ⟨ordered', hperm', htail'⟩ := ihf ⟨_, .refl _, htail⟩
        refine ⟨_, hperm.trans (hperm'.cons _), .cons ⟨hhead.1, ?_⟩ htail'⟩
        exact ih kv List.mem_cons_self _ _ hhead.2

theorem forall₂_formatItems {items : List (Yaml C)}
    (ih : ∀ x ∈ items, ∀ d y : Yaml C, Same d y → Same d (format x y))
    {items₀ items' : List (Yaml C)} (h : List.Forall₂ Same items₀ items') :
    List.Forall₂ Same items₀ (formatItems items items') := by
  induction items generalizing items' with
  | nil =>
    rw [formatItems]
    exact h
  | cons x items ihf =>
    have ihf := @ihf fun x' hx' => ih x' (List.mem_cons_of_mem _ hx')
    rw [formatItems]
    cases items'.findIdx? (contains x) with
    | none => exact ihf h
    | some j => exact ihf (forall₂_modify h (ih x List.mem_cons_self) j)

/-- What is common to both lists of a document's children, whether there is one or not. -/
theorem format_document_items {c c' : C} {items items' : List (Yaml C)} :
    ∃ formatted, format (.document c items) (.document c' items') = .document c formatted ∧
      ((∃ x y, items = [x] ∧ items' = [y] ∧ formatted = [format x y]) ∨
        formatted = formatItems items items') := by
  by_cases hone : items.length = 1 ∧ items'.length = 1
  · obtain ⟨x, rfl⟩ := List.length_eq_one_iff.mp hone.1
    obtain ⟨y, rfl⟩ := List.length_eq_one_iff.mp hone.2
    exact ⟨_, by rw [format], .inl ⟨x, y, rfl, rfl, rfl⟩⟩
  · exact ⟨_, format_document hone, .inr rfl⟩

/-- One copy keeps what a tree has in common with any other. -/
theorem Same.format {d y : Yaml C} (s : Yaml C) (h : Same d y) : Same d (format s y) := by
  induction s using induct generalizing d y with
  | scalar c tag value => cases h <;> simp only [Yaml.format] <;> constructor <;> assumption
  | reference c anchor => cases h <;> simp only [Yaml.format] <;> constructor <;> assumption
  | sequence c tag items ih =>
    cases h with
    | sequence hitems =>
      rw [Yaml.format]
      exact .sequence (forall₂_formatItems (fun x hx d y => ih x hx) hitems)
    | _ => simp only [Yaml.format]; constructor <;> assumption
  | mapping c tag fields ih =>
    cases h with
    | mapping hperm hkeys hvalues =>
      rw [Yaml.format, same_mapping_iff]
      exact ⟨rfl, sameFields_formatFields (fun kv hkv d y => ih kv hkv)
        ⟨_, hperm, forall₂_sameField_iff.mpr ⟨hkeys, hvalues⟩⟩⟩
    | _ => simp only [Yaml.format]; constructor <;> assumption
  | document c items ih =>
    cases h with
    | document hitems =>
      obtain ⟨formatted, heq, hformatted⟩ := format_document_items
      rw [heq]
      rcases hformatted with ⟨x, y, rfl, rfl, rfl⟩ | rfl
      · cases hitems with
        | cons hxy hnil => exact .document (.cons (ih x List.mem_cons_self hxy) hnil)
      · exact .document (forall₂_formatItems (fun x hx d y => ih x hx) hitems)
    | _ => simp only [Yaml.format]; constructor <;> assumption

/-- The copy keeps the data. -/
theorem same_format (s d : Yaml C) : Same d (format s d) := (Same.refl d).format s

/-! ## Distinct keys -/

theorem exists_of_mem_forall₂ {α β : Type} {R : α → β → Prop} {xs : List α} {ys : List β}
    (h : List.Forall₂ R xs ys) {y : β} (hy : y ∈ ys) : ∃ x ∈ xs, R x y := by
  induction h with
  | nil => cases hy
  | cons hxy h ih =>
    rcases List.mem_cons.mp hy with rfl | hy
    · exact ⟨_, List.mem_cons_self, hxy⟩
    · obtain ⟨x, hx, hR⟩ := ih hy
      exact ⟨x, List.mem_cons_of_mem _ hx, hR⟩

theorem keys_perm {fields fields' : List (Key C × Yaml C)} (h : SameFields fields fields') :
    (keys fields).Perm (keys fields') := by
  obtain ⟨ordered, hperm, hall⟩ := h
  have hkeys := congrArg (List.map Prod.snd) (forall₂_sameField_iff.mp hall).1
  rw [List.map_map, List.map_map] at hkeys
  exact (hperm.map _).trans (.of_eq hkeys)

theorem Same.distinct {d y : Yaml C} (h : Same d y) (hd : d.Distinct) : y.Distinct := by
  induction d using induct generalizing y with
  | scalar c tag value => cases h; exact .scalar
  | reference c anchor => cases h; exact .reference
  | sequence c tag items ih =>
    cases h with
    | sequence hitems =>
      cases hd with
      | sequence hd =>
        refine .sequence fun y hy => ?_
        obtain ⟨x, hx, hxy⟩ := exists_of_mem_forall₂ hitems hy
        exact ih x hx hxy (hd x hx)
  | document c items ih =>
    cases h with
    | document hitems =>
      cases hd with
      | document hd =>
        refine .document fun y hy => ?_
        obtain ⟨x, hx, hxy⟩ := exists_of_mem_forall₂ hitems hy
        exact ih x hx hxy (hd x hx)
  | mapping c tag fields ih =>
    cases y with
    | mapping c' tag' fields' =>
      cases hd with
      | mapping hnodup hd =>
        have hsame := (same_mapping_iff.mp h).2
        refine .mapping ((keys_perm hsame).nodup_iff.mp hnodup) fun kv' hkv' => ?_
        obtain ⟨ordered, hperm, hall⟩ := hsame
        obtain ⟨kv, hkv, hsame⟩ := exists_of_mem_forall₂ hall hkv'
        exact ih kv (hperm.mem_iff.mpr hkv) hsame.2 (hd kv (hperm.mem_iff.mpr hkv))
    | _ => cases h

/-! ## Comments are copied, not read -/

/-- A key with another comment. -/
def mapKey (f : C → D) (k : Key C) : Key D := ⟨f k.comments, k.tag, k.value⟩

mutual

/-- The tree with every comment replaced. -/
def map (f : C → D) : Yaml C → Yaml D
  | .scalar c tag value => .scalar (f c) tag value
  | .reference c anchor => .reference (f c) anchor
  | .sequence c tag items => .sequence (f c) tag (mapItems f items)
  | .mapping c tag fields => .mapping (f c) tag (mapFields f fields)
  | .document c items => .document (f c) (mapItems f items)

def mapItems (f : C → D) : List (Yaml C) → List (Yaml D)
  | [] => []
  | x :: items => x.map f :: mapItems f items

def mapFields (f : C → D) : List (Key C × Yaml C) → List (Key D × Yaml D)
  | [] => []
  | (k, v) :: fields => (mapKey f k, v.map f) :: mapFields f fields

end

section Map

variable {f : C → D}

theorem mapItems_eq (items : List (Yaml C)) : mapItems f items = items.map (map f) := by
  induction items with
  | nil => rw [mapItems, List.map_nil]
  | cons x items ih => rw [mapItems, ih, List.map_cons]

theorem mapFields_eq (fields : List (Key C × Yaml C)) :
    mapFields f fields = fields.map fun kv => (mapKey f kv.1, kv.2.map f) := by
  induction fields with
  | nil => rw [mapFields, List.map_nil]
  | cons kv fields ih => rw [mapFields, ih, List.map_cons]

theorem map_map {E : Type} (g : D → E) (y : Yaml C) : (y.map f).map g = y.map (g ∘ f) := by
  induction y using induct with
  | scalar c tag value => rfl
  | reference c anchor => rfl
  | sequence c tag items ih =>
    rw [map, map, map, mapItems_eq, mapItems_eq, mapItems_eq, List.map_map]
    congr 1
    exact List.map_congr_left ih
  | document c items ih =>
    rw [map, map, map, mapItems_eq, mapItems_eq, mapItems_eq, List.map_map]
    congr 1
    exact List.map_congr_left ih
  | mapping c tag fields ih =>
    rw [map, map, map, mapFields_eq, mapFields_eq, mapFields_eq, List.map_map]
    congr 1
    exact List.map_congr_left fun kv hkv => Prod.ext rfl (ih kv hkv)

theorem map_id (y : Yaml C) : y.map id = y := by
  induction y using induct with
  | scalar c tag value => rfl
  | reference c anchor => rfl
  | sequence c tag items ih =>
    rw [map, mapItems_eq, (List.map_congr_left ih).trans (List.map_id _)]
    rfl
  | document c items ih =>
    rw [map, mapItems_eq, (List.map_congr_left ih).trans (List.map_id _)]
    rfl
  | mapping c tag fields ih =>
    have hfields : mapFields id fields = fields := by
      rw [mapFields_eq]
      refine (List.map_congr_left fun kv hkv => ?_).trans (List.map_id _)
      exact Prod.ext rfl (ih kv hkv)
    rw [map, hfields]
    rfl

/-- Two comments on the same tree are the same data. -/
theorem same_map (f g : C → D) (y : Yaml C) : Same (y.map f) (y.map g) := by
  induction y using induct with
  | scalar c tag value => exact .scalar
  | reference c anchor => exact .reference
  | sequence c tag items ih =>
    rw [map, map, mapItems_eq, mapItems_eq]
    refine .sequence ?_
    rw [List.forall₂_map_left_iff, List.forall₂_map_right_iff]
    exact List.forall₂_same.mpr ih
  | document c items ih =>
    rw [map, map, mapItems_eq, mapItems_eq]
    refine .document ?_
    rw [List.forall₂_map_left_iff, List.forall₂_map_right_iff]
    exact List.forall₂_same.mpr ih
  | mapping c tag fields ih =>
    rw [map, map, mapFields_eq, mapFields_eq, same_mapping_iff]
    refine ⟨rfl, _, .refl _, ?_⟩
    rw [List.forall₂_map_left_iff, List.forall₂_map_right_iff]
    exact List.forall₂_same.mpr fun kv hkv => ⟨rfl, ih kv hkv⟩

theorem keys_mapFields (fields : List (Key C × Yaml C)) : keys (mapFields f fields) = keys fields := by
  rw [mapFields_eq, keys, List.map_map]
  rfl

theorem distinct_map {y : Yaml C} : (y.map f).Distinct ↔ y.Distinct := by
  induction y using induct with
  | scalar c tag value => exact ⟨fun _ => .scalar, fun _ => .scalar⟩
  | reference c anchor => exact ⟨fun _ => .reference, fun _ => .reference⟩
  | sequence c tag items ih =>
    rw [map, mapItems_eq]
    constructor
    · intro h
      cases h with
      | sequence h => exact .sequence fun x hx => (ih x hx).mp (h _ (List.mem_map_of_mem hx))
    · intro h
      cases h with
      | sequence h => exact .sequence (List.forall_mem_map.mpr fun x hx => (ih x hx).mpr (h x hx))
  | document c items ih =>
    rw [map, mapItems_eq]
    constructor
    · intro h
      cases h with
      | document h => exact .document fun x hx => (ih x hx).mp (h _ (List.mem_map_of_mem hx))
    · intro h
      cases h with
      | document h => exact .document (List.forall_mem_map.mpr fun x hx => (ih x hx).mpr (h x hx))
  | mapping c tag fields ih =>
    rw [map]
    constructor
    · intro h
      cases h with
      | mapping hnodup h =>
        rw [keys_mapFields] at hnodup
        rw [mapFields_eq] at h
        exact .mapping hnodup fun kv hkv => (ih kv hkv).mp (h _ (List.mem_map_of_mem hkv))
    · intro h
      cases h with
      | mapping hnodup h =>
        refine .mapping ((keys_mapFields fields).symm ▸ hnodup) ?_
        rw [mapFields_eq]
        exact List.forall_mem_map.mpr fun kv hkv => (ih kv hkv).mpr (h kv hkv)

theorem get?_mapFields (fields : List (Key C × Yaml C)) (key : String) :
    get? (mapFields f fields) key = (get? fields key).map (map f) := by
  rw [mapFields_eq, get?, List.find?_map, Option.map_map, get?, Option.map_map]
  rfl

theorem contains_map (s d : Yaml C) : contains (s.map f) (d.map f) = contains s d := by
  induction s using induct generalizing d with
  | mapping c tag fields ih =>
    cases d with
    | mapping c' tag' fields' =>
      rw [map, map, contains, contains]
      induction fields with
      | nil => rw [mapFields, containsFields, containsFields]
      | cons kv fields ihf =>
        rw [mapFields, containsFields, containsFields, get?_mapFields,
          ihf fun kv' hkv' => ih kv' (List.mem_cons_of_mem _ hkv')]
        congr 1
        rw [show (mapKey f kv.1).value = kv.1.value from rfl]
        cases get? fields' kv.1.value with
        | none => rfl
        | some v' => exact ih kv List.mem_cons_self v'
    | _ => simp only [map, contains]
  | _ => cases d <;> simp only [map, contains]

theorem pick_mapFields (fields : List (Key C × Yaml C)) (key : String) :
    pick (mapFields f fields) key =
      (pick fields key).map fun found =>
        ((mapKey f found.1.1, found.1.2.map f), mapFields f found.2) := by
  cases fields with
  | nil => rfl
  | cons first others =>
    rw [mapFields]
    have hidx : ((mapFields f others).findIdx? fun kv => kv.1.value = key) =
        others.findIdx? fun kv => kv.1.value = key := by
      rw [mapFields_eq, List.findIdx?_map]
      rfl
    simp only [pick, hidx]
    by_cases hfirst : first.1.value = key
    · rw [if_pos hfirst, if_pos (show (mapKey f first.1).value = key from hfirst), Option.map_some]
    · rw [if_neg hfirst, if_neg (show ¬ (mapKey f first.1).value = key from hfirst)]
      cases others.findIdx? fun kv => decide (kv.1.value = key) with
      | none => rfl
      | some j =>
        simp only [mapFields_eq, List.getElem?_map]
        cases others[j]? with
        | none => rfl
        | some found =>
          simp only [Option.map_some, List.map_set]

theorem mapFields_formatFields {fields : List (Key C × Yaml C)} (fields' : List (Key C × Yaml C))
    (ih : ∀ kv ∈ fields, ∀ d : Yaml C, (format kv.2 d).map f = format (kv.2.map f) (d.map f)) :
    mapFields f (formatFields fields fields') =
      formatFields (mapFields f fields) (mapFields f fields') := by
  induction fields generalizing fields' with
  | nil => rw [formatFields, mapFields, formatFields]
  | cons kv fields ihf =>
    have ihf := fun d => ihf d fun kv' hkv' => ih kv' (List.mem_cons_of_mem _ hkv')
    rw [formatFields, mapFields, formatFields, pick_mapFields]
    simp only [mapKey]
    cases pick fields' kv.1.value with
    | none => exact ihf fields'
    | some found =>
      simp only [Option.map_some, mapFields, ihf found.2, ih kv List.mem_cons_self]
      rfl

theorem mapItems_formatItems {items : List (Yaml C)} (items' : List (Yaml C))
    (ih : ∀ x ∈ items, ∀ d : Yaml C, (format x d).map f = format (x.map f) (d.map f)) :
    mapItems f (formatItems items items') =
      formatItems (mapItems f items) (mapItems f items') := by
  induction items generalizing items' with
  | nil => rw [formatItems, mapItems, formatItems]
  | cons x items ihf =>
    have ihf := fun d => ihf d fun x' hx' => ih x' (List.mem_cons_of_mem _ hx')
    have hidx : (mapItems f items').findIdx? (contains (x.map f)) =
        items'.findIdx? (contains x) := by
      rw [mapItems_eq, List.findIdx?_map]
      congr 1
      funext y
      exact contains_map x y
    rw [formatItems, mapItems, formatItems, hidx]
    cases items'.findIdx? (contains x) with
    | none => exact ihf items'
    | some j =>
      change mapItems f (formatItems items _) = formatItems _ _
      rw [ihf]
      congr 1
      rw [mapItems_eq, mapItems_eq]
      apply List.ext_getElem?
      intro i
      rw [List.getElem?_map, List.getElem?_modify, List.getElem?_modify, List.getElem?_map]
      cases items'[i]? with
      | none => split <;> rfl
      | some y =>
        split
        · exact congrArg some (ih x List.mem_cons_self y)
        · rfl

/-- Replacing comments commutes with the copy. -/
theorem map_format (s d : Yaml C) : (format s d).map f = format (s.map f) (d.map f) := by
  induction s using induct generalizing d with
  | scalar c tag value => cases d <;> simp only [map, format]
  | reference c anchor => cases d <;> simp only [map, format]
  | sequence c tag items ih =>
    cases d with
    | sequence c' tag' items' => rw [format, map, map, map, format, mapItems_formatItems items' ih]
    | _ => simp only [map, format]
  | mapping c tag fields ih =>
    cases d with
    | mapping c' tag' fields' =>
      rw [format, map, map, map, format, mapFields_formatFields fields' ih]
    | _ => simp only [map, format]
  | document c items ih =>
    cases d with
    | document c' items' =>
      by_cases hone : items.length = 1 ∧ items'.length = 1
      · obtain ⟨x, rfl⟩ := List.length_eq_one_iff.mp hone.1
        obtain ⟨y, rfl⟩ := List.length_eq_one_iff.mp hone.2
        simp only [format, map, mapItems, ih x List.mem_cons_self]
      · rw [format_document hone, map, map, map, format_document, mapItems_formatItems items' ih]
        simpa only [mapItems_eq, List.length_map] using hone
    | _ =>
      rcases items with _ | ⟨x, _ | ⟨x', rest⟩⟩ <;> simp only [map, mapItems, format]

end Map

end Nephio.Formatting.Yaml
