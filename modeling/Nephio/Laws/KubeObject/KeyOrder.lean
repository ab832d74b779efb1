import Nephio.Laws.KubeObject.Data

/-!
# Laws.KubeObject.KeyOrder: the keys of a matched mapping

A mapping that has been matched takes over the order of the source's keys: those it shares with the
source come first. Later matches of the same mapping order it again, so what counts is the last.
`label` marks each mapping of the source with its keys, and `Ordered` says of every mapping that
carries a mark that its keys stand in the order of that mark.
-/

namespace Nephio.Formatting.Yaml

variable {C : Type}

/-- A comment, and the keys of a mapping of the source. -/
abbrev Label (C : Type) := C × Option (List String)

/-- A comment without a mark. -/
def unmarked (c : C) : Label C := (c, none)

mutual

/-- The tree with each mapping marked with its own keys. -/
def label : Yaml C → Yaml (Label C)
  | .scalar c tag value => .scalar (unmarked c) tag value
  | .reference c anchor => .reference (unmarked c) anchor
  | .sequence c tag items => .sequence (unmarked c) tag (labelItems items)
  | .mapping c tag fields => .mapping (c, some (keys fields)) tag (labelFields fields)
  | .document c items => .document (unmarked c) (labelItems items)

def labelItems : List (Yaml C) → List (Yaml (Label C))
  | [] => []
  | x :: items => x.label :: labelItems items

def labelFields : List (Key C × Yaml C) → List (Key (Label C) × Yaml (Label C))
  | [] => []
  | (k, v) :: fields => (mapKey unmarked k, v.label) :: labelFields fields

end

theorem labelItems_eq (items : List (Yaml C)) : labelItems items = items.map label := by
  induction items with
  | nil => rw [labelItems, List.map_nil]
  | cons x items ih => rw [labelItems, ih, List.map_cons]

theorem labelFields_eq (fields : List (Key C × Yaml C)) :
    labelFields fields = fields.map fun kv => (mapKey unmarked kv.1, kv.2.label) := by
  induction fields with
  | nil => rw [labelFields, List.map_nil]
  | cons kv fields ih => rw [labelFields, ih, List.map_cons]

theorem keys_labelFields (fields : List (Key C × Yaml C)) :
    keys (labelFields fields) = keys fields := by
  rw [labelFields_eq, keys, List.map_map]
  rfl

/-! ## Without the marks it is the tree -/

theorem map_fst_label (y : Yaml C) : y.label.map Prod.fst = y := by
  induction y using induct with
  | scalar c tag value => rfl
  | reference c anchor => rfl
  | sequence c tag items ih =>
    rw [label, map, labelItems_eq, mapItems_eq, List.map_map]
    exact congrArg (Yaml.sequence c tag) ((List.map_congr_left ih).trans (List.map_id _))
  | document c items ih =>
    rw [label, map, labelItems_eq, mapItems_eq, List.map_map]
    exact congrArg (Yaml.document c) ((List.map_congr_left ih).trans (List.map_id _))
  | mapping c tag fields ih =>
    rw [label, map, labelFields_eq, mapFields_eq, List.map_map]
    refine congrArg (Yaml.mapping c tag) ((List.map_congr_left fun kv hkv => ?_).trans
      (List.map_id _))
    exact Prod.ext rfl (ih kv hkv)

theorem map_fst_unmarked (y : Yaml C) : (y.map unmarked).map Prod.fst = y :=
  (map_map _ _).trans (map_id y)

/-- In every mapping that carries a mark, the keys of the mark that the mapping has come first, in
the order of the mark. -/
inductive Ordered : Yaml (Label C) → Prop where
  | scalar {c : Label C} {tag value : String} : Ordered (.scalar c tag value)
  | reference {c : Label C} {anchor : String} : Ordered (.reference c anchor)
  | sequence {c : Label C} {tag : String} {items : List (Yaml (Label C))} :
    (∀ x ∈ items, Ordered x) → Ordered (.sequence c tag items)
  | mapping {c : Label C} {tag : String} {fields : List (Key (Label C) × Yaml (Label C))} :
    (∀ ks ∈ c.2, ks.filter (· ∈ keys fields) <+: keys fields) → (∀ kv ∈ fields, Ordered kv.2) →
    Ordered (.mapping c tag fields)
  | document {c : Label C} {items : List (Yaml (Label C))} :
    (∀ x ∈ items, Ordered x) → Ordered (.document c items)

theorem ordered_unmarked (y : Yaml C) : Ordered (y.map unmarked) := by
  induction y using induct with
  | scalar c tag value => exact .scalar
  | reference c anchor => exact .reference
  | sequence c tag items ih =>
    rw [map, mapItems_eq]
    exact .sequence (List.forall_mem_map.mpr ih)
  | document c items ih =>
    rw [map, mapItems_eq]
    exact .document (List.forall_mem_map.mpr ih)
  | mapping c tag fields ih =>
    rw [map, mapFields_eq]
    refine .mapping (fun ks hks => ?_) (List.forall_mem_map.mpr ih)
    cases hks

/-- One pass over the source's keys puts those that are found in front. -/
theorem isPrefix_keys_formatFields {fields : List (Key C × Yaml C)} (hnodup : (keys fields).Nodup)
    (fields' : List (Key C × Yaml C)) :
    (keys fields).filter (· ∈ keys fields') <+: keys (formatFields fields fields') := by
  induction fields generalizing fields' with
  | nil => exact List.nil_prefix
  | cons kv fields ih =>
    rw [keys, List.map_cons, List.nodup_cons] at hnodup
    change (kv.1.value :: keys fields).filter _ <+: _
    rw [formatFields]
    cases hpick : pick fields' kv.1.value with
    | none =>
      rw [List.filter_cons_of_neg (by simpa using not_mem_keys_of_pick hpick)]
      exact ih hnodup.2 fields'
    | some found =>
      obtain ⟨⟨k', v'⟩, rest⟩ := found
      obtain ⟨hperm, hkey⟩ := perm_of_pick hpick
      have hkeys : ∀ key, key ∈ keys fields' ↔ key = kv.1.value ∨ key ∈ keys rest := by
        intro key
        rw [keys, (hperm.map _).mem_iff, List.map_cons, List.mem_cons, ← hkey]
        rfl
      have hrest : (keys fields).filter (fun key => decide (key ∈ keys fields')) =
          (keys fields).filter fun key => decide (key ∈ keys rest) := by
        apply List.filter_congr
        intro key hmem
        have hne : key ≠ kv.1.value := fun heq => hnodup.1 (heq ▸ hmem)
        rw [decide_eq_decide, hkeys]
        exact or_iff_right hne
      rw [List.filter_cons_of_pos (by simpa using (hkeys _).mpr (.inl rfl)), hrest]
      change _ <+: k'.value :: keys (formatFields fields rest)
      rw [hkey, List.prefix_cons_inj]
      exact ih hnodup.2 rest

/-! ## What holds of every child after the copy -/

theorem forall_formatFields {P : Yaml C → Prop} {fields fields' : List (Key C × Yaml C)}
    (ih : ∀ kv ∈ fields, ∀ d, P d → P (format kv.2 d)) (h : ∀ kv ∈ fields', P kv.2) :
    ∀ kv ∈ formatFields fields fields', P kv.2 := by
  induction fields generalizing fields' with
  | nil =>
    rw [formatFields]
    exact h
  | cons kv fields ihf =>
    have ihf := fun d => @ihf d fun kv' hkv' => ih kv' (List.mem_cons_of_mem _ hkv')
    rw [formatFields]
    cases hpick : pick fields' kv.1.value with
    | none => exact ihf _ h
    | some found =>
      obtain ⟨⟨k', v'⟩, rest⟩ := found
      have hperm := (perm_of_pick hpick).1
      have hrest : ∀ kv ∈ rest, P kv.2 :=
        fun kv hkv => h kv (hperm.mem_iff.mpr (List.mem_cons_of_mem _ hkv))
      intro kv' hkv'
      rcases List.mem_cons.mp hkv' with rfl | hkv'
      · exact ih kv List.mem_cons_self v' (h _ (hperm.mem_iff.mpr List.mem_cons_self))
      · exact ihf _ hrest kv' hkv'

theorem forall_formatItems {P : Yaml C → Prop} {items items' : List (Yaml C)}
    (ih : ∀ x ∈ items, ∀ d, P d → P (format x d)) (h : ∀ y ∈ items', P y) :
    ∀ y ∈ formatItems items items', P y := by
  induction items generalizing items' with
  | nil =>
    rw [formatItems]
    exact h
  | cons x items ihf =>
    have ihf := fun d => @ihf d fun x' hx' => ih x' (List.mem_cons_of_mem _ hx')
    rw [formatItems]
    cases items'.findIdx? (contains x) with
    | none => exact ihf _ h
    | some j =>
      exact ihf _ (forall_modify h fun y hy => ih x List.mem_cons_self y (h y hy))

/-- **One copy orders what it matches** and leaves the rest in order. -/
theorem Ordered.format {d : Yaml (Label C)} (hd : Ordered d) {s : Yaml C} (hs : s.Distinct) :
    Ordered (s.label.format d) := by
  induction s using induct generalizing d with
  | scalar c tag value => cases hd <;> simp only [label, Yaml.format] <;> constructor <;> assumption
  | reference c anchor =>
    cases hd <;> simp only [label, Yaml.format] <;> constructor <;> assumption
  | sequence c tag items ih =>
    cases hs with
    | sequence hs =>
      cases hd with
      | sequence hd =>
        rw [label, labelItems_eq, Yaml.format]
        refine .sequence (forall_formatItems (List.forall_mem_map.mpr fun x hx d hd => ?_) hd)
        exact ih x hx hd (hs x hx)
      | _ => simp only [label, Yaml.format]; constructor <;> assumption
  | mapping c tag fields ih =>
    cases hs with
    | mapping hnodup hs =>
      cases hd with
      | mapping hmark hd =>
        rename_i c' tag' fields'
        rw [label, Yaml.format]
        refine .mapping (fun ks hks => ?_) ?_
        · -- the mark is that of this copy: the keys found are in front
          obtain rfl : keys fields = ks := Option.some.inj hks
          have hpre := isPrefix_keys_formatFields (keys_labelFields fields ▸ hnodup) fields'
          have hsame : SameFields fields' (formatFields (labelFields fields) fields') :=
            sameFields_formatFields (fun kv _ d y h => h.format kv.2)
              ⟨fields', .refl _, List.forall₂_same.mpr fun kv _ => ⟨rfl, .refl _⟩⟩
          rw [keys_labelFields] at hpre
          have hmem : (fun key => decide (key ∈ keys (formatFields (labelFields fields) fields'))) =
              fun key => decide (key ∈ keys fields') := by
            funext key
            rw [decide_eq_decide]
            exact (keys_perm hsame).mem_iff.symm
          rw [hmem]
          exact hpre
        · refine forall_formatFields ?_ hd
          rw [labelFields_eq]
          exact List.forall_mem_map.mpr fun kv hkv d hd => ih kv hkv hd (hs kv hkv)
      | _ => simp only [label, Yaml.format]; constructor <;> assumption
  | document c items ih =>
    cases hs with
    | document hs =>
      cases hd with
      | document hd =>
        have ih : ∀ x ∈ items.map label, ∀ d, Ordered d → Ordered (x.format d) :=
          List.forall_mem_map.mpr fun x hx d hd => ih x hx hd (hs x hx)
        rw [label, labelItems_eq]
        obtain ⟨formatted, heq, hformatted⟩ := format_document_items
        rw [heq]
        rcases hformatted with ⟨x, y, hx, rfl, rfl⟩ | rfl
        · rw [hx] at ih
          refine .document (List.forall_mem_singleton.mpr ?_)
          exact ih x List.mem_cons_self y (hd y List.mem_cons_self)
        · exact .document (forall_formatItems ih hd)
      | _ =>
        rcases items with _ | ⟨x, _ | ⟨x', rest⟩⟩ <;> simp only [label, labelItems, Yaml.format] <;>
          constructor <;> assumption

end Nephio.Formatting.Yaml
