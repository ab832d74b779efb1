import Nephio.Laws.KubeObject.Data

/-!
# Laws.KubeObject.Restore: an update that changes nothing

Writing an unchanged Go value gives a tree with the data of the old one, its comments dropped and
the keys of its mappings in another order (`Stripped`). Copying the formatting of the old tree is to
give the old tree back.

It does so for mappings. A list item, though, is matched with the first item that contains it, and
that need not be its own place: an item that an earlier item contains is given no formatting, and
the earlier item is given that of the two. The tree comes back whatever comments it carries exactly
when no list has an item that an earlier item contains (`keeps_formatting_iff`).
-/

namespace Nephio.Formatting.Yaml

variable {C D : Type}

/-! ## Containment reads data only -/

theorem get?_eq_some_iff {fields : List (Key C × Yaml C)} (hnodup : (keys fields).Nodup)
    {key : String} {v : Yaml C} :
    get? fields key = some v ↔ ∃ k, (k, v) ∈ fields ∧ k.value = key := by
  rw [get?, Option.map_eq_some_iff]
  constructor
  · rintro ⟨kv, hfind, rfl⟩
    exact ⟨kv.1, List.mem_of_find?_eq_some hfind, by simpa using List.find?_some hfind⟩
  · rintro ⟨k, hmem, rfl⟩
    refine ⟨(k, v), ?_, rfl⟩
    induction fields with
    | nil => cases hmem
    | cons kv fields ih =>
      rw [keys, List.map_cons, List.nodup_cons] at hnodup
      rcases List.mem_cons.mp hmem with rfl | hmem
      · exact List.find?_cons_of_pos (by simp)
      · have hne : kv.1.value ≠ k.value :=
          fun heq => hnodup.1 (heq ▸ List.mem_map_of_mem (f := fun kv => kv.1.value) hmem)
        rw [List.find?_cons_of_neg (by simpa using hne)]
        exact ih hnodup.2 hmem

theorem containsFields_iff {fields fields' : List (Key C × Yaml C)} :
    containsFields fields fields' = true ↔
      ∀ kv ∈ fields, ∃ v', get? fields' kv.1.value = some v' ∧ contains kv.2 v' = true := by
  induction fields with
  | nil => simp [containsFields]
  | cons kv fields ih =>
    rw [containsFields, Bool.and_eq_true, ih, List.forall_mem_cons]
    refine and_congr_left fun _ => ?_
    cases get? fields' kv.1.value <;> simp

theorem contains_refl {y : Yaml C} (h : y.Distinct) : contains y y = true := by
  induction y using induct with
  | mapping c tag fields ih =>
    cases h with
    | mapping hnodup hfields =>
      rw [contains, containsFields_iff]
      intro kv hkv
      exact ⟨kv.2, (get?_eq_some_iff hnodup).mpr ⟨kv.1, hkv, rfl⟩, ih kv hkv (hfields kv hkv)⟩
  | _ => simp [contains]

theorem contains_trans {x y z : Yaml C} (hxy : contains x y = true) (hyz : contains y z = true) :
    contains x z = true := by
  induction x using induct generalizing y z with
  | scalar c tag value =>
    cases y with
    | scalar c' tag' value' =>
      cases z with
      | scalar c'' tag'' value'' =>
        simp only [contains, decide_eq_true_eq] at hxy hyz ⊢
        exact hxy.trans hyz
      | _ => simp [contains] at hyz
    | _ => simp [contains] at hxy
  | mapping c tag fields ih =>
    cases y with
    | mapping c' tag' fields' =>
      cases z with
      | mapping c'' tag'' fields'' =>
        rw [contains, containsFields_iff] at hxy hyz ⊢
        intro kv hkv
        obtain ⟨v', hv', hcontains⟩ := hxy kv hkv
        obtain ⟨kv', hfind, rfl⟩ := Option.map_eq_some_iff.mp hv'
        have hkey : kv'.1.value = kv.1.value := by simpa using List.find?_some hfind
        obtain ⟨v'', hv'', hcontains'⟩ := hyz kv' (List.mem_of_find?_eq_some hfind)
        exact ⟨v'', hkey ▸ hv'', ih kv hkv hcontains hcontains'⟩
      | _ => simp [contains] at hyz
    | _ => simp [contains] at hxy
  | _ => cases y <;> cases z <;> simp [contains] at hxy hyz ⊢

/-- What contains an item, or not, is seen on its data. -/
theorem contains_congr {x d y : Yaml C} (hd : d.Distinct) (h : Same d y) :
    contains x y = contains x d := by
  induction x using induct generalizing d y with
  | mapping c tag fields ih =>
    cases hd with
    | mapping hnodup hfields =>
      cases y with
      | mapping c' tag' fields' =>
        have hsame := (same_mapping_iff.mp h).2
        have hnodup' := (keys_perm hsame).nodup_iff.mp hnodup
        obtain ⟨ordered, hperm, hall⟩ := hsame
        rw [contains, contains, Bool.eq_iff_iff, containsFields_iff, containsFields_iff]
        refine forall₂_congr fun kv hkv => ?_
        constructor
        · rintro ⟨v', hv', hcontains⟩
          obtain ⟨k', hmem', hkey⟩ := (get?_eq_some_iff hnodup').mp hv'
          obtain ⟨kv₀, hmem, hsame⟩ := exists_of_mem_forall₂ hall hmem'
          have hmem := hperm.mem_iff.mpr hmem
          refine ⟨kv₀.2, (get?_eq_some_iff hnodup).mpr ⟨kv₀.1, hmem, ?_⟩, ?_⟩
          · exact (congrArg Prod.snd hsame.1).trans hkey
          · rw [← ih kv hkv (hfields kv₀ hmem) hsame.2]
            exact hcontains
        · rintro ⟨v, hv, hcontains⟩
          obtain ⟨k, hmem, hkey⟩ := (get?_eq_some_iff hnodup).mp hv
          obtain ⟨kv', hmem', hsame⟩ :=
            exists_of_mem_forall₂ (List.Forall₂.flip hall) (hperm.mem_iff.mp hmem)
          refine ⟨kv'.2, (get?_eq_some_iff hnodup').mpr ⟨kv'.1, hmem', ?_⟩, ?_⟩
          · exact (congrArg Prod.snd hsame.1).symm.trans hkey
          · rw [ih kv hkv (hfields _ hmem) hsame.2]
            exact hcontains
      | _ => cases h
    | _ =>
      cases h
      simp [contains]
  | _ => cases h <;> simp [contains]

/-! ## Lists in which no item is contained in an earlier one -/

/-- No list has an item that an earlier item contains. -/
inductive Apart : Yaml C → Prop where
  | scalar {c : C} {tag value : String} : Apart (.scalar c tag value)
  | reference {c : C} {anchor : String} : Apart (.reference c anchor)
  | sequence {c : C} {tag : String} {items : List (Yaml C)} :
    items.Pairwise (fun x y => contains y x = false) → (∀ x ∈ items, Apart x) →
    Apart (.sequence c tag items)
  | mapping {c : C} {tag : String} {fields : List (Key C × Yaml C)} :
    (∀ kv ∈ fields, Apart kv.2) → Apart (.mapping c tag fields)
  | document {c : C} {items : List (Yaml C)} :
    items.Pairwise (fun x y => contains y x = false) → (∀ x ∈ items, Apart x) →
    Apart (.document c items)

theorem modify_length_append {α : Type} (g : α → α) (done : List α) (y : α) (ys : List α) :
    (done ++ y :: ys).modify done.length g = done ++ g y :: ys := by
  induction done with
  | nil => rfl
  | cons x done ih => exact congrArg (x :: ·) ih

/-- There each item is matched with its own place. The first items are already in place. -/
theorem formatItems_append {done items items' : List (Yaml C)}
    (hdone : ∀ x ∈ items, ∀ y ∈ done, contains x y = false)
    (hapart : items.Pairwise fun x y => contains y x = false) (hdistinct : ∀ x ∈ items, x.Distinct)
    (hsame : List.Forall₂ Same items items') :
    formatItems items (done ++ items') = done ++ List.zipWith format items items' := by
  induction hsame generalizing done with
  | nil => rw [formatItems, List.zipWith_nil_left]
  | @cons x y items items' hxy hsame ih =>
    rw [List.pairwise_cons] at hapart
    have hx := hdistinct x List.mem_cons_self
    have hidx : (done ++ y :: items').findIdx? (contains x) = some done.length := by
      rw [List.findIdx?_append, List.findIdx?_eq_none_iff.mpr (hdone x List.mem_cons_self),
        List.findIdx?_cons, contains_congr hx hxy, contains_refl hx]
      simp
    have hmodify : (done ++ y :: items').modify done.length (format x) =
        (done ++ [format x y]) ++ items' := by
      rw [modify_length_append, List.append_assoc]
      rfl
    have hrest := @ih (done ++ [format x y])
      (fun x' hx' y' hy' => by
        rcases List.mem_append.mp hy' with hy' | hy'
        · exact hdone x' (List.mem_cons_of_mem _ hx') y' hy'
        · rw [List.mem_singleton.mp hy', contains_congr hx (hxy.format x)]
          exact hapart.1 x' hx')
      hapart.2 (fun x' hx' => hdistinct x' (List.mem_cons_of_mem _ hx'))
    simp only [formatItems, hidx, hmodify, hrest]
    rw [List.append_assoc, List.zipWith_cons_cons]
    rfl

theorem formatItems_of_pairwise {items items' : List (Yaml C)}
    (hapart : items.Pairwise fun x y => contains y x = false) (hdistinct : ∀ x ∈ items, x.Distinct)
    (hsame : List.Forall₂ Same items items') :
    formatItems items items' = List.zipWith format items items' :=
  @formatItems_append _ [] _ _ (fun _ _ _ hy => absurd hy List.not_mem_nil) hapart hdistinct hsame

/-! ## The copy that restores -/

theorem zipWith_eq_left {α β : Type} {R : α → β → Prop} {g : α → β → α} {xs : List α}
    {ys : List β} (h : List.Forall₂ R xs ys) (hg : ∀ x ∈ xs, ∀ y, R x y → g x y = x) :
    List.zipWith g xs ys = xs := by
  induction h with
  | nil => rfl
  | cons hxy h ih =>
    rw [List.zipWith_cons_cons, hg _ List.mem_cons_self _ hxy,
      ih fun x hx => hg x (List.mem_cons_of_mem _ hx)]

theorem formatFields_eq_left {fields : List (Key C × Yaml C)} (hnodup : (keys fields).Nodup)
    (ih : ∀ kv ∈ fields, ∀ d, Same kv.2 d → format kv.2 d = kv.2)
    {fields' : List (Key C × Yaml C)} (h : SameFields fields fields') :
    formatFields fields fields' = fields := by
  induction fields generalizing fields' with
  | nil =>
    obtain ⟨ordered, hperm, hall⟩ := h
    rw [List.nil_perm.mp hperm, List.forall₂_nil_left_iff] at hall
    rw [hall, formatFields]
  | cons kv fields ihf =>
    have hmem : kv.1.value ∈ keys fields' := (keys_perm h).mem_iff.mp List.mem_cons_self
    rw [formatFields]
    cases hpick : pick fields' kv.1.value with
    | none => exact absurd hmem (not_mem_keys_of_pick hpick)
    | some found =>
      obtain ⟨⟨k', v'⟩, rest⟩ := found
      obtain ⟨hperm', hkey⟩ := perm_of_pick hpick
      obtain ⟨ordered, hperm, hall⟩ := h.perm hperm'
      cases hall with
      | @cons first _ others _ hfirst hothers =>
        -- the field that was picked is the one with this key
        have hkv : first = kv := by
          have hvalue : first.1.value = kv.1.value := (congrArg Prod.snd hfirst.1).trans hkey
          exact List.inj_on_of_nodup_map hnodup (hperm.mem_iff.mpr List.mem_cons_self)
            List.mem_cons_self hvalue
        subst hkv
        rw [keys, List.map_cons, List.nodup_cons] at hnodup
        have hkey' : ({ k' with comments := first.1.comments } : Key C) = first.1 := by
          have htag : first.1.tag = k'.tag := congrArg Prod.fst hfirst.1
          have hvalue : first.1.value = k'.value := congrArg Prod.snd hfirst.1
          rw [← htag, ← hvalue]
        have hrest := ihf hnodup.2 (fun kv' hkv' => ih kv' (List.mem_cons_of_mem _ hkv'))
          ⟨others, hperm.cons_inv, hothers⟩
        simp only [hrest, hkey', ih first List.mem_cons_self v' hfirst.2]

/-- **Nothing is lost where no item is contained in an earlier one.** -/
theorem format_eq_left {src dst : Yaml C} (hdistinct : src.Distinct) (hapart : src.Apart)
    (h : Same src dst) : format src dst = src := by
  induction src using induct generalizing dst with
  | scalar c tag value => cases h; rw [format]
  | reference c anchor => cases h; rw [format]
  | sequence c tag items ih =>
    cases hdistinct with
    | sequence hdistinct =>
      cases hapart with
      | sequence hpairwise hapart =>
        cases h with
        | sequence hitems =>
          rw [format, formatItems_of_pairwise hpairwise hdistinct hitems, zipWith_eq_left hitems]
          intro x hx y hxy
          exact ih x hx (hdistinct x hx) (hapart x hx) hxy
  | mapping c tag fields ih =>
    cases hdistinct with
    | mapping hnodup hdistinct =>
      cases hapart with
      | mapping hapart =>
        cases dst with
        | mapping c' tag' fields' =>
          obtain ⟨rfl, hsame⟩ := same_mapping_iff.mp h
          rw [format, formatFields_eq_left hnodup _ hsame]
          intro kv hkv d hd
          exact ih kv hkv (hdistinct kv hkv) (hapart kv hkv) hd
        | _ => cases h
  | document c items ih =>
    cases hdistinct with
    | document hdistinct =>
      cases hapart with
      | document hpairwise hapart =>
        cases h with
        | document hitems =>
          have ih : ∀ x ∈ items, ∀ y, Same x y → format x y = x :=
            fun x hx y hxy => ih x hx (hdistinct x hx) (hapart x hx) hxy
          obtain ⟨formatted, heq, hformatted⟩ := format_document_items
          rw [heq]
          rcases hformatted with ⟨x, y, rfl, rfl, rfl⟩ | rfl
          · cases hitems with
            | cons hxy _ => rw [ih x List.mem_cons_self y hxy]
          · rw [formatItems_of_pairwise hpairwise hdistinct hitems, zipWith_eq_left hitems ih]

/-! ## What is lost otherwise -/

/-- An item is covered where whatever it contains is contained in an earlier item. -/
def Covered (items : List (Yaml C)) (m : Nat) : Prop :=
  ∃ l < m, ∃ y y', items[m]? = some y ∧ items[l]? = some y' ∧
    ∀ x, contains x y = true → contains x y' = true

/-- No match reaches a covered item. -/
theorem getElem?_formatItems_covered (items : List (Yaml C)) {items' : List (Yaml C)} {m : Nat}
    (hdistinct : ∀ y ∈ items', y.Distinct) (hcovered : Covered items' m) :
    (formatItems items items')[m]? = items'[m]? := by
  induction items generalizing items' with
  | nil => rw [formatItems]
  | cons x items ih =>
    rw [formatItems]
    cases hidx : items'.findIdx? (contains x) with
    | none => exact ih hdistinct hcovered
    | some j =>
      obtain ⟨l, hlm, y, y', hy, hy', hcontains⟩ := hcovered
      obtain ⟨hj, hjx, hfirst⟩ := List.findIdx?_eq_some_iff_getElem.mp hidx
      -- the item before it would have been found first
      have hne : j ≠ m := by
        rintro rfl
        obtain ⟨_, rfl⟩ := List.getElem?_eq_some_iff.mp hy
        obtain ⟨_, rfl⟩ := List.getElem?_eq_some_iff.mp hy'
        exact hfirst l hlm (hcontains x hjx)
      have hm : (items'.modify j (format x))[m]? = some y := by
        simp only [List.getElem?_modify, hne, if_false, hy, Option.map_eq_map, Option.map_some]
      have hsame : ∀ y ∈ items', ∀ z, contains z (format x y) = contains z y :=
        fun y hy z => contains_congr (hdistinct y hy) (same_format x y)
      refine (ih ?_ ?_).trans (hm.trans hy.symm)
      · exact forall_modify hdistinct fun y hy =>
          (same_format x y).distinct (hdistinct y hy)
      · refine ⟨l, hlm, y, if j = l then format x y' else y', hm, ?_, fun z hz => ?_⟩
        · rw [List.getElem?_modify, hy']
          split <;> rfl
        · split
          · rw [hsame y' (List.mem_of_getElem? hy')]
            exact hcontains z hz
          · exact hcontains z hz

theorem map_const_ne {a b : D} (hab : a ≠ b) (y : Yaml C) :
    y.map (fun _ => a) ≠ y.map fun _ => b := by
  cases y <;> simp [map, hab]

/-- Where the items come back with a comment each, none of them is contained in an earlier one, and
each comes back by itself. -/
theorem pairwise_of_formatItems {a b : D} (hab : a ≠ b) {items : List (Yaml C)}
    (hdistinct : ∀ x ∈ items, x.Distinct)
    (h : formatItems (mapItems (fun _ => a) items) (mapItems (fun _ => b) items) =
      mapItems (fun _ => a) items) :
    items.Pairwise (fun x y => contains y x = false) ∧
      ∀ x ∈ items, format (x.map fun _ => a) (x.map fun _ => b) = x.map fun _ => a := by
  rw [mapItems_eq, mapItems_eq] at h
  have hdistinct' : ∀ (c : D), ∀ x ∈ items.map (map fun _ => c), x.Distinct :=
    fun c => List.forall_mem_map.mpr fun x hx => distinct_map.mpr (hdistinct x hx)
  have hpairwise : items.Pairwise fun x y => contains y x = false := by
    rw [List.pairwise_iff_getElem]
    intro i j hi hj hij
    by_contra hcontains
    have hcovered : Covered (items.map (map fun _ => b)) j := by
      refine ⟨i, hij, items[j].map fun _ => b, items[i].map fun _ => b, ?_, ?_, fun x hx => ?_⟩
      · rw [List.getElem?_map, List.getElem?_eq_getElem hj]
        rfl
      · rw [List.getElem?_map, List.getElem?_eq_getElem hi]
        rfl
      · refine contains_trans hx ?_
        rw [contains_map]
        simpa using hcontains
    have huntouched := getElem?_formatItems_covered (items.map (map fun _ => a))
      (hdistinct' b) hcovered
    rw [h, List.getElem?_map, List.getElem?_map, List.getElem?_eq_getElem hj] at huntouched
    exact map_const_ne hab _ (Option.some.inj huntouched)
  refine ⟨hpairwise, ?_⟩
  rw [formatItems_of_pairwise _ (hdistinct' a), List.zipWith_map, List.zipWith_self] at h
  · exact List.map_inj_left.mp h
  · rw [List.forall₂_map_left_iff, List.forall₂_map_right_iff]
    exact List.forall₂_same.mpr fun x _ => same_map _ _ x
  · rw [List.pairwise_map]
    exact hpairwise.imp fun hxy => by rw [contains_map]; exact hxy

theorem formatFields_mapFields (f g : C → D) (fields : List (Key C × Yaml C)) :
    formatFields (mapFields f fields) (mapFields g fields) =
      fields.map fun kv => (mapKey f kv.1, format (kv.2.map f) (kv.2.map g)) := by
  induction fields with
  | nil => rw [mapFields, formatFields, mapFields, List.map_nil]
  | cons kv fields ih =>
    have hpick : pick ((mapKey g kv.1, kv.2.map g) :: mapFields g fields) (mapKey f kv.1).value =
        some ((mapKey g kv.1, kv.2.map g), mapFields g fields) := by
      exact if_pos rfl
    rw [mapFields, mapFields, formatFields, hpick, List.map_cons, ← ih]
    rfl

/-- A tree that comes back with a comment on every node. -/
theorem apart_of_format {a b : D} (hab : a ≠ b) {src : Yaml C} (hdistinct : src.Distinct)
    (h : format (src.map fun _ => a) (src.map fun _ => b) = src.map fun _ => a) : src.Apart := by
  induction src using induct with
  | scalar c tag value => exact .scalar
  | reference c anchor => exact .reference
  | sequence c tag items ih =>
    cases hdistinct with
    | sequence hdistinct =>
      rw [map, map, format, Yaml.sequence.injEq] at h
      obtain ⟨hpairwise, hitems⟩ := pairwise_of_formatItems hab hdistinct h.2.2
      exact .sequence hpairwise fun x hx => ih x hx (hdistinct x hx) (hitems x hx)
  | mapping c tag fields ih =>
    cases hdistinct with
    | mapping _ hdistinct =>
      rw [map, map, format, formatFields_mapFields, mapFields_eq, Yaml.mapping.injEq] at h
      refine .mapping fun kv hkv => ih kv hkv (hdistinct kv hkv) ?_
      exact congrArg Prod.snd (List.map_inj_left.mp h.2.2 kv hkv)
  | document c items ih =>
    cases hdistinct with
    | document hdistinct =>
      by_cases hone : items.length = 1
      · obtain ⟨x, rfl⟩ := List.length_eq_one_iff.mp hone
        simp only [map, mapItems, format, Yaml.document.injEq, List.cons.injEq, true_and,
          and_true] at h
        refine .document (List.pairwise_singleton _ _) (List.forall_mem_singleton.mpr ?_)
        exact ih x List.mem_cons_self (hdistinct x List.mem_cons_self) h
      · rw [map, map, format_document, Yaml.document.injEq] at h
        · obtain ⟨hpairwise, hitems⟩ := pairwise_of_formatItems hab hdistinct h.2
          exact .document hpairwise fun x hx => ih x hx (hdistinct x hx) (hitems x hx)
        · rw [mapItems_eq, List.length_map]
          exact fun hlen => hone hlen.1

/-! ## Whatever the comments -/

theorem pairwise_mapItems {f : C → D} {items : List (Yaml C)} :
    (mapItems f items).Pairwise (fun x y => contains y x = false) ↔
      items.Pairwise fun x y => contains y x = false := by
  rw [mapItems_eq, List.pairwise_map]
  simp only [contains_map]

theorem apart_map {f : C → D} {y : Yaml C} : (y.map f).Apart ↔ y.Apart := by
  induction y using induct with
  | scalar c tag value => exact ⟨fun _ => .scalar, fun _ => .scalar⟩
  | reference c anchor => exact ⟨fun _ => .reference, fun _ => .reference⟩
  | sequence c tag items ih =>
    rw [map]
    constructor
    · intro h
      cases h with
      | sequence hpairwise h =>
        rw [mapItems_eq] at h
        exact .sequence (pairwise_mapItems.mp hpairwise) fun x hx =>
          (ih x hx).mp (h _ (List.mem_map_of_mem hx))
    · intro h
      cases h with
      | sequence hpairwise h =>
        refine .sequence (pairwise_mapItems.mpr hpairwise) ?_
        rw [mapItems_eq]
        exact List.forall_mem_map.mpr fun x hx => (ih x hx).mpr (h x hx)
  | document c items ih =>
    rw [map]
    constructor
    · intro h
      cases h with
      | document hpairwise h =>
        rw [mapItems_eq] at h
        exact .document (pairwise_mapItems.mp hpairwise) fun x hx =>
          (ih x hx).mp (h _ (List.mem_map_of_mem hx))
    · intro h
      cases h with
      | document hpairwise h =>
        refine .document (pairwise_mapItems.mpr hpairwise) ?_
        rw [mapItems_eq]
        exact List.forall_mem_map.mpr fun x hx => (ih x hx).mpr (h x hx)
  | mapping c tag fields ih =>
    rw [map, mapFields_eq]
    constructor
    · intro h
      cases h with
      | mapping h => exact .mapping fun kv hkv => (ih kv hkv).mp (h _ (List.mem_map_of_mem hkv))
    · intro h
      cases h with
      | mapping h => exact .mapping (List.forall_mem_map.mpr fun kv hkv => (ih kv hkv).mpr (h kv hkv))

/-- The tree without comments. -/
def data (y : Yaml C) : Yaml Unit := y.map fun _ => ()

/-- What marshalling an unchanged value gives: the comments are dropped, and keys may stand in
another order. -/
def Stripped (src dst : Yaml Comments) : Prop := Same src dst ∧ dst.map (fun _ => {}) = dst

/-- **An update that changes nothing keeps the formatting**, whatever the comments on the tree, if
and only if no list has an item that an earlier item contains. -/
theorem keeps_formatting_iff (tree : Yaml Unit) (htree : tree.Distinct) :
    (∀ src dst : Yaml Comments, src.data = tree → Stripped src dst →
      deepCopyFormatting src.toNode dst.toNode = .ok src.toNode) ↔ tree.Apart := by
  constructor
  · intro h
    have hcopy := h (tree.map fun _ => { headComment := "#" }) (tree.map fun _ => {})
      ((map_map _ _).trans (map_id tree)) ⟨same_map _ _ _, map_map _ _⟩
    rw [deepCopyFormatting_toNode] at hcopy
    exact apart_of_format (by decide) htree (toNode_inj (Except.ok.inj hcopy))
  · rintro hapart src dst rfl ⟨hsame, -⟩
    rw [deepCopyFormatting_toNode,
      format_eq_left (distinct_map.mp htree) (apart_map.mp hapart) hsame]

/-- A list `a, b` of scalars. -/
theorem keeps_formatting_of_two_scalars :
    (Yaml.sequence () "!!seq" [.scalar () "!!str" "a", .scalar () "!!str" "b"]).Distinct ∧
    ∀ src dst : Yaml Comments,
      src.data = .sequence () "!!seq" [.scalar () "!!str" "a", .scalar () "!!str" "b"] →
      Stripped src dst → deepCopyFormatting src.toNode dst.toNode = .ok src.toNode := by
  have hscalars : ∀ x ∈ [Yaml.scalar () "!!str" "a", .scalar () "!!str" "b"],
      x.Distinct ∧ x.Apart := by
    intro x hx
    rcases List.mem_cons.mp hx with rfl | hx
    · exact ⟨.scalar, .scalar⟩
    · rw [List.mem_singleton.mp hx]
      exact ⟨.scalar, .scalar⟩
  have hdistinct : (Yaml.sequence () "!!seq"
      [.scalar () "!!str" "a", .scalar () "!!str" "b"]).Distinct :=
    .sequence fun x hx => (hscalars x hx).1
  refine ⟨hdistinct, (keeps_formatting_iff _ hdistinct).mpr (.sequence ?_ fun x hx =>
    (hscalars x hx).2)⟩
  simp [contains]

/-- The second of two equal items loses its comment to the first. -/
theorem repeated_item_loses_comment :
    let src : Yaml Comments := .sequence {} "!!seq"
      [.scalar { lineComment := "# one" } "!!str" "a", .scalar { lineComment := "# two" } "!!str" "a"]
    let dst : Yaml Comments := .sequence {} "!!seq"
      [.scalar {} "!!str" "a", .scalar {} "!!str" "a"]
    src.Distinct ∧ Stripped src dst ∧
      deepCopyFormatting src.toNode dst.toNode =
        .ok (Yaml.sequence {} "!!seq"
          [.scalar { lineComment := "# two" } "!!str" "a", .scalar {} "!!str" "a"]).toNode ∧
      deepCopyFormatting src.toNode dst.toNode ≠ .ok src.toNode := by
  intro src dst
  have hcopy : src.format dst = .sequence {} "!!seq"
      [.scalar { lineComment := "# two" } "!!str" "a", .scalar {} "!!str" "a"] := by
    rfl
  refine ⟨.sequence ?_, ⟨.sequence (.cons .scalar (.cons .scalar .nil)), rfl⟩, ?_, ?_⟩
  · intro x hx
    rcases List.mem_cons.mp hx with rfl | hx
    · exact .scalar
    · rw [List.mem_singleton.mp hx]
      exact .scalar
  · rw [deepCopyFormatting_toNode, hcopy]
  · rw [deepCopyFormatting_toNode, hcopy]
    intro h
    have := toNode_inj (Except.ok.inj h)
    simp [src] at this

end Nephio.Formatting.Yaml
