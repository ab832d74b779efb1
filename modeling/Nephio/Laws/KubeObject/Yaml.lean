import Nephio.KubeObject.Formatting

/-!
# Laws.KubeObject.Yaml: trees whose mappings have keys and values

A mapping node of the parser holds its keys and values in one list. `Yaml` holds them as pairs, with
string scalars for keys, so that a mapping with an odd number of children cannot be built. On such
trees the copy is a total function, `format`, and `deepCopyFormatting` computes it without a panic
(`deepCopyFormatting_toNode`).
-/

namespace Nephio.Formatting

/-- The tags of a string key. -/
inductive KeyTag where
  | str
  | none
deriving DecidableEq, Repr

def KeyTag.text : KeyTag → String
  | .str => "!!str"
  | .none => ""

/-- A key node. -/
structure Key (C : Type) where
  comments : C
  tag : KeyTag := .str
  value : String
deriving DecidableEq, Repr

/-- A YAML tree. -/
inductive Yaml (C : Type) where
  | scalar (comments : C) (tag value : String)
  | reference (comments : C) (anchor : String)
  | sequence (comments : C) (tag : String) (items : List (Yaml C))
  | mapping (comments : C) (tag : String) (fields : List (Key C × Yaml C))
  | document (comments : C) (items : List (Yaml C))
deriving Repr

namespace Yaml

variable {C D : Type}

/-- Induction with the hypothesis for every child. -/
theorem induct {motive : Yaml C → Prop}
    (scalar : ∀ c tag value, motive (.scalar c tag value))
    (reference : ∀ c anchor, motive (.reference c anchor))
    (sequence : ∀ c tag items, (∀ x ∈ items, motive x) → motive (.sequence c tag items))
    (mapping : ∀ c tag fields, (∀ kv ∈ fields, motive kv.2) → motive (.mapping c tag fields))
    (document : ∀ c items, (∀ x ∈ items, motive x) → motive (.document c items)) :
    ∀ y, motive y
  | .scalar c tag value => scalar c tag value
  | .reference c anchor => reference c anchor
  | .sequence c tag items =>
    sequence c tag items fun x _ => induct scalar reference sequence mapping document x
  | .mapping c tag fields =>
    mapping c tag fields fun kv _ => induct scalar reference sequence mapping document kv.2
  | .document c items =>
    document c items fun x _ => induct scalar reference sequence mapping document x
termination_by y => sizeOf y
decreasing_by
  · have := List.sizeOf_lt_of_mem ‹x ∈ items›
    simp only [Yaml.sequence.sizeOf_spec]
    omega
  · have := List.sizeOf_lt_of_mem ‹kv ∈ fields›
    have : sizeOf kv = 1 + sizeOf kv.1 + sizeOf kv.2 := rfl
    simp only [Yaml.mapping.sizeOf_spec]
    omega
  · have := List.sizeOf_lt_of_mem ‹x ∈ items›
    simp only [Yaml.document.sizeOf_spec]
    omega

/-! ## The nodes of a tree -/

/-- The key node. -/
def keyNode (k : Key C) : Node C := .scalarNode k.comments k.tag.text k.value

mutual

/-- The tree as the parser holds it. -/
def toNode : Yaml C → Node C
  | .scalar c tag value => .scalarNode c tag value
  | .reference c anchor => .aliasNode c anchor
  | .sequence c tag items => .sequenceNode c tag (itemNodes items)
  | .mapping c tag fields => .mappingNode c tag (fieldNodes fields)
  | .document c items => .documentNode c (itemNodes items)

def itemNodes : List (Yaml C) → List (Node C)
  | [] => []
  | x :: items => x.toNode :: itemNodes items

/-- Keys and values in turn. -/
def fieldNodes : List (Key C × Yaml C) → List (Node C)
  | [] => []
  | (k, v) :: fields => keyNode k :: v.toNode :: fieldNodes fields

end

mutual

/-- Every mapping has an even number of children, and strings for keys. -/
def keyed : Node C → Bool
  | .scalarNode .. => true
  | .aliasNode .. => true
  | .sequenceNode _ _ content => itemsKeyed content
  | .mappingNode _ _ content => fieldsKeyed content
  | .documentNode _ content => itemsKeyed content

def itemsKeyed : List (Node C) → Bool
  | [] => true
  | x :: content => keyed x && itemsKeyed content

def fieldsKeyed : List (Node C) → Bool
  | [] => true
  | [_] => false
  | k :: v :: content => (asString k).isSome && keyed v && fieldsKeyed content

end

theorem exists_keyNode {n : Node C} (h : (asString n).isSome) : ∃ k : Key C, keyNode k = n := by
  cases n with
  | scalarNode c tag value =>
    rw [asString] at h
    split at h
    · rename_i htag
      rcases htag with rfl | rfl
      · exact ⟨⟨c, .str, value⟩, rfl⟩
      · exact ⟨⟨c, .none, value⟩, rfl⟩
    · cases h
  | _ => cases h

mutual

/-- The trees are all the nodes of that form. -/
theorem exists_toNode : ∀ n : Node C, keyed n → ∃ y : Yaml C, y.toNode = n
  | .scalarNode c tag value, _ => ⟨.scalar c tag value, by rw [toNode]⟩
  | .aliasNode c value, _ => ⟨.reference c value, by rw [toNode]⟩
  | .sequenceNode c tag content, h => by
    rw [keyed] at h
    obtain ⟨items, rfl⟩ := exists_itemNodes content h
    exact ⟨.sequence c tag items, by rw [toNode]⟩
  | .mappingNode c tag content, h => by
    rw [keyed] at h
    obtain ⟨fields, rfl⟩ := exists_fieldNodes content h
    exact ⟨.mapping c tag fields, by rw [toNode]⟩
  | .documentNode c content, h => by
    rw [keyed] at h
    obtain ⟨items, rfl⟩ := exists_itemNodes content h
    exact ⟨.document c items, by rw [toNode]⟩

theorem exists_itemNodes :
    ∀ content : List (Node C), itemsKeyed content → ∃ items : List (Yaml C), itemNodes items = content
  | [], _ => ⟨[], by rw [itemNodes]⟩
  | x :: content, h => by
    rw [itemsKeyed, Bool.and_eq_true] at h
    obtain ⟨y, rfl⟩ := exists_toNode x h.1
    obtain ⟨items, rfl⟩ := exists_itemNodes content h.2
    exact ⟨y :: items, by rw [itemNodes]⟩

theorem exists_fieldNodes :
    ∀ content : List (Node C), fieldsKeyed content →
      ∃ fields : List (Key C × Yaml C), fieldNodes fields = content
  | [], _ => ⟨[], by rw [fieldNodes]⟩
  | [_], h => by
    rw [fieldsKeyed] at h
    cases h
  | k :: v :: content, h => by
    rw [fieldsKeyed, Bool.and_eq_true, Bool.and_eq_true] at h
    obtain ⟨key, rfl⟩ := exists_keyNode h.1.1
    obtain ⟨y, rfl⟩ := exists_toNode v h.1.2
    obtain ⟨fields, rfl⟩ := exists_fieldNodes content h.2
    exact ⟨(key, y) :: fields, by rw [fieldNodes]⟩

end

theorem keyNode_inj {k k' : Key C} (h : keyNode k = keyNode k') : k = k' := by
  obtain ⟨c, tag, value⟩ := k
  obtain ⟨c', tag', value'⟩ := k'
  obtain ⟨rfl, htag, rfl⟩ := Node.scalarNode.inj h
  cases tag <;> cases tag' <;> simp [KeyTag.text] at htag ⊢

theorem itemNodes_inj {items items' : List (Yaml C)}
    (ih : ∀ x ∈ items, ∀ y : Yaml C, x.toNode = y.toNode → x = y)
    (h : itemNodes items = itemNodes items') : items = items' := by
  induction items generalizing items' with
  | nil =>
    cases items' with
    | nil => rfl
    | cons y items' => simp [itemNodes] at h
  | cons x items ihf =>
    cases items' with
    | nil => simp [itemNodes] at h
    | cons y items' =>
      rw [itemNodes, itemNodes, List.cons.injEq] at h
      rw [ih x List.mem_cons_self y h.1, ihf (fun z hz => ih z (List.mem_cons_of_mem _ hz)) h.2]

theorem fieldNodes_inj {fields fields' : List (Key C × Yaml C)}
    (ih : ∀ kv ∈ fields, ∀ y : Yaml C, kv.2.toNode = y.toNode → kv.2 = y)
    (h : fieldNodes fields = fieldNodes fields') : fields = fields' := by
  induction fields generalizing fields' with
  | nil =>
    cases fields' with
    | nil => rfl
    | cons kv' fields' => simp [fieldNodes] at h
  | cons kv fields ihf =>
    cases fields' with
    | nil => simp [fieldNodes] at h
    | cons kv' fields' =>
      rw [fieldNodes, fieldNodes, List.cons.injEq, List.cons.injEq] at h
      have hkv : kv = kv' :=
        Prod.ext (keyNode_inj h.1) (ih kv List.mem_cons_self kv'.2 h.2.1)
      rw [hkv, ihf (fun z hz => ih z (List.mem_cons_of_mem _ hz)) h.2.2]

/-- A tree is read off its nodes. -/
theorem toNode_inj {x y : Yaml C} (h : x.toNode = y.toNode) : x = y := by
  induction x using induct generalizing y with
  | scalar c tag value => cases y <;> simp_all [toNode]
  | reference c anchor => cases y <;> simp_all [toNode]
  | sequence c tag items ih =>
    cases y with
    | sequence c' tag' items' =>
      rw [toNode, toNode, Node.sequenceNode.injEq] at h
      rw [h.1, h.2.1, itemNodes_inj (fun x hx y => ih x hx) h.2.2]
    | _ => simp [toNode] at h
  | mapping c tag fields ih =>
    cases y with
    | mapping c' tag' fields' =>
      rw [toNode, toNode, Node.mappingNode.injEq] at h
      rw [h.1, h.2.1, fieldNodes_inj (fun kv hkv y => ih kv hkv) h.2.2]
    | _ => simp [toNode] at h
  | document c items ih =>
    cases y with
    | document c' items' =>
      rw [toNode, toNode, Node.documentNode.injEq] at h
      rw [h.1, itemNodes_inj (fun x hx y => ih x hx) h.2]
    | _ => simp [toNode] at h

/-- The keys of a mapping. -/
def keys (fields : List (Key C × Yaml C)) : List String := fields.map fun kv => kv.1.value

/-- No mapping has a key twice. -/
inductive Distinct : Yaml C → Prop where
  | scalar {c : C} {tag value : String} : Distinct (.scalar c tag value)
  | reference {c : C} {anchor : String} : Distinct (.reference c anchor)
  | sequence {c : C} {tag : String} {items : List (Yaml C)} :
    (∀ x ∈ items, Distinct x) → Distinct (.sequence c tag items)
  | mapping {c : C} {tag : String} {fields : List (Key C × Yaml C)} :
    (keys fields).Nodup → (∀ kv ∈ fields, Distinct kv.2) → Distinct (.mapping c tag fields)
  | document {c : C} {items : List (Yaml C)} :
    (∀ x ∈ items, Distinct x) → Distinct (.document c items)

/-! ## The copy -/

/-- The value of a key. -/
def get? (fields : List (Key C × Yaml C)) (key : String) : Option (Yaml C) :=
  (fields.find? fun kv => kv.1.value = key).map Prod.snd

mutual

/-- `shouldCopyFormatting` on trees. -/
def contains : Yaml C → Yaml C → Bool
  | .scalar _ _ value, .scalar _ _ value' => value = value'
  | .mapping _ _ fields, .mapping _ _ fields' => containsFields fields fields'
  | .sequence .., .sequence .. => true
  | .reference .., .reference .. => true
  | .document .., .document .. => true
  | _, _ => false

def containsFields : List (Key C × Yaml C) → List (Key C × Yaml C) → Bool
  | [], _ => true
  | (k, v) :: fields, fields' =>
    (match get? fields' k.value with
      | none => false
      | some v' => contains v v') && containsFields fields fields'

end

/-- The field of a key, and the others: the first of them takes its place. -/
def pick (fields : List (Key C × Yaml C)) (key : String) :
    Option ((Key C × Yaml C) × List (Key C × Yaml C)) :=
  match fields with
  | [] => none
  | kv :: rest =>
    if kv.1.value = key then some (kv, rest)
    else
      match rest.findIdx? fun kv => kv.1.value = key with
      | none => none
      | some j => (rest[j]?).map fun found => (found, rest.set j kv)

mutual

/-- `deepCopyFormatting` on trees. -/
def format : Yaml C → Yaml C → Yaml C
  | .mapping c _ fields, .mapping _ tag fields' => .mapping c tag (formatFields fields fields')
  | .sequence c _ items, .sequence _ tag items' => .sequence c tag (formatItems items items')
  | .document c [x], .document _ [y] => .document c [format x y]
  | .document c items, .document _ items' => .document c (formatItems items items')
  | .scalar c _ _, .scalar _ tag value => .scalar c tag value
  | .reference c _, .reference _ anchor => .reference c anchor
  | _, dst => dst

def formatFields :
    List (Key C × Yaml C) → List (Key C × Yaml C) → List (Key C × Yaml C)
  | [], fields' => fields'
  | (k, v) :: fields, fields' =>
    match pick fields' k.value with
    | none => formatFields fields fields'
    | some ((k', v'), rest) =>
      ({ k' with comments := k.comments }, format v v') :: formatFields fields rest

def formatItems : List (Yaml C) → List (Yaml C) → List (Yaml C)
  | [], items' => items'
  | x :: items, items' =>
    match items'.findIdx? (contains x) with
    | none => formatItems items items'
    | some j => formatItems items (items'.modify j (format x))

end

/-! ## The parser's nodes compute it -/

theorem asString_keyNode (k : Key C) : asString (keyNode k) = some k.value := by
  cases h : k.tag <;> simp [keyNode, asString, h, KeyTag.text]

theorem itemNodes_eq_map (items : List (Yaml C)) : itemNodes items = items.map toNode := by
  induction items with
  | nil => rw [itemNodes, List.map_nil]
  | cons x items ih => rw [itemNodes, ih, List.map_cons]

theorem length_fieldNodes (fields : List (Key C × Yaml C)) :
    (fieldNodes fields).length = 2 * fields.length := by
  induction fields with
  | nil => rw [fieldNodes, List.length_nil, List.length_nil]
  | cons kv fields ih =>
    rw [fieldNodes, List.length_cons, List.length_cons, ih, List.length_cons]
    omega

theorem even_fieldNodes (fields fields' : List (Key C × Yaml C)) :
    ¬ ((fieldNodes fields).length % 2 ≠ 0 ∨ (fieldNodes fields').length % 2 ≠ 0) := by
  rw [length_fieldNodes, length_fieldNodes]
  omega

theorem findKey_fieldNodes (fields : List (Key C × Yaml C)) (key : String) :
    findKey (fieldNodes fields) key =
      (fields.findIdx? fun kv => kv.1.value = key).map (2 * ·) := by
  induction fields with
  | nil => rfl
  | cons kv fields ih =>
    rw [fieldNodes, findKey, asString_keyNode, List.findIdx?_cons, ih]
    by_cases h : kv.1.value = key
    · simp [h]
    · simp only [Option.some.injEq, h, if_false, decide_false, Bool.false_eq_true, Option.map_map]
      rfl

/-- A field, at its two places. -/
theorem getElem?_fieldNodes (fields : List (Key C × Yaml C)) (j : Nat) :
    (fieldNodes fields)[2 * j]? = (fields[j]?).map (fun kv => keyNode kv.1) ∧
      (fieldNodes fields)[2 * j + 1]? = (fields[j]?).map fun kv => kv.2.toNode := by
  induction fields generalizing j with
  | nil => exact ⟨rfl, rfl⟩
  | cons kv fields ih =>
    rw [fieldNodes]
    cases j with
    | zero => exact ⟨rfl, rfl⟩
    | succ j =>
      rw [show 2 * (j + 1) = 2 * j + 1 + 1 by omega]
      simp only [List.getElem?_cons_succ]
      exact ih j

theorem fieldNodes_set (fields : List (Key C × Yaml C)) (j : Nat) (kv : Key C × Yaml C) :
    fieldNodes (fields.set j kv) =
      ((fieldNodes fields).set (2 * j) (keyNode kv.1)).set (2 * j + 1) kv.2.toNode := by
  induction fields generalizing j with
  | nil => simp [fieldNodes]
  | cons kv' fields ih =>
    cases j with
    | zero => simp [fieldNodes]
    | succ j =>
      rw [show 2 * (j + 1) = 2 * j + 1 + 1 by omega, List.set_cons_succ, fieldNodes, fieldNodes,
        ih j]
      simp only [List.set_cons_succ]

theorem swapToFront_fieldNodes {kv found : Key C × Yaml C} {rest : List (Key C × Yaml C)} {j : Nat}
    (hj : rest[j]? = some found) :
    swapToFront (fieldNodes (kv :: rest)) (2 * (j + 1)) =
      fieldNodes (found :: rest.set j kv) := by
  obtain ⟨hkey, hvalue⟩ := getElem?_fieldNodes rest j
  rw [hj] at hkey hvalue
  have hvalue' : ((fieldNodes rest).set (2 * j) (keyNode kv.1))[2 * j + 1]? =
      some found.2.toNode := by
    rw [List.getElem?_set_ne (by omega)]
    exact hvalue
  unfold swapToFront
  rw [if_pos (by omega), fieldNodes, fieldNodes, fieldNodes_set,
    show 2 * (j + 1) = 2 * j + 1 + 1 by omega]
  have hfirst : swap (keyNode kv.1 :: kv.2.toNode :: fieldNodes rest) (2 * j + 1 + 1) 0 =
      keyNode found.1 :: kv.2.toNode :: (fieldNodes rest).set (2 * j) (keyNode kv.1) := by
    unfold swap
    simp only [List.getElem?_cons_succ, List.getElem?_cons_zero, hkey, Option.map_some,
      List.set_cons_succ, List.set_cons_zero]
  rw [hfirst]
  unfold swap
  simp only [List.getElem?_cons_succ, List.getElem?_cons_zero, hvalue', List.set_cons_succ,
    List.set_cons_zero]

/-- A field that is picked is the first, or changes places with the first. -/
theorem pick_eq_some {fields rest : List (Key C × Yaml C)} {kv : Key C × Yaml C} {key : String}
    (h : pick fields key = some (kv, rest)) :
    (kv.1.value = key ∧ fields = kv :: rest) ∨
      ∃ first others j, first.1.value ≠ key ∧ fields = first :: others ∧
        (others.findIdx? fun kv => kv.1.value = key) = some j ∧ others[j]? = some kv ∧
        rest = others.set j first := by
  cases fields with
  | nil => cases h
  | cons first others =>
    simp only [pick] at h
    by_cases hfirst : first.1.value = key
    · rw [if_pos hfirst] at h
      obtain ⟨rfl, rfl⟩ := Prod.mk.inj (Option.some.inj h)
      exact .inl ⟨hfirst, rfl⟩
    · rw [if_neg hfirst] at h
      cases hidx : others.findIdx? fun kv => decide (kv.1.value = key) with
      | none =>
        rw [hidx] at h
        cases h
      | some j =>
        simp only [hidx] at h
        obtain ⟨found, hfound, heq⟩ := Option.map_eq_some_iff.mp h
        obtain ⟨rfl, rfl⟩ := Prod.mk.inj heq
        exact .inr ⟨first, others, j, hfirst, rfl, hidx, hfound, rfl⟩

theorem pick_eq_none {fields : List (Key C × Yaml C)} {key : String}
    (h : pick fields key = none) : (fields.findIdx? fun kv => kv.1.value = key) = none := by
  cases fields with
  | nil => rfl
  | cons first others =>
    simp only [pick] at h
    by_cases hfirst : first.1.value = key
    · rw [if_pos hfirst] at h
      cases h
    · rw [if_neg hfirst] at h
      cases hidx : others.findIdx? fun kv => decide (kv.1.value = key) with
      | none => simp [List.findIdx?_cons, hfirst, hidx]
      | some j =>
        have hlt : j < others.length := (List.findIdx?_eq_some_iff_getElem.mp hidx).1
        rw [hidx] at h
        simp only [List.getElem?_eq_getElem hlt] at h
        cases h

/-- The swap of the loop, where the key is found. -/
theorem swapToFront_of_pick {fields rest : List (Key C × Yaml C)} {kv : Key C × Yaml C}
    {key : String} (h : pick fields key = some (kv, rest)) :
    ∃ j, findKey (fieldNodes fields) key = some j ∧
      swapToFront (fieldNodes fields) j = fieldNodes (kv :: rest) := by
  rcases pick_eq_some h with ⟨hkey, rfl⟩ | ⟨first, others, j, hfirst, rfl, hidx, hfound, rfl⟩
  · refine ⟨0, ?_, rfl⟩
    rw [findKey_fieldNodes, List.findIdx?_cons]
    simp [hkey]
  · refine ⟨2 * (j + 1), ?_, swapToFront_fieldNodes hfound⟩
    rw [findKey_fieldNodes, List.findIdx?_cons, hidx]
    simp [hfirst]

theorem findKey_of_pick_none {fields : List (Key C × Yaml C)} {key : String}
    (h : pick fields key = none) : findKey (fieldNodes fields) key = none := by
  rw [findKey_fieldNodes, pick_eq_none h]
  rfl

theorem getElem?_of_findKey {fields : List (Key C × Yaml C)} {key : String} {j : Nat}
    (h : findKey (fieldNodes fields) key = some j) :
    (fieldNodes fields)[j + 1]? = (get? fields key).map toNode ∧ (get? fields key).isSome := by
  rw [findKey_fieldNodes] at h
  obtain ⟨i, hi, rfl⟩ := Option.map_eq_some_iff.mp h
  have hlt : i < fields.length := (List.findIdx?_eq_some_iff_getElem.mp hi).1
  rw [(getElem?_fieldNodes fields i).2, get?, List.find?_eq_bind_findIdx?_getElem?, hi,
    Option.bind_some, List.getElem?_eq_getElem hlt]
  exact ⟨rfl, rfl⟩

theorem get?_of_findKey_none {fields : List (Key C × Yaml C)} {key : String}
    (h : findKey (fieldNodes fields) key = none) : get? fields key = none := by
  rw [findKey_fieldNodes] at h
  rw [get?, List.find?_eq_bind_findIdx?_getElem?, Option.map_eq_none_iff.mp h]
  rfl

theorem fieldsMatch_fieldNodes {fields : List (Key C × Yaml C)} (fields' : List (Key C × Yaml C))
    (ih : ∀ kv ∈ fields, ∀ d : Yaml C,
      shouldCopyFormatting kv.2.toNode d.toNode = .ok (contains kv.2 d)) :
    fieldsMatch (fieldNodes fields) (fieldNodes fields') = .ok (containsFields fields fields') := by
  induction fields with
  | nil => rw [fieldNodes, fieldsMatch.eq_2, containsFields]; simp
  | cons kv fields ihf =>
    rw [fieldNodes, fieldsMatch, asString_keyNode, containsFields]
    cases hfind : findKey (fieldNodes fields') kv.1.value with
    | none =>
      simp only [hfind, get?_of_findKey_none hfind, Bool.false_and]
    | some j =>
      obtain ⟨hget, hsome⟩ := getElem?_of_findKey hfind
      obtain ⟨v', hv'⟩ := Option.isSome_iff_exists.mp hsome
      rw [hv', Option.map_some] at hget
      simp only [hfind, hget, hv', ih kv List.mem_cons_self]
      cases hc : contains kv.2 v' with
      | false => rfl
      | true => exact ihf fun kv' hkv' => ih kv' (List.mem_cons_of_mem _ hkv')

theorem shouldCopyFormatting_toNode (s d : Yaml C) :
    shouldCopyFormatting s.toNode d.toNode = .ok (contains s d) := by
  induction s using induct generalizing d with
  | scalar c tag value => cases d <;> simp only [toNode, shouldCopyFormatting, contains]
  | reference c anchor => cases d <;> simp only [toNode, shouldCopyFormatting, contains]
  | sequence c tag items ih => cases d <;> simp only [toNode, shouldCopyFormatting, contains]
  | document c items ih => cases d <;> simp only [toNode, shouldCopyFormatting, contains]
  | mapping c tag fields ih =>
    cases d with
    | mapping c' tag' fields' =>
      rw [toNode, toNode, shouldCopyFormatting, contains, if_neg (even_fieldNodes _ _)]
      exact fieldsMatch_fieldNodes fields' ih
    | _ => simp only [toNode, shouldCopyFormatting, contains]

theorem findMatchingItem_toNode (x : Yaml C) (items : List (Yaml C)) :
    findMatchingItemForFormattingCopy x.toNode (itemNodes items) =
      .ok (items.findIdx? (contains x)) := by
  induction items with
  | nil => rfl
  | cons y items ih =>
    rw [itemNodes, findMatchingItemForFormattingCopy, shouldCopyFormatting_toNode,
      List.findIdx?_cons]
    cases contains x y with
    | true => rfl
    | false =>
      rw [ih]
      rfl

section Copy

variable {fields : List (Key C × Yaml C)} {items : List (Yaml C)}

theorem copyMapFormatting_fieldNodes (fields' : List (Key C × Yaml C))
    (ih : ∀ kv ∈ fields, ∀ d : Yaml C,
      deepCopyFormatting kv.2.toNode d.toNode = .ok (format kv.2 d).toNode) :
    copyMapFormatting (fieldNodes fields) (fieldNodes fields') =
      .ok (fieldNodes (formatFields fields fields')) := by
  induction fields generalizing fields' with
  | nil => rw [fieldNodes, copyMapFormatting.eq_2, formatFields]; simp
  | cons kv fields ihf =>
    have ihf := fun d => ihf d fun kv' hkv' => ih kv' (List.mem_cons_of_mem _ hkv')
    rw [fieldNodes, copyMapFormatting, asString_keyNode, formatFields]
    cases hpick : pick fields' kv.1.value with
    | none =>
      simp only [findKey_of_pick_none hpick]
      exact ihf fields'
    | some found =>
      obtain ⟨⟨k', v'⟩, rest⟩ := found
      obtain ⟨j, hfind, hswap⟩ := swapToFront_of_pick hpick
      simp only [hfind, hswap, fieldNodes, ih kv List.mem_cons_self]
      change (do
        let ordered ← copyMapFormatting (fieldNodes fields) (fieldNodes rest)
        return _ :: _ :: ordered) = _
      rw [ihf rest]
      rfl

theorem copyListFormatting_itemNodes (items' : List (Yaml C))
    (ih : ∀ x ∈ items, ∀ d : Yaml C,
      deepCopyFormatting x.toNode d.toNode = .ok (format x d).toNode) :
    copyListFormatting (itemNodes items) (itemNodes items') =
      .ok (itemNodes (formatItems items items')) := by
  induction items generalizing items' with
  | nil => rw [itemNodes, copyListFormatting, formatItems]
  | cons x items ihf =>
    have ihf := fun d => ihf d fun x' hx' => ih x' (List.mem_cons_of_mem _ hx')
    rw [itemNodes, copyListFormatting, findMatchingItem_toNode, formatItems]
    cases hidx : items'.findIdx? (contains x) with
    | none => exact ihf items'
    | some j =>
      have hlt : j < items'.length := (List.findIdx?_eq_some_iff_getElem.mp hidx).1
      have hget : (itemNodes items')[j]? = some items'[j].toNode := by
        rw [itemNodes_eq_map, List.getElem?_map, List.getElem?_eq_getElem hlt]
        rfl
      have hset : (itemNodes items').set j (format x items'[j]).toNode =
          itemNodes (items'.modify j (format x)) := by
        rw [itemNodes_eq_map, itemNodes_eq_map, List.modify_eq_set_getElem?,
          List.getElem?_eq_getElem hlt, ← List.map_set]
        rfl
      simp only [bind, Except.bind, hget, ih x List.mem_cons_self]
      rw [hset]
      exact ihf _

end Copy

/-- A document with one child has it formatted; any other is treated as a list. -/
theorem format_document {c c' : C} {items items' : List (Yaml C)}
    (h : ¬ (items.length = 1 ∧ items'.length = 1)) :
    format (.document c items) (.document c' items') = .document c (formatItems items items') := by
  rcases items with _ | ⟨x, _ | ⟨x', rest⟩⟩
  · rw [format]
    simp
  · rcases items' with _ | ⟨y, _ | ⟨y', rest'⟩⟩
    · rw [format]
      simp
    · exact absurd ⟨rfl, rfl⟩ h
    · rw [format]
      simp
  · rw [format]
    simp

theorem deepCopyFormatting_document {c c' : C} {content content' : List (Node C)}
    (h : ¬ (content.length = 1 ∧ content'.length = 1)) :
    deepCopyFormatting (.documentNode c content) (.documentNode c' content') = do
      let copied ← copyListFormatting content content'
      return .documentNode c copied := by
  rcases content with _ | ⟨x, _ | ⟨x', rest⟩⟩
  · rw [deepCopyFormatting]
    simp
  · rcases content' with _ | ⟨y, _ | ⟨y', rest'⟩⟩
    · rw [deepCopyFormatting]
      simp
    · exact absurd ⟨rfl, rfl⟩ h
    · rw [deepCopyFormatting]
      simp
  · rw [deepCopyFormatting]
    simp

/-- **The copy does not panic** on trees whose mappings have keys and values, and computes
`format`. -/
theorem deepCopyFormatting_toNode (s d : Yaml C) :
    deepCopyFormatting s.toNode d.toNode = .ok (format s d).toNode := by
  induction s using induct generalizing d with
  | scalar c tag value => cases d <;> simp only [toNode, deepCopyFormatting, format]
  | reference c anchor => cases d <;> simp only [toNode, deepCopyFormatting, format]
  | sequence c tag items ih =>
    cases d with
    | sequence c' tag' items' =>
      rw [toNode, toNode, deepCopyFormatting, copyListFormatting_itemNodes items' ih, format,
        toNode]
      rfl
    | _ => simp only [toNode, deepCopyFormatting, format]
  | mapping c tag fields ih =>
    cases d with
    | mapping c' tag' fields' =>
      rw [toNode, toNode, deepCopyFormatting, if_neg (even_fieldNodes _ _),
        copyMapFormatting_fieldNodes fields' ih, format, toNode]
      rfl
    | _ => simp only [toNode, deepCopyFormatting, format]
  | document c items ih =>
    cases d with
    | document c' items' =>
      by_cases hone : items.length = 1 ∧ items'.length = 1
      · obtain ⟨x, rfl⟩ := List.length_eq_one_iff.mp hone.1
        obtain ⟨y, rfl⟩ := List.length_eq_one_iff.mp hone.2
        simp only [toNode, itemNodes, deepCopyFormatting, format, ih x List.mem_cons_self]
        rfl
      · rw [format_document hone, toNode, toNode, deepCopyFormatting_document,
          copyListFormatting_itemNodes items' ih, toNode]
        · rfl
        · simpa only [itemNodes_eq_map, List.length_map] using hone
    | _ =>
      rcases items with _ | ⟨x, _ | ⟨x', rest⟩⟩ <;>
        simp only [toNode, itemNodes, deepCopyFormatting, format]

end Yaml

end Nephio.Formatting
