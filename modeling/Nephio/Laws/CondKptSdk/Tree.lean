import Nephio.CondKptSdk.Inventory

/-!
# Laws.CondKptSdk.Tree: the inventory tree read by path

`Resources.find` reads the context at a path. `set` writes at one path and makes the nodes above it
(`find_set`), `delete` clears the condition at one path (`find_delete`), and the wildcard reads list
exactly the nodes one step below (`mem_entries`), each once. A run of writes is read off path by
path (`TreeWrite.ctxAt_applyAll`).
-/

namespace Nephio.CondKptSdk

variable {V : Type}

namespace Resources

/-- The context at a path, when the path is initialised. -/
def find : List SdkObjectReference → Resources V → Option (ResourceCtx V)
  | [], r => some r.ctx
  | ref :: refs, r => (r.child ref).bind (find refs)

@[simp] theorem find_nil (r : Resources V) : find [] r = some r.ctx := rfl

@[simp] theorem find_cons (ref : SdkObjectReference) (refs : List SdkObjectReference)
    (r : Resources V) : find (ref :: refs) r = (r.child ref).bind (find refs) := rfl

/-- The context at a path; Go's zero value where the path is not initialised. -/
def ctxAt (r : Resources V) (p : List SdkObjectReference) : ResourceCtx V := (find p r).getD {}

theorem find_eq_some_iff {r : Resources V} {p : List SdkObjectReference} {ctx : ResourceCtx V} :
    find p r = some ctx ↔ (find p r).isSome ∧ ctx = r.ctxAt p := by
  unfold ctxAt
  cases find p r with
  | none => simp only [reduceCtorEq, Option.isSome_none, Bool.false_eq_true, false_and]
  | some ctx' =>
    simp only [Option.some.injEq, Option.isSome_some, Option.getD_some, true_and]
    exact eq_comm

/-- Above a path that is there, every path is. -/
theorem isSome_find_of_prefix {p q : List SdkObjectReference} (hpre : p <+: q) {r : Resources V}
    (h : (find q r).isSome) : (find p r).isSome := by
  induction q generalizing p r with
  | nil =>
    rw [List.prefix_nil.mp hpre]
    exact h
  | cons ref q ih =>
    cases p with
    | nil => rfl
    | cons k p =>
      obtain ⟨rfl, hrest⟩ := List.cons_prefix_cons.mp hpre
      rw [find_cons] at h ⊢
      cases hc : r.child k with
      | none => rw [hc] at h; cases h
      | some next =>
        rw [hc] at h
        exact ih hrest h

theorem find_empty (p : List SdkObjectReference) :
    find p (empty : Resources V) = if p = [] then some {} else none := by
  cases p with
  | nil => rfl
  | cons ref refs => rfl

theorem find_empty_getD (p : List SdkObjectReference) :
    (find p (empty : Resources V)).getD {} = {} := by
  rw [find_empty]
  split_ifs <;> rfl

/-- The child under a key after a write of the child under another or the same key. -/
theorem child_upsert (ctx : ResourceCtx V) (rs : List (SdkObjectReference × Resources V))
    (k ref : SdkObjectReference) (next : Resources V) :
    (node ctx (Keyed.upsert Prod.fst (ref, next) rs)).child k =
      if ref = k then some next else (node ctx rs).child k := by
  simp only [child, resources, Keyed.lookup_upsert]
  split_ifs <;> rfl

theorem set_cons (kc : GvkKindCtx V) (x : Filed V) (newResource failed : Bool)
    (ref : SdkObjectReference) (refs : List SdkObjectReference) (r : Resources V) :
    r.set kc x newResource failed (ref :: refs) =
      node r.ctx (Keyed.upsert Prod.fst
        (ref, ((r.child ref).getD .empty).set kc x newResource failed refs) r.resources) := by
  cases r
  rfl

@[simp] theorem ctx_set_cons (kc : GvkKindCtx V) (x : Filed V) (newResource failed : Bool)
    (ref : SdkObjectReference) (refs : List SdkObjectReference) (r : Resources V) :
    (r.set kc x newResource failed (ref :: refs)).ctx = r.ctx := by
  rw [set_cons]
  rfl

/-- **What `set` does**: it writes at its path, initialises the nodes above, and leaves every other
path alone. -/
theorem find_set (kc : GvkKindCtx V) (x : Filed V) (newResource failed : Bool)
    (q p : List SdkObjectReference) (r : Resources V) :
    find p (r.set kc x newResource failed q) =
      if p = q then some (((find q r).getD {}).write kc x newResource failed)
      else if p <+: q then some ((find p r).getD {})
      else find p r := by
  induction q generalizing p r with
  | nil =>
    cases r with
    | node ctx rs =>
      cases p with
      | nil => rfl
      | cons k p => simp only [reduceCtorEq, if_false, List.prefix_nil]; rfl
  | cons ref refs ih =>
    rw [set_cons]
    cases p with
    | nil => simp only [find_nil, reduceCtorEq, if_false, List.nil_prefix, if_true]; rfl
    | cons k p =>
      rw [find_cons, child_upsert]
      have hr : (node r.ctx r.resources).child k = r.child k := by cases r; rfl
      by_cases hk : ref = k
      · subst hk
        simp only [if_true, Option.bind_some, ih, List.cons.injEq, true_and, List.cons_prefix_cons,
          find_cons]
        cases hc : r.child ref with
        | some next => simp only [Option.getD_some, Option.bind_some]
        | none =>
          simp only [Option.getD_none, Option.bind_none, find_empty_getD]
          -- below a node that was not there, only the new path is initialised
          by_cases hpq : p = refs
          · simp only [hpq, if_true]
          · by_cases hpre : p <+: refs
            · simp only [hpq, hpre, if_true, if_false]
            · simp only [hpq, hpre, if_false, find_empty]
              rw [if_neg]
              rintro rfl
              exact hpre List.nil_prefix
      · have hk' : k ≠ ref := fun h => hk h.symm
        simp only [hk, hk', if_false, List.cons.injEq, false_and, List.cons_prefix_cons, hr,
          find_cons]

theorem find_set_self (kc : GvkKindCtx V) (x : Filed V) (newResource failed : Bool)
    (q : List SdkObjectReference) (r : Resources V) :
    find q (r.set kc x newResource failed q) =
      some (((find q r).getD {}).write kc x newResource failed) := by
  rw [find_set, if_pos rfl]

/-- **What `delete` does**: it clears the condition at its path, which has to be initialised. -/
theorem delete_eq_ok {q : List SdkObjectReference} {r : Resources V} (h : (find q r).isSome) :
    ∃ r', r.delete q = .ok r' ∧ ∀ p, find p r' =
      if p = q then (find q r).map (fun ctx => { ctx with existingCondition := none })
      else find p r := by
  induction q generalizing r with
  | nil =>
    cases r with
    | node ctx rs =>
      refine ⟨_, rfl, fun p => ?_⟩
      cases p with
      | nil => rfl
      | cons k p => simp only [reduceCtorEq, if_false]; rfl
  | cons ref refs ih =>
    cases r with
    | node ctx rs =>
      cases hc : (node ctx rs).child ref with
      | none => simp only [find_cons, hc, Option.bind_none, Option.isSome_none,
          Bool.false_eq_true] at h
      | some next =>
        rw [find_cons, hc, Option.bind_some] at h
        obtain ⟨next', hdel, hfind⟩ := ih h
        refine ⟨node ctx (Keyed.upsert Prod.fst (ref, next') rs), ?_, fun p => ?_⟩
        · simp only [delete, hc, hdel]
          rfl
        · cases p with
          | nil => simp only [find_nil, reduceCtorEq, if_false]; rfl
          | cons k p =>
            rw [find_cons, child_upsert]
            by_cases hk : ref = k
            · subst hk
              simp only [if_true, Option.bind_some, hfind, List.cons.injEq, true_and, find_cons, hc]
            · have hk' : k ≠ ref := fun h => hk h.symm
              simp only [hk, hk', if_false, List.cons.injEq, false_and, find_cons]

/-- Where the path is not initialised, `delete` fails. -/
theorem delete_eq_error {q : List SdkObjectReference} {r : Resources V} (h : find q r = none) :
    r.delete q = .error "not found" := by
  induction q generalizing r with
  | nil => cases h
  | cons ref refs ih =>
    cases r with
    | node ctx rs =>
      cases hc : (node ctx rs).child ref with
      | none => simp only [delete, hc]
      | some next =>
        rw [find_cons, hc, Option.bind_some] at h
        simp only [delete, hc, ih h]
        rfl

/-! ## Each key once -/

/-- The keys of a node, and those of the nodes below it to a depth, are distinct. -/
def KeysNodup : Nat → Resources V → Prop
  | 0, _ => True
  | n + 1, r => (Keyed.keys Prod.fst r.resources).Nodup ∧ ∀ e ∈ r.resources, KeysNodup n e.2

theorem keysNodup_empty (n : Nat) : KeysNodup n (empty : Resources V) := by
  cases n with
  | zero => trivial
  | succ n => exact ⟨List.nodup_nil, fun e he => nomatch he⟩

theorem keysNodup_child {n : Nat} {r next : Resources V} {ref : SdkObjectReference}
    (h : KeysNodup (n + 1) r) (hc : r.child ref = some next) : KeysNodup n next := by
  obtain ⟨e, he, rfl⟩ := Option.map_eq_some_iff.mp hc
  exact h.2 e (Keyed.mem_of_lookup Prod.fst he)

theorem keysNodup_upsert {n : Nat} {ctx : ResourceCtx V} {r next : Resources V}
    {ref : SdkObjectReference} (h : KeysNodup (n + 1) r) (hnext : KeysNodup n next) :
    KeysNodup (n + 1) (node ctx (Keyed.upsert Prod.fst (ref, next) r.resources)) := by
  refine ⟨Keyed.nodup_keys_upsert Prod.fst h.1 _, fun e he => ?_⟩
  rcases Keyed.mem_of_mem_upsert Prod.fst he with rfl | he
  · exact hnext
  · exact h.2 e he

theorem keysNodup_set (kc : GvkKindCtx V) (x : Filed V) (newResource failed : Bool) {n : Nat}
    (q : List SdkObjectReference) {r : Resources V} (h : KeysNodup n r) :
    KeysNodup n (r.set kc x newResource failed q) := by
  induction q generalizing n r with
  | nil =>
    cases r with
    | node ctx rs =>
      cases n with
      | zero => trivial
      | succ n => exact h
  | cons ref refs ih =>
    cases n with
    | zero => trivial
    | succ n =>
      rw [set_cons]
      refine keysNodup_upsert h (ih ?_)
      cases hc : r.child ref with
      | none => exact keysNodup_empty n
      | some next => exact keysNodup_child h hc

theorem keysNodup_delete {n : Nat} {q : List SdkObjectReference} {r r' : Resources V}
    (h : KeysNodup n r) (hdel : r.delete q = .ok r') : KeysNodup n r' := by
  induction q generalizing n r r' with
  | nil =>
    cases r with
    | node ctx rs =>
      cases hdel
      cases n with
      | zero => trivial
      | succ n => exact h
  | cons ref refs ih =>
    cases n with
    | zero => trivial
    | succ n =>
      cases r with
      | node ctx rs =>
        cases hc : (node ctx rs).child ref with
        | none => simp only [delete, hc, reduceCtorEq] at hdel
        | some next =>
          simp only [delete, hc] at hdel
          cases hd : next.delete refs with
          | error e => rw [hd] at hdel; cases hdel
          | ok next' =>
            rw [hd] at hdel
            cases hdel
            exact keysNodup_upsert h (ih (keysNodup_child h hc) hd)

/-! ## The wildcard reads -/

/-- The entries of one kind below a node. -/
def entries (k : GvkKind) (r : Resources V) : List (ObjectReference × ResourceCtx V) :=
  (r.resources.filter fun e => e.1.gvkKind = k).map fun e => (e.1.ref, e.2.ctx)

theorem get_wildcard (k : GvkKind) (r : Resources V) : r.get [⟨k, {}⟩] = r.entries k := by
  cases r
  rfl

theorem get_wildcard_under {ref : SdkObjectReference} (href : ref.ref ≠ {}) (k : GvkKind)
    (r : Resources V) :
    r.get [ref, ⟨k, {}⟩] = match r.child ref with
      | none => []
      | some next => next.entries k := by
  cases r with
  | node ctx rs =>
    simp only [Resources.get, href, if_false]
    cases (node ctx rs).child ref with
    | none => rfl
    | some next => exact get_wildcard k next

theorem child_eq_some_iff {n : Nat} {r : Resources V} (h : KeysNodup (n + 1) r)
    {ref : SdkObjectReference} {next : Resources V} :
    r.child ref = some next ↔ (ref, next) ∈ r.resources := by
  simp only [child, Option.map_eq_some_iff, Keyed.lookup_eq_some_iff Prod.fst h.1]
  constructor
  · rintro ⟨⟨ref', next'⟩, ⟨hmem, rfl⟩, rfl⟩
    exact hmem
  · intro hmem
    exact ⟨(ref, next), ⟨hmem, rfl⟩, rfl⟩

theorem mem_entries {n : Nat} {r : Resources V} (h : KeysNodup (n + 1) r) {k : GvkKind}
    {ref : ObjectReference} {ctx : ResourceCtx V} :
    (ref, ctx) ∈ r.entries k ↔ find [⟨k, ref⟩] r = some ctx := by
  simp only [entries, List.mem_map, List.mem_filter, decide_eq_true_eq, Prod.mk.injEq, find_cons,
    Option.bind_eq_some_iff, child_eq_some_iff h, find_nil, Option.some.injEq]
  constructor
  · rintro ⟨⟨⟨k', ref'⟩, next⟩, ⟨hmem, rfl⟩, rfl, rfl⟩
    exact ⟨next, hmem, rfl⟩
  · rintro ⟨next, hmem, rfl⟩
    exact ⟨⟨⟨k, ref⟩, next⟩, ⟨hmem, rfl⟩, rfl, rfl⟩

theorem nodup_entries {n : Nat} {r : Resources V} (h : KeysNodup (n + 1) r) (k : GvkKind) :
    ((r.entries k).map Prod.fst).Nodup := by
  have hnd : ((r.resources.filter fun e => e.1.gvkKind = k).map Prod.fst).Nodup :=
    h.1.sublist (List.filter_sublist.map Prod.fst)
  rw [entries, List.map_map]
  rw [List.nodup_map_iff_inj_on (List.Nodup.of_map _ hnd)]
  rintro ⟨⟨k₁, ref₁⟩, r₁⟩ h₁ ⟨⟨k₂, ref₂⟩, r₂⟩ h₂ heq
  simp only [List.mem_filter, decide_eq_true_eq] at h₁ h₂
  simp only [Function.comp_apply] at heq
  have hkey : (⟨k₁, ref₁⟩ : SdkObjectReference) = ⟨k₂, ref₂⟩ := by
    rw [h₁.2, h₂.2, heq]
  have := (child_eq_some_iff h).mpr h₁.1
  rw [hkey, (child_eq_some_iff h).mpr h₂.1] at this
  rw [hkey, Option.some.inj this]

end Resources

/-! ## Writes -/

/-- A write to the tree: a filing, or the removal of a condition. -/
inductive TreeWrite (V : Type) where
  | set (kc : GvkKindCtx V) (x : Filed V) (newResource failed : Bool)
      (path : List SdkObjectReference)
  | clear (path : List SdkObjectReference)

namespace TreeWrite

/-- Carry a write out. The removal of a condition at a path that is not there does nothing. -/
def apply : TreeWrite V → Resources V → Resources V
  | set kc x newResource failed path, r => r.set kc x newResource failed path
  | clear path, r =>
    match r.delete path with
    | .ok r' => r'
    | .error _ => r

/-- Carry out writes, first write first. -/
def applyAll (ws : List (TreeWrite V)) (r : Resources V) : Resources V :=
  ws.foldl (fun r w => w.apply r) r

/-- The path a write is made at. -/
def path : TreeWrite V → List SdkObjectReference
  | set _ _ _ _ path => path
  | clear path => path

/-- What a write makes of the context at its path. -/
def on : TreeWrite V → ResourceCtx V → ResourceCtx V
  | set kc x newResource failed _, ctx => ctx.write kc x newResource failed
  | clear _, ctx => { ctx with existingCondition := none }

/-- A write initialises its path and those above; the removal of a condition does not. -/
def Reaches (p : List SdkObjectReference) : TreeWrite V → Prop
  | set _ _ _ _ path => p <+: path
  | clear _ => False

theorem isSome_find_apply (w : TreeWrite V) (p : List SdkObjectReference) (r : Resources V) :
    ((w.apply r).find p).isSome ↔ (r.find p).isSome ∨ w.Reaches p := by
  cases w with
  | set kc x newResource failed q =>
    simp only [apply, Reaches, Resources.find_set]
    by_cases hpq : p = q
    · simp only [hpq, if_true, Option.isSome_some, List.prefix_refl, or_true]
    · by_cases hpre : p <+: q
      · simp only [hpq, hpre, if_false, if_true, Option.isSome_some, or_true]
      · simp only [hpq, hpre, if_false, or_false]
  | clear q =>
    simp only [apply, Reaches, or_false]
    cases hq : r.find q with
    | none => rw [Resources.delete_eq_error hq]
    | some ctx =>
      obtain ⟨r', hdel, hfind⟩ := Resources.delete_eq_ok (r := r) (by rw [hq]; rfl)
      simp only [hdel, hfind]
      split_ifs with h
      · rw [h, Option.isSome_map]
      · rfl

theorem ctxAt_apply (w : TreeWrite V) (p : List SdkObjectReference) (r : Resources V) :
    (w.apply r).ctxAt p = if w.path = p then w.on (r.ctxAt p) else r.ctxAt p := by
  cases w with
  | set kc x newResource failed q =>
    simp only [apply, path, on, Resources.ctxAt, Resources.find_set]
    by_cases hpq : q = p
    · simp only [hpq, if_true, Option.getD_some]
    · have hqp : p ≠ q := fun h => hpq h.symm
      by_cases hpre : p <+: q
      · simp only [hpq, hqp, hpre, if_false, if_true, Option.getD_some]
      · simp only [hpq, hqp, hpre, if_false]
  | clear q =>
    simp only [apply, path, on, Resources.ctxAt]
    cases hq : r.find q with
    | none =>
      simp only [Resources.delete_eq_error hq]
      by_cases h : q = p
      · simp only [← h, hq, if_true, Option.getD_none]
      · simp only [h, if_false]
    | some ctx =>
      obtain ⟨r', hdel, hfind⟩ := Resources.delete_eq_ok (r := r) (by rw [hq]; rfl)
      simp only [hdel, hfind]
      by_cases h : q = p
      · simp only [← h, if_true, hq, Option.map_some, Option.getD_some]
      · have hqp : p ≠ q := fun heq => h heq.symm
        simp only [h, hqp, if_false]

/-- A path is there after writes if it was, or if one of them initialises it. -/
theorem isSome_find_applyAll (ws : List (TreeWrite V)) (p : List SdkObjectReference)
    (r : Resources V) :
    ((applyAll ws r).find p).isSome ↔ (r.find p).isSome ∨ ∃ w ∈ ws, w.Reaches p := by
  induction ws generalizing r with
  | nil => simp only [applyAll, List.foldl_nil, List.not_mem_nil, false_and, exists_false, or_false]
  | cons w ws ih =>
    refine (ih (w.apply r)).trans ?_
    rw [isSome_find_apply, List.exists_mem_cons_iff, or_assoc]

/-- **The tree is read off path by path**: what a path holds after writes is what the writes at that
path, in their order, make of what it held. -/
theorem ctxAt_applyAll (ws : List (TreeWrite V)) (p : List SdkObjectReference) (r : Resources V) :
    (applyAll ws r).ctxAt p =
      (ws.filter fun w => w.path = p).foldl (fun ctx w => w.on ctx) (r.ctxAt p) := by
  induction ws generalizing r with
  | nil => rfl
  | cons w ws ih =>
    refine (ih (w.apply r)).trans ?_
    rw [ctxAt_apply]
    by_cases h : w.path = p
    · rw [List.filter_cons_of_pos (by simpa using h), List.foldl_cons, if_pos h]
    · rw [List.filter_cons_of_neg (by simpa using h), if_neg h]

theorem applyAll_append (ws us : List (TreeWrite V)) (r : Resources V) :
    applyAll (ws ++ us) r = applyAll us (applyAll ws r) := List.foldl_append

theorem keysNodup_apply {n : Nat} {r : Resources V} (h : r.KeysNodup n) (w : TreeWrite V) :
    (w.apply r).KeysNodup n := by
  cases w with
  | set kc x newResource failed q => exact Resources.keysNodup_set kc x newResource failed q h
  | clear q =>
    cases hdel : r.delete q with
    | ok r' =>
      simp only [apply, hdel]
      exact Resources.keysNodup_delete h hdel
    | error e =>
      simp only [apply, hdel]
      exact h

theorem keysNodup_applyAll {n : Nat} {r : Resources V} (h : r.KeysNodup n)
    (ws : List (TreeWrite V)) : (applyAll ws r).KeysNodup n := by
  induction ws generalizing r with
  | nil => exact h
  | cons w ws ih => exact ih (keysNodup_apply h w)

end TreeWrite

/-! ## The inventory's reads -/

namespace Inv

/-- The entries at the top: for-instances, or global watches. -/
theorem get_top {inv : Inv V} {k : GvkKind} (hk : k ≠ .ownGVKKind) :
    inv.get k [{}] = inv.resources.entries k := by
  simp only [Inv.get, getSdkRefs, hk, if_false]
  exact Resources.get_wildcard k inv.resources

/-- The entries under a for-instance: its own children, or its watches. -/
theorem get_under {inv : Inv V} {k : GvkKind} (hk : k ≠ .forGVKKind) {F : ObjectReference}
    (hF : F ≠ {}) :
    inv.get k [F, {}] = match inv.resources.child ⟨.forGVKKind, F⟩ with
      | none => []
      | some next => next.entries k := by
  simp only [Inv.get, getSdkRefs, hk, if_false]
  exact Resources.get_wildcard_under hF k inv.resources

variable {inv : Inv V} {k : GvkKind} {F ref : ObjectReference} {ctx : ResourceCtx V}

theorem mem_get_top (h : inv.resources.KeysNodup 2) (hk : k ≠ .ownGVKKind) :
    (F, ctx) ∈ inv.get k [{}] ↔ inv.resources.find [⟨k, F⟩] = some ctx := by
  rw [get_top hk]
  exact Resources.mem_entries h

theorem nodup_get_top (h : inv.resources.KeysNodup 2) (hk : k ≠ .ownGVKKind) :
    ((inv.get k [{}]).map Prod.fst).Nodup := by
  rw [get_top hk]
  exact Resources.nodup_entries h k

theorem mem_get_under (h : inv.resources.KeysNodup 2) (hk : k ≠ .forGVKKind) (hF : F ≠ {}) :
    (ref, ctx) ∈ inv.get k [F, {}] ↔
      inv.resources.find [⟨.forGVKKind, F⟩, ⟨k, ref⟩] = some ctx := by
  rw [get_under hk hF, Resources.find_cons]
  cases hc : inv.resources.child ⟨.forGVKKind, F⟩ with
  | none => simp only [List.not_mem_nil, Option.bind_none, reduceCtorEq]
  | some next => exact Resources.mem_entries (Resources.keysNodup_child h hc)

theorem nodup_get_under (h : inv.resources.KeysNodup 2) (hk : k ≠ .forGVKKind) (hF : F ≠ {}) :
    ((inv.get k [F, {}]).map Prod.fst).Nodup := by
  rw [get_under hk hF]
  cases hc : inv.resources.child ⟨.forGVKKind, F⟩ with
  | none => exact List.nodup_nil
  | some next => exact Resources.nodup_entries (Resources.keysNodup_child h hc) k

end Inv

/-- The inventory after writes to its tree. -/
def Inv.write (inv : Inv V) (ws : List (TreeWrite V)) : Inv V :=
  { inv with resources := TreeWrite.applyAll ws inv.resources }

@[simp] theorem Inv.write_nil (inv : Inv V) : inv.write [] = inv := rfl

@[simp] theorem Inv.resources_write (inv : Inv V) (ws : List (TreeWrite V)) :
    (inv.write ws).resources = TreeWrite.applyAll ws inv.resources := rfl

@[simp] theorem Inv.ready_write (inv : Inv V) (ws : List (TreeWrite V)) :
    (inv.write ws).ready = inv.ready := rfl

@[simp] theorem Inv.isGVKMatch_write (inv : Inv V) (ws : List (TreeWrite V)) :
    (inv.write ws).isGVKMatch = inv.isGVKMatch := rfl

theorem Inv.write_write (inv : Inv V) (ws us : List (TreeWrite V)) :
    (inv.write ws).write us = inv.write (ws ++ us) := by
  simp only [Inv.write, TreeWrite.applyAll_append]

end Nephio.CondKptSdk
