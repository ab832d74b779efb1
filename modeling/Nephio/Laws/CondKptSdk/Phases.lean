import Nephio.Data.Contents
import Nephio.Data.Progress
import Nephio.Laws.CondKptSdk.Back

/-!
# Laws.CondKptSdk.Phases: a parent function and a child function

Two functions of a pipeline that meet only in the package. The parent function owns children of
another kind, the child function gives each child a status, and the parent function sets its own
status from those of its children. A package goes through four phases: nothing is there but the
parents, the children are created, they are processed, the parents are finished. This module says
what the package holds in each of them (`conditionsAt`, `itemsAt`), reference by reference.
-/

namespace Nephio.CondKptSdk

variable {V : Type}

/-- The two functions: the GVKs they are for, the children a parent wants, from its spec, and the
status each of them sets, from its spec and, for a parent, the statuses of its children in whatever
order they come. -/
structure Choreography (V : Type) where
  parent : ObjectReference
  child : ObjectReference
  parent_set : parent.apiVersion ≠ "" ∧ parent.kind ≠ ""
  parent_wild : isWildCardRef parent = false
  child_set : child.apiVersion ≠ "" ∧ child.kind ≠ ""
  child_wild : isWildCardRef child = false
  apart : parent.gvk ≠ child.gvk
  children : ObjectReference → Option V → List (KubeObject V)
  parentStatus : ObjectReference → Option V → List (Option V) → V
  parentStatus_perm : ∀ F spec {l l' : List (Option V)}, l.Perm l' →
    parentStatus F spec l = parentStatus F spec l'
  childStatus : ObjectReference → Option V → V

/-- Who runs. -/
inductive Actor where
  | parent
  | child
deriving DecidableEq, Repr

/-- How far the package is. -/
inductive Phase where
  | bare
  | created
  | processed
  | finished
deriving DecidableEq, Repr

namespace Phase

/-- What a Run makes of it. -/
def next : Phase → Actor → Phase
  | bare, .parent => created
  | created, .child => processed
  | processed, .parent => finished
  | phase, _ => phase

/-- The Runs that are still needed. -/
def need : Phase → List Actor
  | bare => [.parent, .child, .parent]
  | created => [.child, .parent]
  | processed => [.parent]
  | finished => []

theorem need_next (phase : Phase) (a : Actor) :
    (phase.next a).need = Progress.advance phase.need a := by
  cases phase <;> cases a <;> rfl

theorem need_injective : Function.Injective need := by
  intro a b h
  cases a <;> cases b <;> first | rfl | cases h

/-- The phase after some Runs. -/
def after (phase : Phase) (word : List Actor) : Phase := word.foldl next phase

theorem need_after (phase : Phase) (word : List Actor) :
    (phase.after word).need = Progress.left phase.need word := by
  induction word generalizing phase with
  | nil => rfl
  | cons a word ih =>
    rw [Progress.left_cons, ← need_next]
    exact ih (phase.next a)

/-- **The last phase** is reached exactly where the three Runs stand in the word, in their order. -/
theorem after_bare_eq_finished {word : List Actor} :
    bare.after word = finished ↔ [Actor.parent, .child, .parent].Sublist word := by
  rw [← need_injective.eq_iff, need_after]
  exact Progress.left_eq_nil_iff

/-- The condition of a child. -/
def childCondition (phase : Phase) (F : ObjectReference) (d : KubeObject V) : Option Condition :=
  match phase with
  | bare => none
  | created => some (ownCondition F d.ref "create initial resource" .conditionFalse)
  | processed => some (ownCondition F d.ref "update done" .conditionTrue)
  | finished => some (ownCondition F d.ref "update done" .conditionTrue)

end Phase

namespace Choreography

variable (c : Choreography V)

/-- The parent function. -/
def parentFn : Config V where
  forRef := c.parent
  owns := [(c.child, .childRemote)]
  populateOwnResourcesFn := some fun F o => .ok (c.children F o.spec)
  updateResourceFn := some (giveBack fun F o objs =>
    { o with status := some (c.parentStatus F o.spec (objs.map KubeObject.status)) })

/-- The child function. -/
def childFn : Config V where
  forRef := c.child
  updateResourceFn := some (giveBack fun F o _ =>
    { o with status := some (c.childStatus F o.spec) })

def fn : Actor → Config V
  | .parent => c.parentFn
  | .child => c.childFn

def parentInv : Inv V where
  gvkResources := [(c.parent.gvk, { gvkKind := .forGVKKind }),
    (c.child.gvk, { gvkKind := .ownGVKKind, ownKind := some .childRemote })]

def childInv : Inv V where
  gvkResources := [(c.child.gvk, { gvkKind := .forGVKKind })]

def inv : Actor → Inv V
  | .parent => c.parentInv
  | .child => c.childInv

theorem newInventory_parentFn : newInventory c.parentFn = .ok c.parentInv := by
  have hparent : validateGVKRef c.parent = .ok () :=
    if_neg (not_or.mpr ⟨c.parent_set.1, c.parent_set.2⟩)
  have hchild : validateGVKRef c.child = .ok () :=
    if_neg (not_or.mpr ⟨c.child_set.1, c.child_set.2⟩)
  have hadd : Inv.addGVKObjectReference { gvkResources := [(c.parent.gvk, { gvkKind := .forGVKKind })] }
      { gvkKind := .ownGVKKind, ownKind := some .childRemote } c.child = .ok c.parentInv := by
    unfold Inv.addGVKObjectReference
    rw [Keyed.lookup_cons, if_neg c.apart]
    rfl
  have hfirst : Inv.addGVKObjectReference ({ gvkResources := [] } : Inv V)
      { gvkKind := .forGVKKind } c.parent =
        .ok { gvkResources := [(c.parent.gvk, { gvkKind := .forGVKKind })] } := rfl
  simp only [newInventory, Inv.initializeGVKInventory, parentFn, hparent, c.parent_wild, hfirst,
    List.foldlM_cons, List.foldlM_nil, hchild, c.child_wild, bind, Except.bind, hadd,
    Bool.false_eq_true, if_false, false_and]
  rfl

theorem newInventory_childFn : newInventory c.childFn = .ok c.childInv := by
  have hchild : validateGVKRef c.child = .ok () :=
    if_neg (not_or.mpr ⟨c.child_set.1, c.child_set.2⟩)
  simp only [newInventory, Inv.initializeGVKInventory, childFn, hchild, c.child_wild,
    Inv.addGVKObjectReference, Keyed.lookup_nil, List.nil_append, List.foldlM_nil]
  rfl

/-! ## The package in each phase -/

/-- The parents of a package. -/
def parents (items : List (KubeObject V)) : List (KubeObject V) :=
  items.filter fun o => o.ref.gvk = c.parent.gvk

/-- The parents with the children they want. -/
def family (items : List (KubeObject V)) : List (ObjectReference × KubeObject V) :=
  (c.parents items).flatMap fun o => (c.children o.ref o.spec).map fun d => (o.ref, d)

/-- A parent that wants no children is finished as soon as its function runs. -/
def parentDone (phase : Phase) (o : KubeObject V) : Bool :=
  phase = .finished ∨ (phase ≠ .bare ∧ c.children o.ref o.spec = [])

def parentItem (phase : Phase) (o : KubeObject V) : KubeObject V :=
  if c.parentDone phase o then
    { o with status := some (c.parentStatus o.ref o.spec ((c.children o.ref o.spec).map fun d =>
        some (c.childStatus d.ref d.spec))) }
  else o

def parentCondition (phase : Phase) (o : KubeObject V) : Option Condition :=
  if phase = .bare then none
  else if c.parentDone phase o then some (forCondition o.ref "update done" .conditionTrue)
  else some (forCondition o.ref "update for condition" .conditionFalse)

/-- A child after the child function. -/
def processedChild (F : ObjectReference) (d : KubeObject V) : KubeObject V :=
  { owned F d with status := some (c.childStatus d.ref d.spec) }

def childItem (phase : Phase) (F : ObjectReference) (d : KubeObject V) : Option (KubeObject V) :=
  match phase with
  | .bare => none
  | .created => some (owned F d)
  | .processed => some (c.processedChild F d)
  | .finished => some (c.processedChild F d)

/-- What becomes of an item of the package. -/
def item (phase : Phase) (o : KubeObject V) : KubeObject V :=
  if o.ref.gvk = c.parent.gvk then c.parentItem phase o else o

/-- The conditions in a phase. -/
def conditionsAt (phase : Phase) (items : List (KubeObject V)) : List Condition :=
  ((c.parents items).flatMap fun o => (c.parentCondition phase o).toList) ++
    (c.family items).flatMap fun e => (phase.childCondition e.1 e.2).toList

/-- The items in a phase. -/
def itemsAt (phase : Phase) (items : List (KubeObject V)) : List (KubeObject V) :=
  items.map (c.item phase) ++ (c.family items).flatMap fun e => (c.childItem phase e.1 e.2).toList

/-- A package to start from: parents in the documented form, each with a reference of its own, no
children yet, and wanted children that can be told apart and have no delete annotation. -/
structure Starts (items : List (KubeObject V)) : Prop where
  items_ne : items ≠ []
  documented : ∀ o ∈ c.parents items, o.ref.Documented
  distinct : ((c.parents items).map KubeObject.ref).Nodup
  childless : ∀ o ∈ items, o.ref.gvk ≠ c.child.gvk
  children_gvk : ∀ e ∈ c.family items, e.2.ref.gvk = c.child.gvk
  children_documented : ∀ e ∈ c.family items, e.2.ref.Documented
  children_distinct : ((c.family items).map fun e => e.2.ref).Nodup
  children_unmarked : ∀ e ∈ c.family items, e.2.marked = false

variable {c} {items : List (KubeObject V)} {phase : Phase}

theorem isGVKMatch_wild {gvks : List (ObjectReference × GvkKindCtx V)}
    (h : ∀ e ∈ gvks, e.1 = c.parent.gvk ∨ e.1 = c.child.gvk) :
    Keyed.lookup Prod.fst ({ apiVersion := "*", kind := "*" } : ObjectReference) gvks = none := by
  rw [Keyed.lookup_eq_none]
  intro hmem
  obtain ⟨e, he, heq⟩ := List.mem_map.mp hmem
  have hwild : ∀ ref : ObjectReference, isWildCardRef ref = false →
      ref.gvk ≠ { apiVersion := "*", kind := "*" } := by
    intro ref hnot hgvk
    simp only [ObjectReference.gvk, ObjectReference.mk.injEq, and_true] at hgvk
    exact absurd (decide_eq_true hgvk) (by rw [isWildCardRef] at hnot; rw [hnot]; decide)
  rcases h e he with hparent | hchild
  · exact hwild _ c.parent_wild (hparent.symm.trans heq)
  · exact hwild _ c.child_wild (hchild.symm.trans heq)

theorem role_parentInv (ref : ObjectReference) :
    c.parentInv.role ref = if ref.gvk = c.parent.gvk then some .forGVKKind
      else if ref.gvk = c.child.gvk then some .ownGVKKind else none := by
  unfold Inv.role Inv.isGVKMatch parentInv
  rw [isGVKMatch_wild (c := c) (by simp), Keyed.lookup_cons, Keyed.lookup_cons, Keyed.lookup_nil]
  simp only [eq_comm (a := c.parent.gvk), eq_comm (a := c.child.gvk)]
  split_ifs <;> rfl

theorem isGVKMatch_parentInv {ref : ObjectReference} (h : ref.gvk = c.child.gvk) :
    c.parentInv.isGVKMatch ref =
      some { gvkKind := .ownGVKKind, ownKind := some .childRemote } := by
  unfold Inv.isGVKMatch parentInv
  rw [Keyed.lookup_cons, if_neg (by rw [h]; exact c.apart), Keyed.lookup_cons, if_pos h.symm]

theorem role_childInv (ref : ObjectReference) :
    c.childInv.role ref = if ref.gvk = c.child.gvk then some .forGVKKind else none := by
  unfold Inv.role Inv.isGVKMatch childInv
  rw [isGVKMatch_wild (c := c) (by simp), Keyed.lookup_cons, Keyed.lookup_nil]
  simp only [eq_comm (a := c.child.gvk)]
  split_ifs <;> rfl

theorem mem_parents {o : KubeObject V} :
    o ∈ c.parents items ↔ o ∈ items ∧ o.ref.gvk = c.parent.gvk := by
  rw [parents, List.mem_filter, decide_eq_true_iff]

theorem mem_family {F : ObjectReference} {d : KubeObject V} :
    (F, d) ∈ c.family items ↔
      ∃ o ∈ c.parents items, o.ref = F ∧ d ∈ c.children o.ref o.spec := by
  simp only [family, List.mem_flatMap, List.mem_map, Prod.mk.injEq]
  constructor
  · rintro ⟨o, ho, d', hd, rfl, rfl⟩
    exact ⟨o, ho, rfl, hd⟩
  · rintro ⟨o, ho, rfl, hd⟩
    exact ⟨o, ho, d, hd, rfl, rfl⟩

/-- A parent that is finished stays so. -/
theorem parentDone_next {o : KubeObject V} (a : Actor) (h : c.parentDone phase o = true) :
    c.parentDone (phase.next a) o = true := by
  have hchildren := of_decide_eq_true h
  refine decide_eq_true ?_
  rcases hchildren with rfl | ⟨hbare, hnil⟩
  · cases a <;> exact Or.inl rfl
  · refine Or.inr ⟨?_, hnil⟩
    cases phase with
    | bare => exact absurd rfl hbare
    | created | processed | finished => cases a <;> decide

/-- The child function does nothing to a parent. -/
theorem parentDone_next_child (o : KubeObject V) :
    c.parentDone (phase.next .child) o = c.parentDone phase o := by
  cases phase <;> simp only [Phase.next, parentDone, reduceCtorEq, ne_eq, not_false_eq_true,
    not_true_eq_false, true_and, false_and, false_or, true_or]

theorem parent_next_child (o : KubeObject V) :
    c.parentCondition (phase.next .child) o = c.parentCondition phase o ∧
      c.parentItem (phase.next .child) o = c.parentItem phase o := by
  have hbare : phase.next .child = .bare ↔ phase = .bare := by cases phase <;> decide
  simp only [parentCondition, parentItem, parentDone_next_child, hbare, and_self]

@[simp] theorem ref_parentItem (o : KubeObject V) : (c.parentItem phase o).ref = o.ref := by
  unfold parentItem
  split_ifs <;> rfl

@[simp] theorem spec_parentItem (o : KubeObject V) : (c.parentItem phase o).spec = o.spec := by
  unfold parentItem
  split_ifs <;> rfl

@[simp] theorem ref_item (o : KubeObject V) : (c.item phase o).ref = o.ref := by
  unfold item
  split_ifs
  · exact ref_parentItem o
  · rfl

theorem type_parentCondition {o : KubeObject V} {cond : Condition}
    (h : c.parentCondition phase o = some cond) :
    cond.type = getConditionType o.ref ∧ cond.reason = "" := by
  unfold parentCondition at h
  split_ifs at h <;> cases h <;> exact ⟨rfl, rfl⟩

theorem type_childCondition {F : ObjectReference} {d : KubeObject V} {cond : Condition}
    (h : phase.childCondition F d = some cond) :
    cond.type = getConditionType d.ref ∧ cond.reason = getConditionType F := by
  cases phase <;> cases h <;> exact ⟨rfl, rfl⟩

/-- What a child's item is, whichever the phase. -/
theorem childItem_spec {F : ObjectReference} {d x : KubeObject V}
    (h : c.childItem phase F d = some x) :
    x.ref = d.ref ∧ x.spec = d.spec ∧ x.annotations = (owned F d).annotations := by
  cases phase <;> cases h <;> exact ⟨rfl, rfl, rfl⟩

theorem mem_conditionsAt {cond : Condition} :
    cond ∈ c.conditionsAt phase items ↔
      (∃ o ∈ c.parents items, c.parentCondition phase o = some cond) ∨
        ∃ e ∈ c.family items, phase.childCondition e.1 e.2 = some cond := by
  simp only [conditionsAt, List.mem_append, List.mem_flatMap, Option.mem_toList]

theorem mem_itemsAt {x : KubeObject V} :
    x ∈ c.itemsAt phase items ↔
      (∃ o ∈ items, c.item phase o = x) ∨
        ∃ e ∈ c.family items, c.childItem phase e.1 e.2 = some x := by
  simp only [itemsAt, List.mem_append, List.mem_map, List.mem_flatMap, Option.mem_toList]

/-- At first nothing is there but what is in the package. -/
theorem itemsAt_bare (items : List (KubeObject V)) : c.itemsAt .bare items = items := by
  have hitem : ∀ o, c.item .bare o = o := by
    intro o
    have hnot : c.parentDone .bare o = false := by
      exact decide_eq_false (not_or.mpr ⟨by decide, fun h => h.1 rfl⟩)
    simp only [item, parentItem, hnot, Bool.false_eq_true, if_false, ite_self]
  have hnone : ((c.family items).flatMap fun e => (c.childItem .bare e.1 e.2).toList) = [] :=
    List.flatMap_eq_nil_iff.mpr fun _ _ => rfl
  rw [itemsAt, hnone, List.append_nil]
  exact (List.map_congr_left fun o _ => hitem o).trans (List.map_id _)

theorem conditionsAt_bare (items : List (KubeObject V)) : c.conditionsAt .bare items = [] :=
  List.append_eq_nil_iff.mpr ⟨List.flatMap_eq_nil_iff.mpr fun _ _ => rfl,
    List.flatMap_eq_nil_iff.mpr fun _ _ => rfl⟩

section Starts

variable (hs : c.Starts items)

include hs

theorem Starts.parent_of_family {F : ObjectReference} {d : KubeObject V}
    (h : (F, d) ∈ c.family items) : F.Documented ∧ F.gvk = c.parent.gvk := by
  obtain ⟨o, ho, rfl, -⟩ := mem_family.mp h
  exact ⟨hs.documented o ho, (mem_parents.mp ho).2⟩

/-- A child is of one parent, and wanted once. -/
theorem Starts.eq_of_ref {e e' : ObjectReference × KubeObject V} (he : e ∈ c.family items)
    (he' : e' ∈ c.family items) (h : e.2.ref = e'.2.ref) : e = e' :=
  List.inj_on_of_nodup_map hs.children_distinct he he' h

theorem Starts.parent_eq {o o' : KubeObject V} (ho : o ∈ c.parents items)
    (ho' : o' ∈ c.parents items) (h : o.ref = o'.ref) : o = o' :=
  List.inj_on_of_nodup_map hs.distinct ho ho' h

theorem Starts.nodup_children {o : KubeObject V} (ho : o ∈ c.parents items) :
    (Keyed.keys KubeObject.ref (c.children o.ref o.spec)).Nodup := by
  have hnodup := hs.children_distinct
  rw [family, List.map_flatMap, List.nodup_flatMap] at hnodup
  have hmap := hnodup.1 o ho
  rwa [List.map_map] at hmap

/-- The condition types of a package. -/
def types (c : Choreography V) (items : List (KubeObject V)) : List String :=
  ((c.parents items).map fun o => getConditionType o.ref) ++
    (c.family items).map fun e => getConditionType e.2.ref

theorem Starts.type_ne {o : KubeObject V} (ho : o ∈ c.parents items)
    {e : ObjectReference × KubeObject V} (he : e ∈ c.family items) :
    getConditionType o.ref ≠ getConditionType e.2.ref := by
  intro heq
  have href := (hs.documented o ho).injective (hs.children_documented e he) heq
  exact c.apart ((mem_parents.mp ho).2.symm.trans ((congrArg _ href).trans (hs.children_gvk e he)))

theorem Starts.nodup_types : (c.types items).Nodup := by
  refine List.nodup_append.mpr ⟨?_, ?_, ?_⟩
  · refine List.Nodup.map_on (fun o ho o' ho' heq => ?_) (List.Nodup.of_map _ hs.distinct)
    exact hs.parent_eq ho ho' ((hs.documented o ho).injective (hs.documented o' ho') heq)
  · refine List.Nodup.map_on (fun e he e' he' heq => ?_) (List.Nodup.of_map _ hs.children_distinct)
    exact hs.eq_of_ref he he' ((hs.children_documented e he).injective
      (hs.children_documented e' he') heq)
  · intro t ht t' ht' heq
    obtain ⟨o, ho, rfl⟩ := List.mem_map.mp ht
    obtain ⟨e, he, rfl⟩ := List.mem_map.mp ht'
    exact hs.type_ne ho he heq

theorem Starts.nodup_conditionsAt :
    (Keyed.keys Condition.type (c.conditionsAt phase items)).Nodup := by
  refine hs.nodup_types.sublist ?_
  rw [conditionsAt, Keyed.keys, List.map_append]
  refine List.Sublist.append ?_ ?_
  · exact Keyed.keys_flatMap_toList (fun o cond h => (type_parentCondition h).1) _
  · exact Keyed.keys_flatMap_toList (fun e cond h => (type_childCondition h).1) _

omit hs in
theorem lookup_conditionsAt_other {t : String} (ht : t ∉ c.types items) :
    Keyed.lookup Condition.type t (c.conditionsAt phase items) = none := by
  rw [Keyed.lookup_eq_none]
  intro hmem
  obtain ⟨cond, hcond, rfl⟩ := List.mem_map.mp hmem
  refine ht (List.mem_append.mpr ?_)
  rcases mem_conditionsAt.mp hcond with ⟨o, ho, h⟩ | ⟨e, he, h⟩
  · exact Or.inl (List.mem_map.mpr ⟨o, ho, (type_parentCondition h).1.symm⟩)
  · exact Or.inr (List.mem_map.mpr ⟨e, he, (type_childCondition h).1.symm⟩)

/-- The condition of a parent in a phase. -/
theorem Starts.lookup_parent {o : KubeObject V} (ho : o ∈ c.parents items) :
    Keyed.lookup Condition.type (getConditionType o.ref) (c.conditionsAt phase items) =
      c.parentCondition phase o := by
  refine Option.ext fun cond => ?_
  rw [Keyed.lookup_eq_some_iff _ hs.nodup_conditionsAt, mem_conditionsAt]
  constructor
  · rintro ⟨⟨o', ho', h⟩ | ⟨e, he, h⟩, htype⟩
    · rw [(type_parentCondition h).1] at htype
      rwa [← hs.parent_eq ho' ho ((hs.documented o' ho').injective (hs.documented o ho) htype)]
    · rw [(type_childCondition h).1] at htype
      exact absurd htype.symm (hs.type_ne ho he)
  · exact fun h => ⟨Or.inl ⟨o, ho, h⟩, (type_parentCondition h).1⟩

/-- The condition of a child in a phase. -/
theorem Starts.lookup_child {e : ObjectReference × KubeObject V} (he : e ∈ c.family items) :
    Keyed.lookup Condition.type (getConditionType e.2.ref) (c.conditionsAt phase items) =
      phase.childCondition e.1 e.2 := by
  refine Option.ext fun cond => ?_
  rw [Keyed.lookup_eq_some_iff _ hs.nodup_conditionsAt, mem_conditionsAt]
  constructor
  · rintro ⟨⟨o, ho, h⟩ | ⟨e', he', h⟩, htype⟩
    · rw [(type_parentCondition h).1] at htype
      exact absurd htype (hs.type_ne ho he)
    · rw [(type_childCondition h).1] at htype
      rwa [← hs.eq_of_ref he' he ((hs.children_documented e' he').injective
        (hs.children_documented e he) htype)]
  · exact fun h => ⟨Or.inr ⟨e, he, h⟩, (type_childCondition h).1⟩

omit hs in
theorem filter_itemsAt (ref : ObjectReference) :
    (c.itemsAt phase items).filter (fun o => o.ref = ref) =
      (items.filter fun o => o.ref = ref).map (c.item phase) ++
        ((c.family items).flatMap fun e => (c.childItem phase e.1 e.2).toList).filter
          fun o => o.ref = ref := by
  rw [itemsAt, List.filter_append, List.filter_map]
  congr 2
  exact List.filter_congr fun o _ => by rw [Function.comp_apply, ref_item]

omit hs in
/-- The children's items have the references of children. -/
theorem filter_childItems_of_ne {ref : ObjectReference}
    (href : ∀ e ∈ c.family items, e.2.ref ≠ ref) :
    (((c.family items).flatMap fun e => (c.childItem phase e.1 e.2).toList).filter
      fun o => o.ref = ref) = [] := by
  refine List.filter_eq_nil_iff.mpr fun o ho heq => ?_
  obtain ⟨e, he, ho⟩ := List.mem_flatMap.mp ho
  refine href e he ?_
  rw [← (childItem_spec (Option.mem_toList.mp ho)).1]
  exact of_decide_eq_true heq

/-- The item of a parent in a phase. -/
theorem Starts.filter_parent {o : KubeObject V} (ho : o ∈ c.parents items) :
    (c.itemsAt phase items).filter (fun x => x.ref = o.ref) = [c.parentItem phase o] := by
  have hgvk := (mem_parents.mp ho).2
  have hone : (items.filter fun x => x.ref = o.ref) = [o] := by
    have hparents : (items.filter fun x => x.ref = o.ref) =
        (c.parents items).filter fun x => x.ref = o.ref := by
      rw [parents, List.filter_filter]
      refine List.filter_congr fun x _ => ?_
      by_cases hx : x.ref = o.ref
      · rw [hx, hgvk]
        simp only [decide_true, Bool.and_self]
      · simp only [hx, decide_false, Bool.false_and]
    rw [hparents]
    exact Keyed.filter_key_eq KubeObject.ref hs.distinct ho
  rw [filter_itemsAt, hone, filter_childItems_of_ne, List.append_nil, List.map_singleton, item,
    if_pos hgvk]
  intro e he heq
  exact c.apart (hgvk.symm.trans ((congrArg _ heq.symm).trans (hs.children_gvk e he)))

/-- The item of a child in a phase. -/
theorem Starts.filter_child {e : ObjectReference × KubeObject V} (he : e ∈ c.family items) :
    (c.itemsAt phase items).filter (fun x => x.ref = e.2.ref) =
      (c.childItem phase e.1 e.2).toList := by
  have hnone : (items.filter fun x => x.ref = e.2.ref) = [] := by
    refine List.filter_eq_nil_iff.mpr fun o ho heq => hs.childless o ho ?_
    rw [of_decide_eq_true heq]
    exact hs.children_gvk e he
  rw [filter_itemsAt, hnone, List.map_nil, List.nil_append]
  rw [Keyed.filter_flatMap_of_key (fun e : ObjectReference × KubeObject V => e.2.ref)
    hs.children_distinct he]
  · refine List.filter_eq_self.mpr fun x hx => decide_eq_true ?_
    exact (childItem_spec (Option.mem_toList.mp hx)).1
  · intro e' _ hne x hx
    rw [(childItem_spec (Option.mem_toList.mp hx)).1]
    exact decide_eq_false hne

omit hs in
/-- The other items are as they were. -/
theorem filter_itemsAt_other {ref : ObjectReference}
    (hparent : ∀ o ∈ c.parents items, o.ref ≠ ref) (hchild : ∀ e ∈ c.family items, e.2.ref ≠ ref) :
    (c.itemsAt phase items).filter (fun x => x.ref = ref) = items.filter fun x => x.ref = ref := by
  rw [filter_itemsAt, filter_childItems_of_ne hchild, List.append_nil]
  refine (List.map_congr_left fun o ho => ?_).trans (List.map_id _)
  obtain ⟨hmem, href⟩ := List.mem_filter.mp ho
  refine if_neg fun hgvk => ?_
  exact hparent o (mem_parents.mpr ⟨hmem, hgvk⟩) (of_decide_eq_true href)

end Starts

end Choreography

end Nephio.CondKptSdk
