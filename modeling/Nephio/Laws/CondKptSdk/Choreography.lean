import Nephio.Laws.CondKptSdk.Idempotent
import Nephio.Laws.CondKptSdk.Phases

/-!
# Laws.CondKptSdk.Choreography: the two functions in any order

The functions of `Phases` run on one package, one after the other, in any order and as often as one
likes. A Run of the parent function takes the package from a phase to the next one it can
(`shows_parent`), so does a Run of the child function (`shows_child`), and every other Run leaves it
as it is. `runs_in_any_order` follows for every sequence of Runs: they complete, and the parents are
finished exactly if the turns parent, child, parent were taken, whatever else ran between them.
-/

namespace Nephio.CondKptSdk

variable {V : Type}

namespace Choreography

variable {c : Choreography V} {items : List (KubeObject V)} {phase : Phase}

/-- The package is in a phase. -/
structure Shows (c : Choreography V) (phase : Phase) (start : List (KubeObject V)) (r : Sdk V) :
    Prop where
  items : r.items.Perm (c.itemsAt phase start)
  conditions : r.kptfile.conditions.Perm (c.conditionsAt phase start)

section Shows

variable {r : Sdk V} (hs : c.Starts items) (hr : c.Shows phase items r)

include hs hr

theorem Shows.nodup : (Keyed.keys Condition.type r.kptfile.conditions).Nodup :=
  (hr.conditions.map Condition.type).nodup_iff.mpr hs.nodup_conditionsAt

theorem Shows.getCondition (t : String) :
    r.kptfile.getCondition t = Keyed.lookup Condition.type t (c.conditionsAt phase items) := by
  refine Option.ext fun cond => ?_
  show Keyed.lookup Condition.type t r.kptfile.conditions = some cond ↔ _
  rw [Keyed.lookup_eq_some_iff _ (hr.nodup hs), Keyed.lookup_eq_some_iff _ hs.nodup_conditionsAt,
    hr.conditions.mem_iff]

theorem Shows.getCondition_parent {o : KubeObject V} (ho : o ∈ c.parents items) :
    r.kptfile.getCondition (getConditionType o.ref) = c.parentCondition phase o :=
  (hr.getCondition hs _).trans (hs.lookup_parent ho)

theorem Shows.getCondition_child {e : ObjectReference × KubeObject V} (he : e ∈ c.family items) :
    r.kptfile.getCondition (getConditionType e.2.ref) = phase.childCondition e.1 e.2 :=
  (hr.getCondition hs _).trans (hs.lookup_child he)

theorem Shows.filter_parent {o : KubeObject V} (ho : o ∈ c.parents items) :
    r.items.filter (fun x => x.ref = o.ref) = [c.parentItem phase o] := by
  have hperm := hr.items.filter fun x => x.ref = o.ref
  rw [hs.filter_parent ho] at hperm
  exact List.perm_singleton.mp hperm

theorem Shows.filter_child {e : ObjectReference × KubeObject V} (he : e ∈ c.family items) :
    r.items.filter (fun x => x.ref = e.2.ref) = (c.childItem phase e.1 e.2).toList := by
  have hperm := hr.items.filter fun x => x.ref = e.2.ref
  rw [hs.filter_child he] at hperm
  cases hitem : c.childItem phase e.1 e.2 with
  | none =>
    rw [hitem] at hperm
    exact hperm.eq_nil
  | some x =>
    rw [hitem] at hperm
    exact List.perm_singleton.mp hperm

omit hs in
/-- What is in the package: a parent, a child, or something else that was there. -/
theorem Shows.mem_items {x : KubeObject V} (hx : x ∈ r.items) :
    (∃ o ∈ c.parents items, x = c.parentItem phase o) ∨
      (∃ e ∈ c.family items, c.childItem phase e.1 e.2 = some x) ∨
      (x ∈ items ∧ x.ref.gvk ≠ c.parent.gvk) := by
  rcases mem_itemsAt.mp (hr.items.mem_iff.mp hx) with ⟨o, ho, rfl⟩ | hchild
  · by_cases hgvk : o.ref.gvk = c.parent.gvk
    · exact Or.inl ⟨o, mem_parents.mpr ⟨ho, hgvk⟩, if_pos hgvk⟩
    · have hitem : c.item phase o = o := if_neg hgvk
      rw [hitem]
      exact Or.inr (Or.inr ⟨ho, hgvk⟩)
  · exact Or.inr (Or.inl hchild)

omit hs in
theorem Shows.mem_conditions {cond : Condition} (hcond : cond ∈ r.kptfile.conditions) :
    (∃ o ∈ c.parents items, c.parentCondition phase o = some cond) ∨
      ∃ e ∈ c.family items, phase.childCondition e.1 e.2 = some cond :=
  mem_conditionsAt.mp (hr.conditions.mem_iff.mp hcond)

omit hr in
theorem Starts.owner_childItem {F : ObjectReference} {d x : KubeObject V}
    (he : (F, d) ∈ c.family items) (hx : c.childItem phase F d = some x) :
    x.owner = getConditionType F ∧ getGVKNFromConditionType x.owner = F := by
  have howner : x.owner = getConditionType F := by
    have howned := Sdk.owner_owned F d
    unfold KubeObject.owner KubeObject.getAnnotation at howned ⊢
    rwa [(childItem_spec hx).2.2]
  exact ⟨howner, by rw [howner, (hs.parent_of_family he).1.decode]⟩

/-- What is filed of a package: a parent, a child under its parent, or something else. -/
theorem Shows.mem_resources {e : ObjectReference × ObjectReference}
    (he : e ∈ Sdk.resourcesOf r.kptfile.conditions r.items) :
    (∃ o ∈ c.parents items, o.ref = e.1) ∨
      (phase ≠ .bare ∧ ∃ F d, (F, d) ∈ c.family items ∧ e = (d.ref, F)) ∨
      (e.1.gvk ≠ c.parent.gvk ∧ e.1.gvk ≠ c.child.gvk) := by
  rcases List.mem_append.mp he with he | he
  · obtain ⟨cond, hcond, rfl⟩ := List.mem_map.mp he
    rcases hr.mem_conditions hcond with ⟨o, ho, h⟩ | ⟨⟨F, d⟩, he, h⟩
    · rw [(type_parentCondition h).1, (hs.documented o ho).decode]
      exact Or.inl ⟨o, ho, rfl⟩
    · have hphase : phase ≠ .bare := by
        rintro rfl
        cases h
      rw [(type_childCondition h).1, (type_childCondition h).2,
        (hs.children_documented _ he).decode, (hs.parent_of_family he).1.decode]
      exact Or.inr (Or.inl ⟨hphase, F, d, he, rfl⟩)
  · obtain ⟨x, hx, rfl⟩ := List.mem_map.mp he
    rcases hr.mem_items hx with ⟨o, ho, rfl⟩ | ⟨⟨F, d⟩, he, hitem⟩ | ⟨hmem, hne⟩
    · exact Or.inl ⟨o, ho, (ref_parentItem o).symm⟩
    · have hphase : phase ≠ .bare := by
        rintro rfl
        cases hitem
      rw [(hs.owner_childItem he hitem).2, (childItem_spec hitem).1]
      exact Or.inr (Or.inl ⟨hphase, F, d, he, rfl⟩)
    · exact Or.inr (Or.inr ⟨hne, hs.childless x hmem⟩)

theorem Shows.parent_of_resource {e : ObjectReference × ObjectReference}
    (he : e ∈ Sdk.resourcesOf r.kptfile.conditions r.items) (hgvk : e.1.gvk = c.parent.gvk) :
    ∃ o ∈ c.parents items, o.ref = e.1 := by
  rcases hr.mem_resources hs he with h | ⟨-, F, d, hd, rfl⟩ | ⟨hne, -⟩
  · exact h
  · have hchild : d.ref.gvk = c.child.gvk := hs.children_gvk (F, d) hd
    exact absurd (hgvk.symm.trans hchild) c.apart
  · exact absurd hgvk hne

theorem Shows.child_of_resource {e : ObjectReference × ObjectReference}
    (he : e ∈ Sdk.resourcesOf r.kptfile.conditions r.items) (hgvk : e.1.gvk = c.child.gvk) :
    phase ≠ .bare ∧ ∃ F d, (F, d) ∈ c.family items ∧ e = (d.ref, F) := by
  rcases hr.mem_resources hs he with ⟨o, ho, href⟩ | h | ⟨-, hne⟩
  · rw [← href, (mem_parents.mp ho).2] at hgvk
    exact absurd hgvk c.apart
  · exact h
  · exact absurd hgvk hne

omit hs hr in
theorem mem_resources_of_item {x : KubeObject V} (hx : x ∈ r.items) :
    (x.ref, getGVKNFromConditionType x.owner) ∈ Sdk.resourcesOf r.kptfile.conditions r.items :=
  List.mem_append_right _ (List.mem_map.mpr ⟨x, hx, rfl⟩)

/-- The conditions are in the documented form. -/
theorem Shows.written {cond : Condition} (hcond : cond ∈ r.kptfile.conditions) :
    Written cond.type := by
  rcases hr.mem_conditions hcond with ⟨o, ho, h⟩ | ⟨e, he, h⟩
  · exact ⟨o.ref, hs.documented o ho, (type_parentCondition h).1⟩
  · exact ⟨e.2.ref, hs.children_documented e he, (type_childCondition h).1⟩

end Shows

/-- A package is in a phase if it is, reference by reference. -/
theorem Shows.of_views [DecidableEq V] (hs : c.Starts items) {r : Sdk V}
    (hnodup : (Keyed.keys Condition.type r.kptfile.conditions).Nodup)
    (hparent : ∀ o ∈ c.parents items,
      r.kptfile.getCondition (getConditionType o.ref) = c.parentCondition phase o ∧
        r.items.filter (fun x => x.ref = o.ref) = [c.parentItem phase o])
    (hchild : ∀ F d, (F, d) ∈ c.family items →
      r.kptfile.getCondition (getConditionType d.ref) = phase.childCondition F d ∧
        r.items.filter (fun x => x.ref = d.ref) = (c.childItem phase F d).toList)
    (hconditions : ∀ t, t ∉ c.types items → r.kptfile.getCondition t = none)
    (hitems : ∀ ref, (∀ o ∈ c.parents items, o.ref ≠ ref) → (∀ e ∈ c.family items, e.2.ref ≠ ref) →
      (r.items.filter fun x => x.ref = ref).Perm (items.filter fun x => x.ref = ref)) :
    c.Shows phase items r where
  conditions := by
    refine Keyed.perm_of_lookup hnodup hs.nodup_conditionsAt fun t => ?_
    by_cases ht : t ∈ c.types items
    · rcases List.mem_append.mp ht with ht | ht
      · obtain ⟨o, ho, rfl⟩ := List.mem_map.mp ht
        exact (hparent o ho).1.trans (hs.lookup_parent ho).symm
      · obtain ⟨⟨F, d⟩, he, rfl⟩ := List.mem_map.mp ht
        exact (hchild F d he).1.trans (hs.lookup_child he).symm
    · exact (hconditions t ht).trans (lookup_conditionsAt_other ht).symm
  items := by
    refine Keyed.perm_of_filter_key KubeObject.ref fun ref => ?_
    by_cases hp : ∃ o ∈ c.parents items, o.ref = ref
    · obtain ⟨o, ho, rfl⟩ := hp
      exact List.Perm.of_eq ((hparent o ho).2.trans (hs.filter_parent ho).symm)
    · by_cases he : ∃ e ∈ c.family items, e.2.ref = ref
      · obtain ⟨⟨F, d⟩, he, rfl⟩ := he
        exact List.Perm.of_eq ((hchild F d he).2.trans (hs.filter_child he).symm)
      · have hp : ∀ o ∈ c.parents items, o.ref ≠ ref := fun o ho heq => hp ⟨o, ho, heq⟩
        have he : ∀ e ∈ c.family items, e.2.ref ≠ ref := fun e he' heq => he ⟨e, he', heq⟩
        exact (hitems ref hp he).trans (List.Perm.of_eq (filter_itemsAt_other hp he).symm)

/-! ## A child as the parent function sees it -/

def childView (c : Choreography V) (phase : Phase) (F : ObjectReference) (d : KubeObject V) :
    ResourceCtx V where
  kindCtx := some { gvkKind := .ownGVKKind, ownKind := some .childRemote }
  existingCondition := phase.childCondition F d
  existingResource := c.childItem phase F d
  newResource := some (owned F d)

theorem marked_owned (F : ObjectReference) (d : KubeObject V) : (owned F d).marked = d.marked := by
  unfold KubeObject.marked KubeObject.hasAnnotation owned KubeObject.setAnnotation
  rw [Keyed.lookup_upsert, if_neg (show specializerOwner ≠ specializerDelete by decide)]

section View

variable (hs : c.Starts items) {F : ObjectReference} {d : KubeObject V}
  (he : (F, d) ∈ c.family items)

include hs he

theorem unmarks_childView : unmarks (c.childView phase F d) = false := by
  cases hitem : c.childItem phase F d with
  | none => exact unmarks_eq_false (Or.inl hitem)
  | some x =>
    have hmarked : x.marked = false := by
      rw [← hs.children_unmarked _ he, ← marked_owned F d]
      unfold KubeObject.marked KubeObject.hasAnnotation
      rw [(childItem_spec hitem).2.2]
    simp only [unmarks, childView, hitem, hmarked, Bool.and_false]

variable [DecidableEq V]

omit hs he in
theorem specChanged_childView : specChanged (c.childView phase F d) = false := by
  cases hitem : c.childItem phase F d with
  | none => exact specChanged_eq_false (Or.inl hitem)
  | some x =>
    have hspec : x.spec = (owned F d).spec := (childItem_spec hitem).2.1
    simp only [specChanged, childView, hitem, hspec, specsDiffer_self, Bool.and_false]

theorem changed_childView : changed (c.childView phase F d) = decide (phase = .bare) := by
  rw [changed, specChanged_childView, unmarks_childView hs he]
  cases phase <;> rfl

/-- **The diff of a child** is a step of the phases. -/
theorem outcome_childView :
    outcome F d.ref (c.childView phase F d) (phase.childCondition F d) =
      (phase.next .parent).childCondition F d := by
  cases phase with
  | bare => rfl
  | created | processed | finished =>
    exact outcome_of_held rfl rfl
      (by rw [specChanged_childView, unmarks_childView hs he]; rfl) rfl

theorem outcomeItem_childView :
    outcomeItem (c.childView phase F d) = if phase = .bare then some (owned F d) else none := by
  unfold outcomeItem
  rw [specChanged_childView, unmarks_childView hs he]
  cases phase <;> rfl

end View

/-! ## A Run of the parent function -/

/-- A package with one item of an id has the new one instead. -/
theorem upsert_of_id {x y : KubeObject V} (h : y.id = x.id) :
    Keyed.upsert KubeObject.id x [y] = [x] := if_pos h

/-- The condition of a for-instance has no reason. -/
theorem doneCondition_of_for {ec : Option Condition} {F : ObjectReference}
    (h : ∀ cond, ec = some cond → cond.type = getConditionType F ∧ cond.reason = "") :
    doneCondition ec (forCondition F "update done" .conditionTrue) =
      forCondition F "update done" .conditionTrue := by
  cases ec with
  | none => rfl
  | some cond =>
    obtain ⟨htype, hreason⟩ := h cond rfl
    simp only [doneCondition, forCondition, htype, hreason]

theorem ownedAs_of_for {ec : Option Condition} {F : ObjectReference}
    (h : ∀ cond, ec = some cond → cond.type = getConditionType F ∧ cond.reason = "")
    (o : KubeObject V) : ownedAs ec o = o := by
  cases ec with
  | none => rfl
  | some cond => exact if_neg (not_not.mpr (h cond rfl).2)

theorem parentFn_givesBack (c : Choreography V) :
    c.parentFn.GivesBack fun F o objs =>
      { o with status := some (c.parentStatus F o.spec (objs.map KubeObject.status)) } where
  root := rfl
  update := rfl
  id _ _ _ := rfl

section Parent

variable {r : Sdk V} (hs : c.Starts items) (hr : c.Shows phase items r) (hinv : r.inv = c.parentInv)

include hs hr hinv

omit hs hr in
theorem fresh_parent : r.inv.Fresh c.parentFn := by
  rw [hinv]
  exact newInventory_fresh c.newInventory_parentFn

omit hs hr in
theorem role_for_parent {ref : ObjectReference} :
    r.inv.role ref = some .forGVKKind ↔ ref.gvk = c.parent.gvk := by
  rw [hinv, role_parentInv]
  split_ifs with hparent hchild
  · exact iff_of_true rfl hparent
  · exact iff_of_false (by decide) hparent
  · exact iff_of_false (by decide) hparent

omit hs hr in
theorem role_own_parent {ref : ObjectReference} :
    r.inv.role ref = some .ownGVKKind ↔ ref.gvk = c.child.gvk := by
  rw [hinv, role_parentInv]
  split_ifs with hparent hchild
  · exact iff_of_false (by decide) fun hchild => c.apart (hparent.symm.trans hchild)
  · exact iff_of_true rfl hchild
  · exact iff_of_false (by decide) hchild

omit hs hr in
theorem not_watch_parent (ref : ObjectReference) : r.inv.role ref ≠ some .watchGVKKind := by
  rw [hinv, role_parentInv]
  split_ifs <;> decide

omit hinv in
theorem forObj_parent {o : KubeObject V} (ho : o ∈ c.parents items) :
    r.forObj o.ref = some (c.parentItem phase o) := by
  rw [Sdk.forObj, hr.filter_parent hs ho]
  rfl

omit hinv in
theorem parent_of_forObj {F : ObjectReference} (hF : F.gvk = c.parent.gvk)
    (h : (r.forObj F).isSome) : ∃ o ∈ c.parents items, o.ref = F := by
  obtain ⟨x, hx⟩ := Option.isSome_iff_exists.mp h
  obtain ⟨hmem, rfl⟩ := Sdk.mem_of_forObj hx
  exact hr.parent_of_resource hs (mem_resources_of_item hmem) hF

omit hs hr hinv in
theorem wanted_eq (F : ObjectReference) :
    r.wanted c.parentFn F = .ok ((r.forObj F).elim [] fun o => c.children F o.spec) := by
  have hpopulating : c.parentFn.populating = c.parentFn := rfl
  unfold Sdk.wanted
  rw [hpopulating]
  cases r.forObj F <;> rfl

omit hinv in
theorem wanted_parent {o : KubeObject V} (ho : o ∈ c.parents items) :
    r.wanted c.parentFn o.ref = .ok (c.children o.ref o.spec) := by
  rw [wanted_eq, forObj_parent hs hr ho]
  exact congrArg _ (by rw [Option.elim_some, spec_parentItem])

/-- The children of a parent are those it wants. -/
theorem wants_iff {F ref : ObjectReference} :
    r.Wants c.parentFn F ref ↔ ∃ d, (F, d) ∈ c.family items ∧ d.ref = ref := by
  constructor
  · rintro ⟨-, hF, d, hd, rfl⟩
    have hgvk := (role_for_parent hinv).mp hF
    rw [Sdk.wantedObjs, wanted_eq] at hd
    cases hobj : r.forObj F with
    | none =>
      rw [hobj] at hd
      cases hd
    | some x =>
      obtain ⟨o, ho, rfl⟩ := parent_of_forObj hs hr hgvk (by rw [hobj]; rfl)
      rw [forObj_parent hs hr ho] at hd
      simp only [Option.elim_some, spec_parentItem] at hd
      exact ⟨d, mem_family.mpr ⟨o, ho, rfl, hd⟩, rfl⟩
  · rintro ⟨d, he, rfl⟩
    obtain ⟨o, ho, rfl, hd⟩ := mem_family.mp he
    refine ⟨(role_own_parent hinv).mpr (hs.children_gvk _ he),
      (role_for_parent hinv).mpr (mem_parents.mp ho).2, d, ?_, rfl⟩
    rw [Sdk.wantedObjs, wanted_parent hs hr ho]
    exact hd

theorem owns_family {F ref : ObjectReference} (h : r.Owns F ref) :
    ∃ d, (F, d) ∈ c.family items ∧ d.ref = ref := by
  obtain ⟨-, F', d, he, heq⟩ := hr.child_of_resource hs h.2.2 ((role_own_parent hinv).mp h.1)
  cases heq
  exact ⟨d, he, rfl⟩

theorem child_iff {F ref : ObjectReference} :
    r.Owns F ref ∨ r.Wants c.parentFn F ref ↔ ∃ d, (F, d) ∈ c.family items ∧ d.ref = ref :=
  ⟨fun h => h.elim (owns_family hs hr hinv) (wants_iff hs hr hinv).mp,
    fun h => Or.inr ((wants_iff hs hr hinv).mpr h)⟩

theorem documented_parent : r.Documented c.parentFn where
  types := hr.nodup hs
  forItem x hx hrole := by
    obtain ⟨o, ho, href⟩ := hr.parent_of_resource hs (mem_resources_of_item hx)
      ((role_for_parent hinv).mp hrole)
    have href : x.ref = o.ref := href.symm
    rw [href]
    exact hs.documented o ho
  forCondition cond hcond _ := hr.written hs hcond
  ownItem x hx hrole _ := by
    have hgvk := (role_own_parent hinv).mp hrole
    rcases hr.mem_items hx with ⟨o, ho, rfl⟩ | ⟨⟨F, d⟩, he, hitem⟩ | ⟨hmem, -⟩
    · rw [ref_parentItem, (mem_parents.mp ho).2] at hgvk
      exact absurd hgvk c.apart
    · rw [(childItem_spec hitem).1]
      exact ⟨hs.children_documented _ he, F, (hs.parent_of_family he).1,
        (hs.owner_childItem he hitem).1⟩
    · exact absurd hgvk (hs.childless x hmem)
  ownCondition cond hcond hrole _ := by
    refine ⟨hr.written hs hcond, ?_⟩
    rcases hr.mem_conditions hcond with ⟨o, ho, h⟩ | ⟨⟨F, d⟩, he, h⟩
    · rw [(type_parentCondition h).1, (hs.documented o ho).decode, role_own_parent hinv,
        (mem_parents.mp ho).2] at hrole
      exact absurd hrole c.apart
    · exact ⟨F, (hs.parent_of_family he).1, (type_childCondition h).2⟩
  wanted F hF obj hobj hrole := by
    obtain ⟨d, he, href⟩ := (wants_iff hs hr hinv).mp ⟨hrole, hF, obj, hobj, rfl⟩
    rw [← href]
    exact hs.children_documented _ he

theorem disjoint_parent : r.Disjoint c.parentFn := by
  intro F F' ref h h'
  obtain ⟨d, he, hd⟩ := (child_iff hs hr hinv).mp h
  obtain ⟨d', he', hd'⟩ := (child_iff hs hr hinv).mp h'
  exact congrArg Prod.fst (hs.eq_of_ref he he' (hd.trans hd'.symm))

theorem forInstance_parent {F : ObjectReference} :
    r.ForInstance c.parentFn F ↔ ∃ o ∈ c.parents items, o.ref = F := by
  have hfresh := fresh_parent hinv
  constructor
  · intro h
    obtain ⟨hF, e, he, hcase⟩ := (Sdk.reached_for hfresh).mp h
    rcases hcase with rfl | ⟨hrole, rfl⟩ | ⟨hrole, -⟩
    · exact hr.parent_of_resource hs he ((role_for_parent hinv).mp hF)
    · obtain ⟨d, he, -⟩ := owns_family hs hr hinv ⟨hrole, hF, he⟩
      obtain ⟨o, ho, href, -⟩ := mem_family.mp he
      exact ⟨o, ho, href⟩
    · exact absurd hrole (not_watch_parent hinv _)
  · rintro ⟨o, ho, rfl⟩
    exact Sdk.forInstance_of_forObj hfresh (forObj_parent hs hr ho)
      ((role_for_parent hinv).mpr (mem_parents.mp ho).2)

/-- What the diff is given for a child. -/
theorem childCtx_family {F : ObjectReference} {d : KubeObject V} (he : (F, d) ∈ c.family items) :
    r.childCtx c.parentFn F d.ref = c.childView phase F d := by
  have hgvk := hs.children_gvk _ he
  have hFdoc := hs.parent_of_family he
  have hitem : r.ownedItem F d.ref = c.childItem phase F d := by
    rw [Sdk.ownedItem_eq, hr.filter_child hs he]
    cases hitem : c.childItem phase F d with
    | none => rfl
    | some x =>
      have howner := (hs.owner_childItem he hitem).2
      rw [Option.toList_some, List.filter_cons_of_pos (by rw [howner]; exact decide_eq_true rfl)]
      rfl
  have hcond : r.ownedCondition F d.ref = phase.childCondition F d := by
    rw [Sdk.ownedCondition_eq (documented_parent hs hr hinv) ((role_for_parent hinv).mpr hFdoc.2)
      ((role_own_parent hinv).mpr hgvk) (hs.children_documented _ he), hr.getCondition_child hs he]
    cases hcond : phase.childCondition F d with
    | none => rfl
    | some cond =>
      rw [Option.filter_some, if_pos]
      rw [(type_childCondition hcond).2, hFdoc.1.decode]
      exact decide_eq_true rfl
  have hnew : r.wantedObj c.parentFn F d.ref = some (owned F d) := by
    obtain ⟨o, ho, rfl, hd⟩ := mem_family.mp he
    exact Sdk.wantedObj_of_mem (wanted_parent hs hr ho) (hs.nodup_children ho) hd
  have hmatch : r.inv.isGVKMatch d.ref =
      some { gvkKind := .ownGVKKind, ownKind := some .childRemote } := by
    rw [hinv]
    exact isGVKMatch_parentInv hgvk
  simp only [Sdk.childCtx, hitem, hcond, hnew, hmatch, Option.isSome_some, Bool.or_true, if_true,
    childView]

omit hinv in
theorem isSome_forCtx {o : KubeObject V} (ho : o ∈ c.parents items) :
    (r.forCtx c.parentFn o.ref).existingResource.isSome := by
  show (r.forObj o.ref).isSome
  rw [forObj_parent hs hr ho]
  rfl

/-- A parent waits exactly where the Run does not finish it. -/
theorem waits_parent {o : KubeObject V} (ho : o ∈ c.parents items) :
    r.Waits c.parentFn o.ref ↔ c.parentDone (phase.next .parent) o = false := by
  have hentry : ∀ d ∈ c.children o.ref o.spec,
      holds (childEntry o.ref d.ref (r.forCtx c.parentFn o.ref) (r.childCtx c.parentFn o.ref d.ref)) =
        decide (phase.next .parent ≠ .finished) := by
    intro d hd
    rw [childCtx_family hs hr hinv (mem_family.mpr ⟨o, ho, rfl, hd⟩), childEntry,
      if_pos (isSome_forCtx hs hr ho)]
    cases phase <;> rfl
  have hdone : c.parentDone (phase.next .parent) o = false ↔
      phase.next .parent ≠ .finished ∧ c.children o.ref o.spec ≠ [] := by
    have hbare : phase.next .parent ≠ .bare := by cases phase <;> decide
    rw [parentDone, decide_eq_false_iff_not, not_or, not_and]
    exact and_congr_right fun _ => ⟨fun h => h hbare, fun h _ => h⟩
  rw [hdone]
  constructor
  · rintro ⟨ref, hchild, hholds⟩
    obtain ⟨d, he, rfl⟩ := (child_iff hs hr hinv).mp hchild
    obtain ⟨o', ho', href, hd⟩ := mem_family.mp he
    obtain rfl := hs.parent_eq ho' ho href
    rw [hentry d hd] at hholds
    exact ⟨of_decide_eq_true hholds, List.ne_nil_of_mem hd⟩
  · rintro ⟨hnext, hne⟩
    obtain ⟨d, hd⟩ := List.exists_mem_of_ne_nil _ hne
    refine ⟨d.ref, (child_iff hs hr hinv).mpr ⟨d, mem_family.mpr ⟨o, ho, rfl, hd⟩, rfl⟩, ?_⟩
    rw [hentry d hd]
    exact decide_eq_true hnext

theorem noPanic_parent : r.NoPanic c.parentFn := by
  intro F ref hchild hunmarks
  obtain ⟨d, he, rfl⟩ := (child_iff hs hr hinv).mp hchild
  rw [childCtx_family hs hr hinv he, unmarks_childView hs he] at hunmarks
  cases hunmarks

/-- A parent's condition, where it has one. -/
theorem conditionOf_parent {o : KubeObject V} (ho : o ∈ c.parents items) :
    (r.forCtx c.parentFn o.ref).existingCondition = c.parentCondition phase o := by
  simp only [Sdk.forCtx, wanted_parent hs hr ho]
  rw [Sdk.conditionOf_eq (documented_parent hs hr hinv)
    ((role_for_parent hinv).mpr (mem_parents.mp ho).2) (hs.documented o ho)]
  exact hr.getCondition_parent hs ho

variable [DecidableEq V]

/-- Only the first Run resets the condition of a parent. -/
theorem resets_parent {o : KubeObject V} (ho : o ∈ c.parents items) :
    r.Resets c.parentFn o.ref ↔ phase = .bare ∧ c.children o.ref o.spec ≠ [] := by
  constructor
  · rintro ⟨-, -, ref, hchild, hchanged⟩
    obtain ⟨d, he, rfl⟩ := (child_iff hs hr hinv).mp hchild
    obtain ⟨o', ho', href, hd⟩ := mem_family.mp he
    obtain rfl := hs.parent_eq ho' ho href
    refine ⟨?_, List.ne_nil_of_mem hd⟩
    rw [childCtx_family hs hr hinv he, changed_childView hs he] at hchanged
    exact of_decide_eq_true hchanged
  · rintro ⟨rfl, hne⟩
    obtain ⟨d, hd⟩ := List.exists_mem_of_ne_nil _ hne
    have he := mem_family.mpr ⟨o, ho, rfl, hd⟩
    refine ⟨isSome_forCtx hs hr ho, ?_, d.ref, (child_iff hs hr hinv).mpr ⟨d, he, rfl⟩, ?_⟩
    · rw [conditionOf_parent hs hr hinv ho]
      rfl
    · rw [childCtx_family hs hr hinv he]
      rfl

/-- What stage 1 leaves at a parent: a condition of its own, if any. -/
theorem settledEntry_parent {o : KubeObject V} (ho : o ∈ c.parents items) {cond : Condition}
    (h : r.settledEntry c.parentFn o.ref = some cond) :
    cond.type = getConditionType o.ref ∧ cond.reason = "" := by
  unfold Sdk.settledEntry at h
  split_ifs at h
  · cases h
    exact ⟨rfl, rfl⟩
  · rw [conditionOf_parent hs hr hinv ho] at h
    exact type_parentCondition h

theorem settled_parent {o : KubeObject V} (ho : o ∈ c.parents items)
    (hwaits : r.Waits c.parentFn o.ref) :
    r.settled c.parentFn o.ref = c.parentCondition (phase.next .parent) o := by
  have hdone := (waits_parent hs hr hinv ho).mp hwaits
  have hnext : c.parentCondition (phase.next .parent) o =
      some (forCondition o.ref "update for condition" .conditionFalse) := by
    rw [parentCondition, if_neg (by cases phase <;> decide), hdone]
    rfl
  rw [hnext]
  unfold Sdk.settled
  split_ifs with hreset
  · rfl
  · have hedits : r.populateEdits c.parentFn o.ref = [] := by
      unfold Sdk.populateEdits
      rw [wanted_parent hs hr ho]
      refine List.flatMap_eq_nil_iff.mpr fun d hd => ?_
      unfold populateChildScript
      rw [hinv, isGVKMatch_parentInv (hs.children_gvk _ (mem_family.mpr ⟨o, ho, rfl, hd⟩))]
      rfl
    rw [hedits, List.foldl_nil, hr.getCondition_parent hs ho]
    cases phase with
    | bare =>
      obtain ⟨ref, hchild, -⟩ := hwaits
      obtain ⟨d, he, -⟩ := (child_iff hs hr hinv).mp hchild
      obtain ⟨o', ho', href, hd⟩ := mem_family.mp he
      obtain rfl := hs.parent_eq ho' ho href
      exact absurd ((resets_parent hs hr hinv ho).mpr ⟨rfl, List.ne_nil_of_mem hd⟩) hreset
    | created => exact hnext
    | processed => cases hdone
    | finished => cases hdone

/-- What the function is given for a parent that does not wait: its children, processed. -/
theorem given_parent {o : KubeObject V} (ho : o ∈ c.parents items)
    (hwaits : ¬ r.Waits c.parentFn o.ref) :
    r.Given c.parentFn o.ref
      ((c.children o.ref o.spec).map fun d => (d.ref, c.processedChild o.ref d)) where
  nodup := by
    rw [List.map_map]
    exact hs.nodup_children ho
  mem ref x := by
    have hitem : ∀ d ∈ c.children o.ref o.spec,
        (CondKptSdk.childItem (r.forCtx c.parentFn o.ref) (r.childCtx c.parentFn o.ref d.ref)).or
          (r.ownedItem o.ref d.ref) = some (c.processedChild o.ref d) := by
      intro d hd
      have he := mem_family.mpr ⟨o, ho, rfl, hd⟩
      have hexisting : r.ownedItem o.ref d.ref = c.childItem phase o.ref d :=
        congrArg ResourceCtx.existingResource (childCtx_family hs hr hinv he)
      have hdone : c.parentDone (phase.next .parent) o = true := by
        rw [← Bool.not_eq_false]
        exact fun h => hwaits ((waits_parent hs hr hinv ho).mpr h)
      have hbare : phase ≠ .bare ∧ c.childItem phase o.ref d = some (c.processedChild o.ref d) := by
        have hne := List.ne_nil_of_mem hd
        cases phase with
        | bare => simp [parentDone, Phase.next, hne] at hdone
        | created => simp [parentDone, Phase.next, hne] at hdone
        | processed => exact ⟨by decide, rfl⟩
        | finished => exact ⟨by decide, rfl⟩
      rw [CondKptSdk.childItem, if_pos (isSome_forCtx hs hr ho), childCtx_family hs hr hinv he,
        outcomeItem_childView hs he, if_neg hbare.1, Option.none_or, hexisting]
      exact hbare.2
    simp only [List.mem_map, Prod.mk.injEq]
    constructor
    · rintro ⟨d, hd, rfl, rfl⟩
      exact ⟨(child_iff hs hr hinv).mpr ⟨d, mem_family.mpr ⟨o, ho, rfl, hd⟩, rfl⟩, hitem d hd⟩
    · rintro ⟨hchild, hx⟩
      obtain ⟨d, he, rfl⟩ := (child_iff hs hr hinv).mp hchild
      obtain ⟨o', ho', href, hd⟩ := mem_family.mp he
      obtain rfl := hs.parent_eq ho' ho href
      exact ⟨d, hd, rfl, Option.some.inj ((hitem d hd).symm.trans hx)⟩

variable {ord : Order} {r' : Sdk V} (h : r.run c.parentFn ord = .ok r')

include h

/-- **A parent** after a Run of its function. -/
theorem run_parent {o : KubeObject V} (ho : o ∈ c.parents items) :
    r'.kptfile.getCondition (getConditionType o.ref) =
        c.parentCondition (phase.next .parent) o ∧
      r'.items.filter (fun x => x.ref = o.ref) = [c.parentItem (phase.next .parent) o] := by
  have hdoc := documented_parent hs hr hinv
  have hfresh := fresh_parent hinv
  have hfor := (forInstance_parent hs hr hinv).mpr ⟨o, ho, rfl⟩
  by_cases hwaits : r.Waits c.parentFn o.ref
  · obtain ⟨hcond, hitems⟩ := Sdk.run_waits c.parentFn_givesBack hfresh hdoc (not_watch_parent hinv)
      h hfor (hs.documented o ho) hwaits
    refine ⟨hcond.trans (settled_parent hs hr hinv ho hwaits), ?_⟩
    rw [hitems, hr.filter_parent hs ho]
    have hnext := (waits_parent hs hr hinv ho).mp hwaits
    have hnow : c.parentDone phase o = false := by
      rw [Bool.eq_false_iff]
      intro hdone
      rw [parentDone_next .parent hdone] at hnext
      cases hnext
    rw [parentItem, parentItem, hnow, hnext]
  · have hdone : c.parentDone (phase.next .parent) o = true := by
      rw [← Bool.not_eq_false]
      exact fun h => hwaits ((waits_parent hs hr hinv ho).mpr h)
    obtain ⟨hcond, args, hargs, hitems⟩ := Sdk.run_finishes c.parentFn_givesBack hfresh hdoc
      (not_watch_parent hinv) h (forObj_parent hs hr ho) hfor (hs.documented o ho)
      (wanted_parent hs hr ho) hwaits (given_parent hs hr hinv ho hwaits)
    have hentry : ∀ cond, r.settledEntry c.parentFn o.ref = some cond →
        cond.type = getConditionType o.ref ∧ cond.reason = "" :=
      fun _ => settledEntry_parent hs hr hinv ho
    constructor
    · rw [hcond, parentCondition, if_neg (by cases phase <;> decide), if_pos hdone,
        doneCondition_of_for hentry]
    · rw [hitems, hr.filter_parent hs ho, ownedAs_of_for hentry]
      have hstatus : (args.map KubeObject.status).Perm ((c.children o.ref o.spec).map fun d =>
          some (c.childStatus d.ref d.spec)) := by
        refine (hargs.map KubeObject.status).trans (List.Perm.of_eq ?_)
        rw [List.map_map, List.map_map]
        rfl
      refine (upsert_of_id ?_).trans (congrArg (fun x => [x]) ?_)
      · rfl
      · rw [spec_parentItem, c.parentStatus_perm o.ref o.spec hstatus, parentItem, parentItem,
          if_pos hdone]
        split_ifs <;> rfl

theorem shows_parent : c.Shows (phase.next .parent) items r' := by
  have hdoc := documented_parent hs hr hinv
  have hfresh := fresh_parent hinv
  have hwatch := not_watch_parent hinv
  refine Shows.of_views hs (Sdk.nodup_run hfresh hdoc h) (fun o ho => run_parent hs hr hinv h ho)
    ?_ ?_ ?_
  · intro F d he
    obtain ⟨o, ho, rfl, -⟩ := mem_family.mp he
    have hchild := (child_iff hs hr hinv).mpr ⟨d, he, rfl⟩
    obtain ⟨hcond, hitems⟩ := Sdk.run_own c.parentFn_givesBack hfresh hdoc hwatch h hchild
      ((disjoint_parent hs hr hinv).only hchild)
    constructor
    · rw [hcond, childOutcome, if_pos (isSome_forCtx hs hr ho), childCtx_family hs hr hinv he,
        hr.getCondition_child hs he, outcome_childView hs he]
    · rw [hitems, CondKptSdk.childItem, if_pos (isSome_forCtx hs hr ho),
        childCtx_family hs hr hinv he, outcomeItem_childView hs he, hr.filter_child hs he]
      cases phase <;> rfl
  · intro t ht
    rw [Sdk.getCondition_run_rest c.parentFn_givesBack hfresh hdoc hwatch h, hr.getCondition hs]
    · exact lookup_conditionsAt_other ht
    · rintro G hG rfl
      obtain ⟨o, ho, rfl⟩ := (forInstance_parent hs hr hinv).mp hG
      exact ht (List.mem_append_left _ (List.mem_map_of_mem ho))
    · rintro F ref hchild rfl
      obtain ⟨d, he, rfl⟩ := (child_iff hs hr hinv).mp hchild
      exact ht (List.mem_append_right _ (List.mem_map.mpr ⟨_, he, rfl⟩))
  · intro ref hp he
    rw [Sdk.items_run_rest c.parentFn_givesBack hfresh hdoc hwatch h]
    · have hperm := hr.items.filter fun x => x.ref = ref
      rwa [filter_itemsAt_other hp he] at hperm
    · intro hfor
      obtain ⟨o, ho, href⟩ := (forInstance_parent hs hr hinv).mp hfor
      exact hp o ho href
    · intro F hchild
      obtain ⟨d, hd, href⟩ := (child_iff hs hr hinv).mp hchild
      exact he _ hd href

end Parent

/-! ## A Run of the child function -/

theorem childFn_givesBack (c : Choreography V) :
    c.childFn.GivesBack fun F o _ => { o with status := some (c.childStatus F o.spec) } where
  root := rfl
  update := rfl
  id _ _ _ := rfl

section Child

variable {r : Sdk V} (hs : c.Starts items) (hr : c.Shows phase items r) (hinv : r.inv = c.childInv)

include hs hr hinv

omit hs hr in
theorem fresh_child : r.inv.Fresh c.childFn := by
  rw [hinv]
  exact newInventory_fresh c.newInventory_childFn

omit hs hr in
theorem role_for_child {ref : ObjectReference} :
    r.inv.role ref = some .forGVKKind ↔ ref.gvk = c.child.gvk := by
  rw [hinv, role_childInv]
  split_ifs with hchild
  · exact iff_of_true rfl hchild
  · exact iff_of_false (by decide) hchild

omit hs hr in
/-- The child function has no other roles. -/
theorem role_child {ref : ObjectReference} {kind : GvkKind} (h : r.inv.role ref = some kind) :
    kind = .forGVKKind := by
  rw [hinv, role_childInv] at h
  split_ifs at h
  exact (Option.some.inj h).symm

omit hs hr in
theorem not_child_child (F ref : ObjectReference) : ¬ (r.Owns F ref ∨ r.Wants c.childFn F ref) :=
  fun h => absurd (role_child hinv (h.elim And.left And.left)) (by decide)

omit hs hr in
theorem not_watch_child (ref : ObjectReference) : r.inv.role ref ≠ some .watchGVKKind :=
  fun h => absurd (role_child hinv h) (by decide)

omit hs hr hinv in
theorem wanted_child (F : ObjectReference) : r.wanted c.childFn F = .ok [] := rfl

theorem documented_child : r.Documented c.childFn where
  types := hr.nodup hs
  forItem x hx hrole := by
    obtain ⟨-, F, d, he, heq⟩ := hr.child_of_resource hs (mem_resources_of_item hx)
      ((role_for_child hinv).mp hrole)
    have href : x.ref = d.ref := congrArg Prod.fst heq
    rw [href]
    exact hs.children_documented _ he
  forCondition cond hcond _ := hr.written hs hcond
  ownItem _ _ hrole _ := absurd (role_child hinv hrole) (by decide)
  ownCondition _ _ hrole _ := absurd (role_child hinv hrole) (by decide)
  wanted _ _ _ _ hrole := absurd (role_child hinv hrole) (by decide)

omit hinv in
/-- The object of a child that is there. -/
theorem forObj_child {e : ObjectReference × KubeObject V} (he : e ∈ c.family items)
    (hbare : phase ≠ .bare) :
    ∃ x, c.childItem phase e.1 e.2 = some x ∧ r.forObj e.2.ref = some x := by
  obtain ⟨x, hx⟩ : ∃ x, c.childItem phase e.1 e.2 = some x := by
    cases phase with
    | bare => exact absurd rfl hbare
    | created | processed | finished => exact ⟨_, rfl⟩
  refine ⟨x, hx, ?_⟩
  rw [Sdk.forObj, hr.filter_child hs he, hx]
  rfl

theorem forInstance_child {ref : ObjectReference} :
    r.ForInstance c.childFn ref ↔ phase ≠ .bare ∧ ∃ e ∈ c.family items, e.2.ref = ref := by
  have hfresh := fresh_child hinv
  constructor
  · intro h
    obtain ⟨hF, e, he, hcase⟩ := (Sdk.reached_for hfresh).mp h
    rcases hcase with rfl | ⟨hrole, -⟩ | ⟨hrole, -⟩
    · obtain ⟨hbare, F, d, hd, heq⟩ := hr.child_of_resource hs he ((role_for_child hinv).mp hF)
      exact ⟨hbare, _, hd, (congrArg Prod.fst heq).symm⟩
    · exact absurd (role_child hinv hrole) (by decide)
    · exact absurd (role_child hinv hrole) (by decide)
  · rintro ⟨hbare, e, he, rfl⟩
    obtain ⟨x, hx⟩ := forObj_child hs hr he hbare
    exact Sdk.forInstance_of_forObj hfresh hx.2 ((role_for_child hinv).mpr (hs.children_gvk e he))

omit hs hr hinv in
/-- The owner of a child is set once more, to the same. -/
theorem ownedAs_childItem {F : ObjectReference} (hF : F.Documented) {d x : KubeObject V}
    (hx : c.childItem phase F d = some x) {cond : Condition}
    (hreason : cond.reason = getConditionType F) :
    ownedAs (some cond) { x with status := some (c.childStatus d.ref x.spec) } =
      c.processedChild F d := by
  have hne : getConditionType F ≠ "" := by
    intro hempty
    have hdecode := hF.decode
    rw [hempty] at hdecode
    exact ne_empty_of_named hF.named (hdecode.symm.trans (by decide))
  have hset : ownedAs (some cond) { x with status := some (c.childStatus d.ref x.spec) } =
      { x with
        annotations := Keyed.upsert Prod.fst (specializerOwner, getConditionType F) x.annotations
        status := some (c.childStatus d.ref x.spec) } := by
    rw [← hreason] at hne ⊢
    exact if_pos hne
  rw [hset]
  cases phase with
  | bare => cases hx
  | created | processed | finished =>
    cases hx
    simp only [processedChild, owned, KubeObject.setAnnotation, Keyed.upsert_upsert_self]

variable [DecidableEq V] {ord : Order} {r' : Sdk V} (h : r.run c.childFn ord = .ok r')

include h

/-- **A child** after a Run of its function. -/
theorem run_child {F : ObjectReference} {d : KubeObject V} (he : (F, d) ∈ c.family items)
    (hbare : phase ≠ .bare) :
    r'.kptfile.getCondition (getConditionType d.ref) =
        some (ownCondition F d.ref "update done" .conditionTrue) ∧
      r'.items.filter (fun x => x.ref = d.ref) = [c.processedChild F d] := by
  have hdoc := documented_child hs hr hinv
  have hfresh := fresh_child hinv
  have hfor := (forInstance_child hs hr hinv).mpr ⟨hbare, _, he, rfl⟩
  obtain ⟨x, hitem, hobj⟩ := forObj_child hs hr he hbare
  have hgiven : r.Given c.childFn d.ref [] :=
    { nodup := List.nodup_nil
      mem := fun ref o => iff_of_false List.not_mem_nil fun hc => not_child_child hinv _ _ hc.1 }
  obtain ⟨hcond, args, -, hitems⟩ := Sdk.run_finishes c.childFn_givesBack hfresh hdoc
    (not_watch_child hinv) h hobj hfor (hs.children_documented _ he) (wanted_child _)
    (fun hwaits => hwaits.elim fun ref hw => not_child_child hinv _ _ hw.1) hgiven
  have hentry : ∃ cond, r.settledEntry c.childFn d.ref = some cond ∧
      phase.childCondition F d = some cond := by
    have hreset : ¬ r.Resets c.childFn d.ref := fun hreset =>
      hreset.2.2.elim fun ref hw => not_child_child hinv _ _ hw.1
    obtain ⟨cond, hcond⟩ : ∃ cond, phase.childCondition F d = some cond := by
      cases phase with
      | bare => exact absurd rfl hbare
      | created | processed | finished => exact ⟨_, rfl⟩
    refine ⟨cond, ?_, hcond⟩
    rw [Sdk.settledEntry, if_neg hreset]
    show r.conditionOf d.ref = some cond
    rw [Sdk.conditionOf_eq hdoc ((role_for_child hinv).mpr (hs.children_gvk _ he))
      (hs.children_documented _ he), hr.getCondition_child hs he]
    exact hcond
  obtain ⟨cond, hsettled, hchild⟩ := hentry
  obtain ⟨htype, hreason⟩ := type_childCondition hchild
  constructor
  · rw [hcond, hsettled]
    simp only [doneCondition, ownCondition, htype, hreason]
  · rw [hitems, hsettled, hr.filter_child hs he, hitem, Option.toList_some, upsert_of_id]
    · rw [ownedAs_childItem (hs.parent_of_family he).1 hitem hreason]
    · rw [id_ownedAs]
      rfl

theorem shows_child : c.Shows (phase.next .child) items r' := by
  have hdoc := documented_child hs hr hinv
  have hfresh := fresh_child hinv
  have hwatch := not_watch_child hinv
  have hnot : ∀ F ref, r.Owns F ref ∨ r.Wants c.childFn F ref → False := not_child_child hinv
  have hrest : ∀ t, (∀ e ∈ c.family items, phase ≠ .bare → getConditionType e.2.ref ≠ t) →
      r'.kptfile.getCondition t = r.kptfile.getCondition t := by
    intro t ht
    refine Sdk.getCondition_run_rest c.childFn_givesBack hfresh hdoc hwatch h ?_ ?_
    · intro G hG
      obtain ⟨hbare, e, he, rfl⟩ := (forInstance_child hs hr hinv).mp hG
      exact ht e he hbare
    · exact fun F ref hchild => absurd hchild (hnot F ref)
  have hitems : ∀ ref, (∀ e ∈ c.family items, phase ≠ .bare → e.2.ref ≠ ref) →
      r'.items.filter (fun x => x.ref = ref) = r.items.filter fun x => x.ref = ref := by
    intro ref href
    refine Sdk.items_run_rest c.childFn_givesBack hfresh hdoc hwatch h ?_ fun F => hnot F ref
    intro hfor
    obtain ⟨hbare, e, he, heq⟩ := (forInstance_child hs hr hinv).mp hfor
    exact href e he hbare heq
  refine Shows.of_views hs (Sdk.nodup_run hfresh hdoc h) ?_ ?_ ?_ ?_
  · intro o ho
    rw [hrest _ fun e he _ => (hs.type_ne ho he).symm, hitems _ fun e he _ heq => ?_,
      hr.getCondition_parent hs ho, hr.filter_parent hs ho]
    · rw [(parent_next_child o).1, (parent_next_child o).2]
      exact ⟨rfl, rfl⟩
    · exact hs.type_ne ho he (congrArg getConditionType heq).symm
  · intro F d he
    by_cases hbare : phase = .bare
    · rw [hrest _ fun _ _ hne => absurd hbare hne, hitems _ fun _ _ hne => absurd hbare hne,
        hr.getCondition_child hs he, hr.filter_child hs he, hbare]
      exact ⟨rfl, rfl⟩
    · obtain ⟨hcond, hitem⟩ := run_child hs hr hinv h he hbare
      rw [hcond, hitem]
      cases phase with
      | bare => exact absurd rfl hbare
      | created | processed | finished => exact ⟨rfl, rfl⟩
  · intro t ht
    rw [hrest t, hr.getCondition hs]
    · exact lookup_conditionsAt_other ht
    · rintro e he - rfl
      exact ht (List.mem_append_right _ (List.mem_map.mpr ⟨_, he, rfl⟩))
  · intro ref hp he
    rw [hitems ref fun e he' _ => he e he']
    have hperm := hr.items.filter fun x => x.ref = ref
    rwa [filter_itemsAt_other hp he] at hperm

end Child

/-! ## The Runs of a pipeline -/

theorem newInventory_fn (c : Choreography V) (a : Actor) : newInventory (c.fn a) = .ok (c.inv a) := by
  cases a
  · exact c.newInventory_parentFn
  · exact c.newInventory_childFn

/-- A package is in a phase. -/
def InPhase (c : Choreography V) (start : List (KubeObject V)) (phase : Phase)
    (rl : ResourceList V) : Prop :=
  ∃ kptfile, rl.kptfile = some kptfile ∧ rl.items.Perm (c.itemsAt phase start) ∧
    kptfile.conditions.Perm (c.conditionsAt phase start)

/-- One of the functions is started on the package: `New`, and `Run`. Where `New` fails there is no
`Run`. -/
def turn [DecidableEq V] (c : Choreography V) (rl : ResourceList V) (t : Actor × Order) :
    Except Go.Panic (ResourceList V) :=
  match newInventory (c.fn t.1) with
  | .error _ => .ok rl
  | .ok inv => (rl.run (c.fn t.1) inv t.2).map Prod.fst

variable [DecidableEq V]

/-- **A turn** completes, and is a step of the phases. -/
theorem turn_inPhase {start : List (KubeObject V)} (hs : c.Starts start) {rl : ResourceList V}
    (hrl : c.InPhase start phase rl) (t : Actor × Order) :
    ∃ rl', c.turn rl t = .ok rl' ∧ c.InPhase start (phase.next t.1) rl' := by
  obtain ⟨kptfile, hkptfile, hitems, hconditions⟩ := hrl
  have hne : rl.items.isEmpty = false := by
    rw [List.isEmpty_eq_false_iff]
    intro hnil
    rw [hnil] at hitems
    have hmap := List.append_eq_nil_iff.mp hitems.nil_eq.symm
    exact hs.items_ne (List.map_eq_nil_iff.mp hmap.1)
  let r : Sdk V := { items := rl.items, kptfile, inv := c.inv t.1, results := rl.results }
  have hr : c.Shows phase start r := ⟨hitems, hconditions⟩
  have hrun : ∃ r', r.run (c.fn t.1) t.2 = .ok r' ∧ c.Shows (phase.next t.1) start r' := by
    obtain ⟨a, ord⟩ := t
    cases a with
    | parent =>
      have hcompletes : ∃ r', r.run c.parentFn ord = .ok r' :=
        Sdk.run_completes c.parentFn_givesBack (fresh_parent rfl) (documented_parent hs hr rfl)
          (not_watch_parent rfl) (noPanic_parent hs hr rfl)
      obtain ⟨r', hr'⟩ := hcompletes
      exact ⟨r', hr', shows_parent hs hr rfl hr'⟩
    | child =>
      have hcompletes : ∃ r', r.run c.childFn ord = .ok r' :=
        Sdk.run_completes c.childFn_givesBack (fresh_child rfl) (documented_child hs hr rfl)
          (not_watch_child rfl) fun F ref hchild => absurd hchild (not_child_child rfl F ref)
      obtain ⟨r', hr'⟩ := hcompletes
      exact ⟨r', hr', shows_child hs hr rfl hr'⟩
  obtain ⟨r', hr', hshows⟩ := hrun
  refine ⟨{ items := r'.items, kptfile := some r'.kptfile, results := r'.results }, ?_,
    r'.kptfile, rfl, hshows.items, hshows.conditions⟩
  unfold turn ResourceList.run
  rw [c.newInventory_fn, hne, hkptfile]
  simp only [Bool.false_eq_true, if_false]
  rw [hr']
  rfl

omit [DecidableEq V] in
/-- In a phase, the parents are all finished exactly if it is the last one. -/
theorem finished_iff {start : List (KubeObject V)} (hs : c.Starts start)
    (hfamily : c.family start ≠ []) {conditions : List Condition}
    (hconditions : conditions.Perm (c.conditionsAt phase start)) :
    (∀ o ∈ c.parents start, ∃ cond ∈ conditions,
      cond.type = getConditionType o.ref ∧ cond.status = .conditionTrue) ↔ phase = .finished := by
  constructor
  · intro hall
    obtain ⟨⟨F, d⟩, he⟩ := List.exists_mem_of_ne_nil _ hfamily
    obtain ⟨o, ho, rfl, hd⟩ := mem_family.mp he
    obtain ⟨cond, hcond, htype, hstatus⟩ := hall o ho
    have hlookup : c.parentCondition phase o = some cond := by
      rw [← hs.lookup_parent ho, Keyed.lookup_eq_some_iff _ hs.nodup_conditionsAt]
      exact ⟨hconditions.mem_iff.mp hcond, htype⟩
    unfold parentCondition at hlookup
    split_ifs at hlookup with hbare hdone
    · rcases of_decide_eq_true hdone with hfinished | ⟨-, hnil⟩
      · exact hfinished
      · rw [hnil] at hd
        cases hd
    · cases hlookup
      cases hstatus
  · rintro rfl o ho
    refine ⟨forCondition o.ref "update done" .conditionTrue, ?_, rfl, rfl⟩
    exact hconditions.mem_iff.mpr (mem_conditionsAt.mpr (Or.inl ⟨o, ho, rfl⟩))

end Choreography

section Interfaces

open Sdk (interfaceRef ipClaimRef interfaceObj ipClaimObj)

/-- Interfaces with two claims each. A claim's status is its spec, an interface's status the sum of
those of its claims. -/
def interfaceChoreography : Choreography Nat where
  parent := interfaceRef ""
  child := ipClaimRef ""
  parent_set := by decide
  parent_wild := by decide
  child_set := by decide
  child_wild := by decide
  apart := by decide
  children F _ := [ipClaimObj (F.name ++ "-ipv4") (some 2), ipClaimObj (F.name ++ "-ipv6") (some 3)]
  parentStatus _ _ statuses := (statuses.map fun s => s.getD 0).sum
  parentStatus_perm _ _ _ _ h := (h.map fun s => s.getD 0).sum_eq
  childStatus _ spec := spec.getD 0

def interfacePackage : ResourceList Nat where
  items := [interfaceObj "n3", { apiVersion := "apps/v1", kind := "Deployment", name := "upf" },
    interfaceObj "n6"]
  kptfile := some { conditions := [] }

theorem starts_interfacePackage : interfaceChoreography.Starts interfacePackage.items where
  items_ne := by decide
  documented := by decide +kernel
  distinct := by decide +kernel
  childless := by decide +kernel
  children_gvk := by decide +kernel
  children_documented := by decide +kernel
  children_distinct := by decide +kernel
  children_unmarked := by decide +kernel

end Interfaces

end Nephio.CondKptSdk
