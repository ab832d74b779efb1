import Nephio.Laws.CondKptSdk.Again
import Nephio.Laws.CondKptSdk.Orders
import Nephio.Laws.CondKptSdk.Reasons

/-!
# Laws.CondKptSdk.Idempotent: stage 1 on the package it left

The package that stage 1 leaves is filed again, and stage 1 runs on it a second time, in any order of
the maps. It completes, and no item changes. The conditions are those of the first pass exactly where
the package is `AtRest` (`stage1_again`): a for-instance that is reset while one of its wanted
objects is refused shows the refusal only in the second pass, since in the first one the reset comes
after it and hides it, and a wanted object that carries the delete annotation is created in the first
pass and taken for one to unmark in the second.

The two passes share the callbacks, and nothing runs between them.
-/

namespace Nephio.CondKptSdk

variable {V : Type}

/-! ## Refusals -/

theorem failEdit_failEdit (F : ObjectReference) (msg msg' : String) (held : Option Condition) :
    (failEdit F msg).act ((failEdit F msg').act held) = (failEdit F msg).act held := by
  cases held <;> rfl

/-- Of several refusals only the last one is seen. -/
theorem foldl_of_forall_failEdit {F : ObjectReference} {es : List ConditionEdit}
    (hes : ∀ e ∈ es, ∃ msg, e = failEdit F msg) (held : Option Condition) :
    es.foldl (fun held e => e.act held) held = (es.getLast?.map fun e => e.act held).getD held := by
  induction es generalizing held with
  | nil => rfl
  | cons e es ih =>
    have htail : ∀ e ∈ es, ∃ msg, e = failEdit F msg := fun e he =>
      hes e (List.mem_cons_of_mem _ he)
    rw [List.foldl_cons, ih htail]
    cases es with
    | nil => rfl
    | cons e' es =>
      obtain ⟨msg, rfl⟩ := hes e List.mem_cons_self
      rw [List.getLast?_cons_cons]
      obtain ⟨last, hlast⟩ := Option.isSome_iff_exists.mp
        (List.getLast?_isSome.mpr (List.cons_ne_nil e' es))
      obtain ⟨msg', rfl⟩ := htail last (List.mem_of_getLast? hlast)
      rw [hlast, Option.map_some, Option.map_some, Option.getD_some, Option.getD_some,
        failEdit_failEdit]

namespace Sdk

section Refusals

variable {cfg : Config V} {r : Sdk V} {F : ObjectReference}

/-- The refusals of wanted objects. -/
theorem failEdit_of_populateEdits {objs : List (KubeObject V)} (hwanted : r.wanted cfg F = .ok objs)
    {e : ConditionEdit} (he : e ∈ r.populateEdits cfg F) :
    ∃ msg, e = failEdit F msg ∧ msg ≠ "update for condition" := by
  simp only [populateEdits, hwanted] at he
  obtain ⟨obj, -, he⟩ := List.mem_flatMap.mp he
  have hmsg : ∀ (a b : String), a.toList.head? = some 's' → a ++ b ≠ "update for condition" := by
    intro a b ha heq
    have hhead := congrArg (fun s : String => s.toList.head?) heq
    simp only [String.toList_append, List.head?_append, ha, Option.some_or] at hhead
    exact absurd hhead (by decide)
  unfold populateChildScript at he
  split at he
  · exact ⟨_, List.mem_singleton.mp he, hmsg _ _ (by decide)⟩
  · split at he
    · cases he
    · exact ⟨_, List.mem_singleton.mp he, by
        rw [String.append_assoc, String.append_assoc, String.append_assoc]
        exact hmsg _ _ (by decide)⟩

theorem foldl_populateEdits (held : Option Condition) :
    (r.populateEdits cfg F).foldl (fun held e => e.act held) held =
      ((r.populateEdits cfg F).getLast?.map fun e => e.act held).getD held := by
  cases hwanted : r.wanted cfg F with
  | error err =>
    simp only [populateEdits, hwanted]
    rfl
  | ok objs =>
    refine foldl_of_forall_failEdit (F := F) (fun e he => ?_) held
    obtain ⟨msg, hmsg, -⟩ := failEdit_of_populateEdits hwanted he
    exact ⟨msg, hmsg⟩

/-- What `populateChildren` writes to the condition of a for-instance is False, and written again it
is the same. -/
theorem act_populateEdits {e : ConditionEdit} (he : e ∈ r.populateEdits cfg F)
    (held : Option Condition) :
    (∃ c, e.act held = some c ∧ c.status = .conditionFalse) ∧
      e.act (e.act held) = e.act held := by
  cases hwanted : r.wanted cfg F with
  | error err =>
    simp only [populateEdits, hwanted, List.mem_singleton] at he
    rw [he]
    exact ⟨⟨_, rfl, rfl⟩, rfl⟩
  | ok objs =>
    obtain ⟨msg, rfl, -⟩ := failEdit_of_populateEdits hwanted he
    refine ⟨⟨_, rfl, ?_⟩, failEdit_failEdit F msg msg held⟩
    cases held <;> rfl

theorem foldl_populateEdits_twice (held : Option Condition) :
    (r.populateEdits cfg F).foldl (fun held e => e.act held)
        ((r.populateEdits cfg F).foldl (fun held e => e.act held) held) =
      (r.populateEdits cfg F).foldl (fun held e => e.act held) held := by
  rw [foldl_populateEdits, foldl_populateEdits]
  cases hlast : (r.populateEdits cfg F).getLast? with
  | none => rfl
  | some e => exact (act_populateEdits (List.mem_of_getLast? hlast) held).2

theorem isSome_foldl_populateEdits {held : Option Condition} (hheld : held.isSome) :
    ((r.populateEdits cfg F).foldl (fun held e => e.act held) held).isSome := by
  rw [foldl_populateEdits]
  cases hlast : (r.populateEdits cfg F).getLast? with
  | none => exact hheld
  | some e =>
    obtain ⟨c, hc, -⟩ := (act_populateEdits (List.mem_of_getLast? hlast) held).1
    rw [Option.map_some, Option.getD_some, hc]
    rfl

theorem notFalse_foldl_populateEdits {held : Option Condition} (hheld : notFalse held = false) :
    notFalse ((r.populateEdits cfg F).foldl (fun held e => e.act held) held) = false := by
  rw [foldl_populateEdits]
  cases hlast : (r.populateEdits cfg F).getLast? with
  | none => exact hheld
  | some e =>
    obtain ⟨c, hc, hstatus⟩ := (act_populateEdits (List.mem_of_getLast? hlast) held).1
    rw [Option.map_some, Option.getD_some, hc]
    exact decide_eq_false fun hne => hne hstatus

/-- A refusal shows at a condition that was reset. -/
theorem foldl_populateEdits_reset {objs : List (KubeObject V)} (hwanted : r.wanted cfg F = .ok objs) :
    (r.populateEdits cfg F).foldl (fun held e => e.act held)
        (some (forCondition F "update for condition" .conditionFalse)) =
      some (forCondition F "update for condition" .conditionFalse) ↔ r.populateEdits cfg F = [] := by
  rw [foldl_populateEdits]
  cases hlast : (r.populateEdits cfg F).getLast? with
  | none => exact iff_of_true rfl (List.getLast?_eq_none_iff.mp hlast)
  | some e =>
    obtain ⟨msg, rfl, hmsg⟩ := failEdit_of_populateEdits hwanted (List.mem_of_getLast? hlast)
    refine iff_of_false (fun heq => hmsg ?_) fun hnil => ?_
    · exact Option.some.inj (congrArg (Option.map Condition.message) heq)
    · rw [hnil] at hlast
      cases hlast

end Refusals

/-- The condition the inventory files for a child is that of the Kptfile, if it names the
for-instance. -/
theorem ownedCondition_eq {cfg : Config V} {r : Sdk V} (hdoc : r.Documented cfg)
    {F ref : ObjectReference} (hF : r.inv.role F = some .forGVKKind)
    (href : r.inv.role ref = some .ownGVKKind) (hrefdoc : ref.Documented) :
    r.ownedCondition F ref = (r.kptfile.getCondition (getConditionType ref)).filter
      fun c => getGVKNFromConditionType c.reason = F := by
  cases howned : r.ownedCondition F ref with
  | some c =>
    obtain ⟨hlookup, -, -⟩ := lookup_of_ownedCondition hdoc href hF howned
    have hget : r.kptfile.getCondition (getConditionType ref) = some c := hlookup
    rw [hget, Option.filter_some, if_pos]
    exact decide_eq_true (mem_of_ownedCondition howned).2.2
  | none =>
    symm
    rw [Option.filter_eq_none_iff]
    intro c hc hreason
    have hmem := Keyed.mem_of_lookup Condition.type hc
    have htype := Keyed.key_of_lookup Condition.type hc
    have hnil := List.getLast?_eq_none_iff.mp howned
    refine List.filter_eq_nil_iff.mp hnil c hmem (decide_eq_true ⟨?_, of_decide_eq_true hreason⟩)
    rw [htype, hrefdoc.decode]

/-- The object of a child: the last one with its reference that names the for-instance. -/
theorem ownedItem_eq (r : Sdk V) (F ref : ObjectReference) :
    r.ownedItem F ref = ((r.items.filter fun o => o.ref = ref).filter
      fun o => getGVKNFromConditionType o.owner = F).getLast? := by
  rw [ownedItem, List.filter_filter]
  congr 1
  refine List.filter_congr fun o _ => ?_
  rw [Bool.decide_and, Bool.and_comm]

/-- A child that is neither in the package nor wanted has a condition. -/
theorem ownedCondition_of_child {cfg : Config V} {r : Sdk V} {F ref : ObjectReference}
    (hchild : r.Owns F ref ∨ r.Wants cfg F ref)
    (hnone : ¬ ((r.ownedItem F ref).isSome ∨ (r.wantedObj cfg F ref).isSome)) :
    ∃ c, r.ownedCondition F ref = some c := by
  obtain ⟨hitem, hwanted⟩ := not_or.mp hnone
  rcases hchild with ⟨-, -, hmem⟩ | ⟨-, -, obj, hobj, hobjref⟩
  · rcases mem_resourcesOf.mp hmem with ⟨c, hc, htype, hreason⟩ | ⟨o, ho, horef, howner⟩
    · exact Option.isSome_iff_exists.mp (List.getLast?_isSome.mpr (List.ne_nil_of_mem
        (List.mem_filter.mpr ⟨hc, decide_eq_true ⟨htype, hreason⟩⟩)))
    · exact absurd (List.getLast?_isSome.mpr (List.ne_nil_of_mem
        (List.mem_filter.mpr ⟨ho, decide_eq_true ⟨horef, howner⟩⟩))) hitem
  · refine absurd ?_ hwanted
    rw [wantedObj, Option.isSome_map]
    exact List.getLast?_isSome.mpr (List.ne_nil_of_mem
      (List.mem_filter.mpr ⟨hobj, decide_eq_true hobjref⟩))

/-- The package that stage 1 left, to be filed again. -/
def again (r r₁ : Sdk V) : Sdk V := { r₁ with inv := r.inv }

section Passes

variable [DecidableEq V] {cfg : Config V} {ord : Order} {r r₁ : Sdk V} (hfresh : r.inv.Fresh cfg)
  (hdoc : r.Documented cfg) (hdisj : r.Disjoint cfg)
  (h : (r.filed cfg).stage1 cfg ord = .ok r₁)

include hfresh hdoc hdisj h

/-- The conditions after stage 1. -/
theorem mem_conditions_stage1 {c : Condition} (hc : c ∈ r₁.kptfile.conditions) :
    c ∈ r.kptfile.conditions ∨
      (∃ F, r.ForInstance cfg F ∧ F.Documented ∧ c.type = getConditionType F) ∨
      ∃ F ref, (r.Owns F ref ∨ r.Wants cfg F ref) ∧ c.type = getConditionType ref ∧
        c.reason = getConditionType F := by
  have hnodup : (Keyed.keys Condition.type r₁.kptfile.conditions).Nodup := by
    rw [conditions_stage1 hfresh hdoc h]
    exact Keyed.nodup_keys_applyAll (Keyed.nodup_keys_applyAll hdoc.types _) _
  have hlookup := Keyed.lookup_of_mem Condition.type hnodup hc
  by_cases hfor : ∃ F, r.ForInstance cfg F ∧ F.Documented ∧ getConditionType F = c.type
  · obtain ⟨F, hF, hFdoc, htype⟩ := hfor
    exact Or.inr (Or.inl ⟨F, hF, hFdoc, htype.symm⟩)
  · by_cases hown : ∃ F ref, (r.Owns F ref ∨ r.Wants cfg F ref) ∧ getConditionType ref = c.type
    · obtain ⟨F, ref, hchild, htype⟩ := hown
      rw [← htype, lookup_stage1_own hfresh hdoc h (hdisj.only hchild) hchild] at hlookup
      rcases childOutcome_cases hlookup with hheld | hreason
      · exact Or.inl (Keyed.mem_of_lookup Condition.type hheld)
      · exact Or.inr (Or.inr ⟨F, ref, hchild, htype.symm, hreason⟩)
    · rw [lookup_stage1_other hfresh hdoc h
        (fun F hF hFdoc htype => hfor ⟨F, hF, hFdoc, htype⟩)
        fun F ref hchild htype => hown ⟨F, ref, hchild, htype⟩] at hlookup
      exact Or.inl (Keyed.mem_of_lookup Condition.type hlookup)

/-- The items after stage 1. -/
theorem mem_items_of_stage1 {o : KubeObject V} (ho : o ∈ r₁.items) :
    o ∈ r.items ∨ ∃ F, (r.Owns F o.ref ∨ r.Wants cfg F o.ref) ∧
      (r.wantedObj cfg F o.ref = some o ∨
        ∃ o', r.ownedItem F o.ref = some o' ∧ o = mark o') := by
  have hfilter : o ∈ r₁.items.filter fun x => x.ref = o.ref :=
    List.mem_filter.mpr ⟨ho, decide_eq_true rfl⟩
  by_cases hown : ∃ F, r.Owns F o.ref ∨ r.Wants cfg F o.ref
  · obtain ⟨F, hchild⟩ := hown
    rw [items_stage1_own hfresh hdoc h (hdisj.only hchild) hchild] at hfilter
    rcases Keyed.mem_of_mem_upsertAll KubeObject.id hfilter with hitem | hmem
    · exact Or.inr ⟨F, hchild, childItem_cases (Option.mem_toList.mp hitem)⟩
    · exact Or.inl (List.mem_of_mem_filter hmem)
  · rw [items_stage1_other hfresh hdoc h fun F hchild => hown ⟨F, hchild⟩] at hfilter
    exact Or.inl (List.mem_of_mem_filter hfilter)

omit hfresh hdoc hdisj h [DecidableEq V] in
theorem owner_mark (o : KubeObject V) : (mark o).owner = o.owner := by
  have hne : specializerDelete ≠ specializerOwner := by decide
  unfold KubeObject.owner KubeObject.getAnnotation mark KubeObject.setAnnotation
  simp only [Keyed.lookup_upsert, if_neg hne]

omit hfresh hdisj h [DecidableEq V] in
/-- The owner of an item that was written. -/
theorem owner_of_written {F : ObjectReference} {o : KubeObject V}
    (hchild : r.Owns F o.ref ∨ r.Wants cfg F o.ref)
    (hwritten : r.wantedObj cfg F o.ref = some o ∨
      ∃ o', r.ownedItem F o.ref = some o' ∧ o = mark o') :
    getGVKNFromConditionType o.owner = F := by
  rcases hwritten with hwanted | ⟨o', howned, ho⟩
  · obtain ⟨d, -, rfl⟩ := Option.map_eq_some_iff.mp hwanted
    rw [owner_owned, (hdoc.child hchild).1.decode]
  · rw [ho, owner_mark]
    exact (mem_of_ownedItem howned).2.2

omit hdisj in
/-- The for objects are as they were. -/
theorem forObj_again {F : ObjectReference} (hF : r.inv.role F = some .forGVKKind) :
    (r.again r₁).forObj F = r.forObj F := by
  unfold forObj
  rw [show (r.again r₁).items = r₁.items from rfl, items_stage1_other hfresh hdoc h]
  intro G hchild
  have hrole : r.inv.role F = some .ownGVKKind := hchild.elim And.left And.left
  rw [hF] at hrole
  cases hrole

omit hdisj in
theorem wanted_again {F : ObjectReference} (hF : r.inv.role F = some .forGVKKind) :
    (r.again r₁).wanted cfg F = r.wanted cfg F := by
  unfold wanted
  rw [forObj_again hfresh hdoc h hF]

omit hdisj in
theorem wantedObjs_again {F : ObjectReference} (hF : r.inv.role F = some .forGVKKind) :
    (r.again r₁).wantedObjs cfg F = r.wantedObjs cfg F := by
  unfold wantedObjs
  rw [wanted_again hfresh hdoc h hF]

omit hdisj in
theorem wantedObj_again {F ref : ObjectReference} (hF : r.inv.role F = some .forGVKKind) :
    (r.again r₁).wantedObj cfg F ref = r.wantedObj cfg F ref := by
  unfold wantedObj
  rw [wantedObjs_again hfresh hdoc h hF]

/-- The package that stage 1 leaves is in the documented form. -/
theorem documented_again : (r.again r₁).Documented cfg where
  types := by
    show (Keyed.keys Condition.type r₁.kptfile.conditions).Nodup
    rw [conditions_stage1 hfresh hdoc h]
    exact Keyed.nodup_keys_applyAll (Keyed.nodup_keys_applyAll hdoc.types _) _
  forItem o ho hrole := by
    rcases mem_items_of_stage1 hfresh hdoc hdisj h ho with hmem | ⟨F, hchild, -⟩
    · exact hdoc.forItem o hmem hrole
    · exact (hdoc.child hchild).2
  forCondition c hc hrole := by
    rcases mem_conditions_stage1 hfresh hdoc hdisj h hc with
      hmem | ⟨F, -, hFdoc, htype⟩ | ⟨F, ref, hchild, htype, -⟩
    · exact hdoc.forCondition c hmem hrole
    · exact ⟨F, hFdoc, htype⟩
    · exact ⟨ref, (hdoc.child hchild).2, htype⟩
  ownItem o ho hrole howner := by
    rcases mem_items_of_stage1 hfresh hdoc hdisj h ho with hmem | ⟨F, hchild, hwritten⟩
    · exact hdoc.ownItem o hmem hrole howner
    · obtain ⟨hFdoc, hrefdoc⟩ := hdoc.child hchild
      refine ⟨hrefdoc, ?_⟩
      rcases hwritten with hwanted | ⟨o', howned, rfl⟩
      · obtain ⟨d, -, rfl⟩ := Option.map_eq_some_iff.mp hwanted
        exact ⟨F, hFdoc, owner_owned F d⟩
      · rw [owner_mark] at howner ⊢
        exact (hdoc.ownItem o' (mem_of_ownedItem howned).1 hrole howner).2
  ownCondition c hc hrole hreason := by
    rcases mem_conditions_stage1 hfresh hdoc hdisj h hc with
      hmem | ⟨F, hF, hFdoc, htype⟩ | ⟨F, ref, hchild, htype, hreason'⟩
    · exact hdoc.ownCondition c hmem hrole hreason
    · rw [htype, hFdoc.decode] at hrole
      have hfor : r.inv.role F = some .ownGVKKind := hrole
      rw [ForInstance.role hfresh hF] at hfor
      cases hfor
    · obtain ⟨hFdoc, hrefdoc⟩ := hdoc.child hchild
      exact ⟨⟨ref, hrefdoc, htype⟩, ⟨F, hFdoc, hreason'⟩⟩
  wanted F hF obj hobj hrole := by
    rw [wantedObjs_again hfresh hdoc h hF] at hobj
    exact hdoc.wanted F hF obj hobj hrole

/-- The second pass sees no other children. -/
theorem child_of_again {F ref : ObjectReference}
    (hchild : (r.again r₁).Owns F ref ∨ (r.again r₁).Wants cfg F ref) :
    r.Owns F ref ∨ r.Wants cfg F ref := by
  rcases hchild with ⟨href, hF, hmem⟩ | ⟨href, hF, obj, hobj, hobjref⟩
  · have href : r.inv.role ref = some .ownGVKKind := href
    have hF : r.inv.role F = some .forGVKKind := hF
    rcases mem_resourcesOf.mp hmem with ⟨c, hc, htype, hreason⟩ | ⟨o, ho, horef, howner⟩
    · rcases mem_conditions_stage1 hfresh hdoc hdisj h hc with
        hold | ⟨G, hG, hGdoc, htype'⟩ | ⟨G, ref', hchild, htype', hreason'⟩
      · exact Or.inl ⟨href, hF, mem_resourcesOf.mpr (Or.inl ⟨c, hold, htype, hreason⟩)⟩
      · rw [htype', hGdoc.decode] at htype
        rw [← htype, ForInstance.role hfresh hG] at href
        cases href
      · obtain ⟨hGdoc, hrefdoc⟩ := hdoc.child hchild
        rw [htype', hrefdoc.decode] at htype
        rw [hreason', hGdoc.decode] at hreason
        rwa [← htype, ← hreason]
    · rcases mem_items_of_stage1 hfresh hdoc hdisj h ho with hold | ⟨G, hchild, hwritten⟩
      · exact Or.inl ⟨href, hF, mem_resourcesOf.mpr (Or.inr ⟨o, hold, horef, howner⟩)⟩
      · rw [owner_of_written hdoc hchild hwritten] at howner
        rwa [howner, horef] at hchild
  · rw [wantedObjs_again hfresh hdoc h hF] at hobj
    exact Or.inr ⟨href, hF, obj, hobj, hobjref⟩

theorem disjoint_again : (r.again r₁).Disjoint cfg := fun F F' ref hchild hchild' =>
  hdisj F F' ref (child_of_again hfresh hdoc hdisj h hchild)
    (child_of_again hfresh hdoc hdisj h hchild')

/-- The object that the second pass finds for a child. -/
theorem ownedItem_again {F ref : ObjectReference} (hchild : r.Owns F ref ∨ r.Wants cfg F ref) :
    (r.again r₁).ownedItem F ref =
        (childItem (r.forCtx cfg F) (r.childCtx cfg F ref)).or (r.ownedItem F ref) ∨
      ((r.ownedItem F ref).isSome ∧ (r.again r₁).ownedItem F ref = r.ownedItem F ref) := by
  have hitems := items_stage1_own hfresh hdoc h (hdisj.only hchild) hchild
  rw [ownedItem_eq, ownedItem_eq, show (r.again r₁).items = r₁.items from rfl, hitems]
  cases hitem : childItem (r.forCtx cfg F) (r.childCtx cfg F ref) with
  | none => exact Or.inl rfl
  | some x =>
    have href : x.ref = ref := by
      rcases childItem_cases hitem with hwanted | ⟨o, howned, rfl⟩
      · exact ref_of_wantedObj hwanted
      · exact (mem_of_ownedItem howned).2.1
    have howner : getGVKNFromConditionType x.owner = F :=
      owner_of_written hdoc (by rwa [href]) (by rw [href]; exact childItem_cases hitem)
    rcases @getLast?_filter_upsert _ _ _ KubeObject.id
      (fun o => getGVKNFromConditionType o.owner = F) x (decide_eq_true howner)
      (r.items.filter fun o => o.ref = ref) with hnew | hold
    · exact Or.inl hnew
    · exact Or.inr hold

/-- A child is in the package or wanted in the second pass if it was in the first. -/
theorem there_again {F ref : ObjectReference} (hchild : r.Owns F ref ∨ r.Wants cfg F ref) :
    ((r.again r₁).ownedItem F ref).isSome ∨ ((r.again r₁).wantedObj cfg F ref).isSome ↔
      (r.ownedItem F ref).isSome ∨ (r.wantedObj cfg F ref).isSome := by
  obtain ⟨-, hF⟩ := roles_of_child hchild
  rw [wantedObj_again hfresh hdoc h hF]
  rcases ownedItem_again hfresh hdoc hdisj h hchild with heq | ⟨-, heq⟩
  · rw [heq, Option.isSome_or, Bool.or_eq_true]
    constructor
    · rintro ((hitem | howned) | hwanted)
      · obtain ⟨x, hx⟩ := Option.isSome_iff_exists.mp hitem
        rcases childItem_cases hx with hnew | ⟨o, ho, -⟩
        · exact Or.inr (Option.isSome_of_eq_some hnew)
        · exact Or.inl (Option.isSome_of_eq_some ho)
      · exact Or.inl howned
      · exact Or.inr hwanted
    · exact Or.imp_left Or.inr
  · rw [heq]

/-- The second pass knows a child under the same kind. -/
theorem ownKind_again {F ref : ObjectReference} (hchild : r.Owns F ref ∨ r.Wants cfg F ref) :
    ((r.again r₁).childCtx cfg F ref).ownKind = (r.childCtx cfg F ref).ownKind := by
  have hiff := there_again hfresh hdoc hdisj h hchild
  simp only [ResourceCtx.ownKind, childCtx, Bool.or_eq_true, hiff]
  rfl

/-- What the second pass sees of a child whose for-instance is there. -/
theorem seen_again {F ref : ObjectReference} (hchild : r.Owns F ref ∨ r.Wants cfg F ref)
    (hobj : (r.forObj F).isSome) :
    SeenAgain (outcomeItem (r.childCtx cfg F ref))
      (outcome F ref (r.childCtx cfg F ref) (r.kptfile.getCondition (getConditionType ref)))
      (r.childCtx cfg F ref) ((r.again r₁).childCtx cfg F ref) := by
  obtain ⟨href, hF⟩ := roles_of_child hchild
  have hwanted := @wantedObj_again V _ cfg ord r r₁ hfresh hdoc h F ref hF
  have hitem : childItem (r.forCtx cfg F) (r.childCtx cfg F ref) =
      outcomeItem (r.childCtx cfg F ref) := if_pos hobj
  have hexisting := ownedItem_again hfresh hdoc hdisj h hchild
  rw [hitem] at hexisting
  refine ⟨hwanted, ownKind_again hfresh hdoc hdisj h hchild, hexisting, ?_⟩
  · show (r.again r₁).ownedCondition F ref = _
    rw [ownedCondition_eq (documented_again hfresh hdoc hdisj h) hF href (hdoc.child hchild).2]
    show (Keyed.lookup _ _ r₁.kptfile.conditions).filter _ = _
    rw [lookup_stage1_present hfresh hdoc hdisj h hobj hchild]
    cases hended : outcome F ref (r.childCtx cfg F ref)
        (Keyed.lookup Condition.type (getConditionType ref) r.kptfile.conditions) with
    | none => exact hended.symm
    | some c =>
      refine (if_pos (decide_eq_true ?_)).trans hended.symm
      refine outcome_named (P := fun c => getGVKNFromConditionType c.reason = F) (fun c hc => ?_)
        (fun _ _ => (hdoc.child hchild).1.decode) hended
      exact ⟨(lookup_of_ownedCondition hdoc href hF hc).1, (mem_of_ownedCondition hc).2.2⟩

omit hfresh hdisj h [DecidableEq V] in
/-- The condition of a child that the inventory files is the one of the Kptfile. -/
theorem held_of_childCtx {F ref : ObjectReference} (hchild : r.Owns F ref ∨ r.Wants cfg F ref)
    (c : Condition) (hc : (r.childCtx cfg F ref).existingCondition = some c) :
    r.kptfile.getCondition (getConditionType ref) = some c :=
  (lookup_of_ownedCondition hdoc (hchild.elim And.left And.left)
    (hchild.elim (fun h => h.2.1) fun h => h.2.1) hc).1

/-- A child that needed nothing needs nothing. -/
theorem childCtx_changed_again {F ref : ObjectReference} (hchild : r.Owns F ref ∨ r.Wants cfg F ref)
    (hobj : (r.forObj F).isSome) (hchanged : changed (r.childCtx cfg F ref) = false) :
    changed ((r.again r₁).childCtx cfg F ref) = false :=
  changed_again (seen_again hfresh hdoc hdisj h hchild hobj) (held_of_childCtx hdoc hchild) hchanged

/-- No for-instance is reset again. -/
theorem not_resets_again (F : ObjectReference) : ¬ (r.again r₁).Resets cfg F := by
  rintro ⟨hobj, hcond, ref, hchild', hchanged⟩
  have hchild := child_of_again hfresh hdoc hdisj h hchild'
  obtain ⟨-, hF⟩ := roles_of_child hchild
  have hFdoc := (hdoc.child hchild).1
  rw [forObj_again hfresh hdoc h hF] at hobj
  have hlookup := lookup_stage1_for hfresh hdoc h (forInstance_of_own hfresh hchild) hFdoc
  cases hwanted : r.wanted cfg F with
  | error err =>
    simp only [forCtx, wanted_again hfresh hdoc h hF, hwanted] at hcond
    exact absurd hcond (by simp [notFalse, forCondition])
  | ok objs =>
    have hentry : ((r.again r₁).forCtx cfg F).existingCondition =
        Keyed.lookup Condition.type (getConditionType F) r₁.kptfile.conditions := by
      simp only [forCtx, wanted_again hfresh hdoc h hF, hwanted]
      exact conditionOf_eq (documented_again hfresh hdoc hdisj h) hF hFdoc
    rw [hentry, hlookup] at hcond
    by_cases hreset : r.Resets cfg F
    · rw [if_pos hreset] at hcond
      exact absurd hcond (by simp [notFalse, forCondition])
    · rw [if_neg hreset] at hcond
      have hentry₀ : (r.forCtx cfg F).existingCondition =
          Keyed.lookup Condition.type (getConditionType F) r.kptfile.conditions := by
        simp only [forCtx, hwanted]
        exact conditionOf_eq hdoc hF hFdoc
      cases hnotFalse : notFalse (r.forCtx cfg F).existingCondition with
      | false =>
        rw [hentry₀] at hnotFalse
        rw [notFalse_foldl_populateEdits hnotFalse] at hcond
        cases hcond
      | true =>
        have hunchanged : changed (r.childCtx cfg F ref) = false := by
          by_contra hne
          exact hreset ⟨hobj, hnotFalse, ref, hchild, Bool.eq_true_of_not_eq_false hne⟩
        rw [childCtx_changed_again hfresh hdoc hdisj h hchild hobj hunchanged] at hchanged
        cases hchanged

/-- The second pass completes. -/
theorem noPanic_again : (r.again r₁).NoPanic cfg := by
  intro F ref hchild' hunmarks
  have hchild := child_of_again hfresh hdoc hdisj h hchild'
  obtain ⟨-, hF⟩ := roles_of_child hchild
  have hFdoc := (hdoc.child hchild).1
  obtain ⟨objs, hwanted, hobj⟩ := wanted_of_unmarks hunmarks
  rw [wanted_again hfresh hdoc h hF] at hwanted
  rw [forObj_again hfresh hdoc h hF] at hobj
  rw [conditionOf_eq (documented_again hfresh hdoc hdisj h) hF hFdoc]
  show (Keyed.lookup Condition.type (getConditionType F) r₁.kptfile.conditions).isSome
  rw [lookup_stage1_for hfresh hdoc h (forInstance_of_own hfresh hchild) hFdoc]
  by_cases hreset : r.Resets cfg F
  · rw [if_pos hreset]
    rfl
  · rw [if_neg hreset]
    refine isSome_foldl_populateEdits ?_
    by_contra hnone
    have hentry : (r.forCtx cfg F).existingCondition = none := by
      simp only [forCtx, hwanted]
      rw [conditionOf_eq hdoc hF hFdoc]
      exact Option.not_isSome_iff_eq_none.mp hnone
    have hunchanged : changed (r.childCtx cfg F ref) = false := by
      by_contra hne
      exact hreset ⟨hobj, by rw [hentry]; rfl, ref, hchild, Bool.eq_true_of_not_eq_false hne⟩
    have hagain := childCtx_changed_again hfresh hdoc hdisj h hchild hobj hunchanged
    rw [changed, hunmarks, Bool.or_true] at hagain
    cases hagain

omit hdisj in
/-- What stage 1 writes is the item of a child. -/
theorem item_of_written {x : KubeObject V}
    (hx : x ∈ (readyScript ord (stage1Inv cfg ord r)).items) :
    ∃ F, (r.Owns F x.ref ∨ r.Wants cfg F x.ref) ∧
      childItem (r.forCtx cfg F) (r.childCtx cfg F x.ref) = some x := by
  have hnd : (stage1Inv cfg ord r).resources.KeysNodup 2 := keysNodup_stage1Inv hfresh
  have hinv := @documented_stage1Inv V cfg ord r hfresh hdoc
  obtain ⟨F, forRes, hforRes, hx⟩ := exists_of_mem_flatMap_diffs hnd (perm_sortByRef _ _) hx
  rw [items_diffScript] at hx
  obtain ⟨s, hs, hx⟩ := List.mem_flatMap.mp hx
  obtain ⟨hxref, -⟩ := own_of_mem_items hinv hs hx
  obtain ⟨hnamed, hwritten⟩ := mem_items_script hx
  obtain ⟨res, hres, hs⟩ := exists_of_mem_steps hnd (ne_empty_of_named hnamed) hs
  obtain ⟨hchild, rfl⟩ := (find_stage1_own hfresh).mp hres
  obtain ⟨-, rfl⟩ := (find_stage1_for hfresh hdoc).mp hforRes
  rw [childDelta_eq hinv hfresh.ready (diffCompletes_of_stage1 hfresh hdoc h) hforRes hres] at hs
  rw [hxref]
  refine ⟨F, hchild, ?_⟩
  have hmem := List.mem_flatMap (f := fun s : ObjectReference × ChildStep V => s.2.written).mpr
    ⟨s, hs, hwritten⟩
  unfold childItem
  split_ifs at hmem ⊢
  · exact written_present hmem
  · rw [items_orphan] at hmem
    exact Option.mem_toList.mp hmem

/-- What the second pass writes for a child is what the first one wrote. -/
theorem childItem_again {F ref : ObjectReference} (hchild : r.Owns F ref ∨ r.Wants cfg F ref)
    {x : KubeObject V}
    (hx : childItem ((r.again r₁).forCtx cfg F) ((r.again r₁).childCtx cfg F ref) = some x) :
    childItem (r.forCtx cfg F) (r.childCtx cfg F ref) = some x := by
  obtain ⟨-, hF⟩ := roles_of_child hchild
  have hforObj : ((r.again r₁).forCtx cfg F).existingResource = (r.forCtx cfg F).existingResource :=
    forObj_again hfresh hdoc h hF
  have hexisting := ownedItem_again hfresh hdoc hdisj h hchild
  unfold childItem at hx hexisting ⊢
  rw [hforObj] at hx
  split_ifs at hx hexisting ⊢ with hobj
  · exact outcomeItem_again (seen_again hfresh hdoc hdisj h hchild hobj) hx
  · exact orphanItem_again (ownKind_again hfresh hdoc hdisj h hchild) hexisting hx

/-- **The second pass writes what is there.** -/
theorem items_again {ord' : Order} {r₂ : Sdk V}
    (h₂ : ((r.again r₁).filed cfg).stage1 cfg ord' = .ok r₂) : r₂.items = r₁.items := by
  have hdoc' := documented_again hfresh hdoc hdisj h
  have hfresh' : (r.again r₁).inv.Fresh cfg := hfresh
  rw [items_stage1 hfresh' hdoc' h₂]
  refine Keyed.upsertAll_of_lookup fun x hx => ?_
  obtain ⟨F, hchild', hx⟩ := item_of_written hfresh' hdoc' h₂ hx
  have hchild := child_of_again hfresh hdoc hdisj h hchild'
  have hitem := childItem_again hfresh hdoc hdisj h hchild hx
  show Keyed.lookup KubeObject.id x.id r₁.items = some x
  rw [← Keyed.lookup_filter (p := fun o => o.ref = x.ref) fun o _ hid =>
      (ref_of_id o x hid).trans (decide_eq_true rfl),
    items_stage1_own hfresh hdoc h (hdisj.only hchild) hchild, hitem]
  show Keyed.lookup KubeObject.id x.id (Keyed.upsert KubeObject.id x _) = some x
  rw [Keyed.lookup_upsert, if_pos rfl]

/-- A child that the second pass sees of a for-instance in the package is in the package or wanted:
the condition of any other was removed. -/
theorem there_of_child_again {F ref : ObjectReference}
    (hchild : (r.again r₁).Owns F ref ∨ (r.again r₁).Wants cfg F ref) (hobj : (r.forObj F).isSome) :
    (r.ownedItem F ref).isSome ∨ (r.wantedObj cfg F ref).isSome := by
  have hchild₀ := child_of_again hfresh hdoc hdisj h hchild
  obtain ⟨href, hF⟩ := roles_of_child hchild₀
  by_contra hnone
  have hnone' := mt (there_again hfresh hdoc hdisj h hchild₀).mp hnone
  obtain ⟨c, hc⟩ := ownedCondition_of_child hchild hnone'
  obtain ⟨c₀, hc₀⟩ := ownedCondition_of_child hchild₀ hnone
  have hlookup := (lookup_of_ownedCondition (documented_again hfresh hdoc hdisj h) href hF hc).1
  rw [show (r.again r₁).kptfile = r₁.kptfile from rfl,
    lookup_stage1_present hfresh hdoc hdisj h hobj hchild₀] at hlookup
  obtain ⟨hitem, hnew⟩ := not_or.mp hnone
  have hended : outcome F ref (r.childCtx cfg F ref)
      (Keyed.lookup Condition.type (getConditionType ref) r.kptfile.conditions) = none := by
    simp [outcome, childCtx, Option.not_isSome_iff_eq_none.mp hnew,
      Option.not_isSome_iff_eq_none.mp hitem, hc₀, ResourceCtx.ownKind, keptKind]
  rw [hended] at hlookup
  cases hlookup

variable {ord' : Order} {r₂ : Sdk V} (h₂ : ((r.again r₁).filed cfg).stage1 cfg ord' = .ok r₂)

include h₂

/-- The condition of a for-instance after the second pass. -/
theorem lookup_again_for {F : ObjectReference} (hF : (r.again r₁).ForInstance cfg F)
    (hFdoc : F.Documented) :
    r₂.kptfile.getCondition (getConditionType F) =
      (r.populateEdits cfg F).foldl (fun held e => e.act held)
        (r₁.kptfile.getCondition (getConditionType F)) := by
  have hrole : r.inv.role F = some .forGVKKind := ForInstance.role (r := r.again r₁) hfresh hF
  have hedits : (r.again r₁).populateEdits cfg F = r.populateEdits cfg F := by
    unfold populateEdits
    rw [wanted_again hfresh hdoc h hrole]
    rfl
  refine (lookup_stage1_for (r := r.again r₁) hfresh (documented_again hfresh hdoc hdisj h) h₂ hF
    hFdoc).trans ?_
  rw [if_neg (not_resets_again hfresh hdoc hdisj h F), hedits]
  rfl

/-- The condition of a child after the second pass. -/
theorem lookup_again_own {F ref : ObjectReference}
    (hchild : (r.again r₁).Owns F ref ∨ (r.again r₁).Wants cfg F ref) :
    r₂.kptfile.getCondition (getConditionType ref) =
        r₁.kptfile.getCondition (getConditionType ref) ↔
      ¬ ((r.forObj F).isSome ∧ createdMarked (r.childCtx cfg F ref)) := by
  have hchild₀ := child_of_again hfresh hdoc hdisj h hchild
  have hdoc' := documented_again hfresh hdoc hdisj h
  obtain ⟨href, hF⟩ := roles_of_child hchild₀
  have hsecond : r₂.kptfile.getCondition (getConditionType ref) = _ :=
    lookup_stage1_own (r := r.again r₁) hfresh hdoc' h₂
      ((disjoint_again hfresh hdoc hdisj h).only hchild) hchild
  have hfirst : r₁.kptfile.getCondition (getConditionType ref) = _ :=
    lookup_stage1_own hfresh hdoc h (hdisj.only hchild₀) hchild₀
  have hforObj : ((r.again r₁).forCtx cfg F).existingResource = (r.forCtx cfg F).existingResource :=
    forObj_again hfresh hdoc h hF
  rw [hsecond, show Keyed.lookup Condition.type (getConditionType ref)
    (r.again r₁).kptfile.conditions = r₁.kptfile.getCondition (getConditionType ref) from rfl]
  unfold childOutcome at hfirst ⊢
  rw [hforObj]
  by_cases hobj : (r.forCtx cfg F).existingResource.isSome
  · rw [if_pos hobj] at hfirst ⊢
    rw [hfirst]
    refine (outcome_again (seen_again hfresh hdoc hdisj h hchild₀ hobj)
      (held_of_childCtx hdoc hchild₀) (there_of_child_again hfresh hdoc hdisj h hchild hobj).symm).trans
      (not_congr ⟨fun hmarked => ⟨hobj, hmarked⟩, And.right⟩)
  · rw [if_neg hobj] at hfirst ⊢
    rw [hfirst]
    refine iff_of_true ?_ fun hmarked => hobj hmarked.1
    refine orphanOutcome_again (ownKind_again hfresh hdoc hdisj h hchild₀) ?_
      (ownedCondition_eq hdoc hF href (hdoc.child hchild₀).2) ?_
    · refine isSome_orphan_again ?_
      have hexisting := ownedItem_again hfresh hdoc hdisj h hchild₀
      rwa [childItem, if_neg hobj] at hexisting
    · rw [← hfirst]
      exact ownedCondition_eq hdoc' hF href (hdoc.child hchild₀).2

end Passes

/-- Nothing is left for a second pass to say: no for-instance that is reset has been refused a child,
and no child is created with the delete annotation. -/
structure AtRest [DecidableEq V] (cfg : Config V) (r : Sdk V) : Prop where
  refused : ∀ F, r.Resets cfg F → r.populateEdits cfg F = []
  created : ∀ F ref, r.Wants cfg F ref → ¬ createdMarked (r.childCtx cfg F ref)

section Rest

variable [DecidableEq V] {cfg : Config V} {ord ord' : Order} {r r₁ r₂ : Sdk V}

omit [DecidableEq V] in
theorem wants_of_wantedObj {F ref : ObjectReference} {o : KubeObject V}
    (href : r.inv.role ref = some .ownGVKKind) (hF : r.inv.role F = some .forGVKKind)
    (h : r.wantedObj cfg F ref = some o) : r.Wants cfg F ref := by
  obtain ⟨d, hd, -⟩ := Option.map_eq_some_iff.mp h
  obtain ⟨hd, hdref⟩ := List.mem_filter.mp (List.mem_of_getLast? hd)
  exact ⟨href, hF, d, hd, of_decide_eq_true hdref⟩

omit [DecidableEq V] in
theorem forObj_of_wants {F ref : ObjectReference} (h : r.Wants cfg F ref) : (r.forObj F).isSome := by
  obtain ⟨-, -, obj, hobj, -⟩ := h
  cases hforObj : r.forObj F with
  | some o => rfl
  | none =>
    have hwanted : r.wanted cfg F = .ok [] := by
      unfold wanted
      rw [hforObj]
      cases cfg.populating.populateOwnResourcesFn <;> rfl
    rw [wantedObjs, hwanted] at hobj
    cases hobj

omit [DecidableEq V] in
theorem populateEdits_of_absent {F : ObjectReference} (h : r.forObj F = none) :
    r.populateEdits cfg F = [] := by
  unfold populateEdits wanted
  rw [h]
  cases cfg.populating.populateOwnResourcesFn <;> rfl

theorem wanted_of_resets {F : ObjectReference} (h : r.Resets cfg F) :
    ∃ objs, r.wanted cfg F = .ok objs := by
  cases hwanted : r.wanted cfg F with
  | ok objs => exact ⟨objs, rfl⟩
  | error err =>
    have hcond := h.2.1
    simp only [forCtx, hwanted] at hcond
    exact absurd hcond (by simp [notFalse, forCondition])

variable (hfresh : r.inv.Fresh cfg) (hdoc : r.Documented cfg) (hdisj : r.Disjoint cfg)
  (h : (r.filed cfg).stage1 cfg ord = .ok r₁)
  (h₂ : ((r.again r₁).filed cfg).stage1 cfg ord' = .ok r₂)

include hfresh hdoc hdisj h h₂

theorem conditions_again_of_atRest (hrest : r.AtRest cfg) (t : String) :
    r₂.kptfile.getCondition t = r₁.kptfile.getCondition t := by
  by_cases hfor : ∃ F, (r.again r₁).ForInstance cfg F ∧ F.Documented ∧ getConditionType F = t
  · obtain ⟨F, hF, hFdoc, rfl⟩ := hfor
    rw [lookup_again_for hfresh hdoc hdisj h h₂ hF hFdoc]
    by_cases hF₀ : r.ForInstance cfg F
    · have hfirst : r₁.kptfile.getCondition (getConditionType F) = _ :=
        lookup_stage1_for hfresh hdoc h hF₀ hFdoc
      by_cases hresets : r.Resets cfg F
      · rw [hrest.refused F hresets, List.foldl_nil]
      · rw [hfirst, if_neg hresets, foldl_populateEdits_twice]
    · -- a for-instance that came in with stage 1 has no object
      rw [populateEdits_of_absent, List.foldl_nil]
      cases hforObj : r.forObj F with
      | none => rfl
      | some o =>
        exact absurd (forInstance_of_forObj hfresh hforObj
          (ForInstance.role (r := r.again r₁) hfresh hF)) hF₀
  · by_cases hown : ∃ F ref, ((r.again r₁).Owns F ref ∨ (r.again r₁).Wants cfg F ref) ∧
      getConditionType ref = t
    · obtain ⟨F, ref, hchild, rfl⟩ := hown
      refine (lookup_again_own hfresh hdoc hdisj h h₂ hchild).mpr fun hmarked => ?_
      obtain ⟨-, -, new, hnew, -⟩ := hmarked.2
      have hchild₀ := child_of_again hfresh hdoc hdisj h hchild
      obtain ⟨href, hF⟩ := roles_of_child hchild₀
      exact hrest.created F ref (wants_of_wantedObj href hF hnew) hmarked.2
    · exact lookup_stage1_other (r := r.again r₁) hfresh (documented_again hfresh hdoc hdisj h) h₂
        (fun F hF hFdoc htype => hfor ⟨F, hF, hFdoc, htype⟩)
        fun F ref hchild htype => hown ⟨F, ref, hchild, htype⟩

theorem atRest_of_conditions_again
    (hsame : ∀ t, r₂.kptfile.getCondition t = r₁.kptfile.getCondition t) : r.AtRest cfg where
  refused F hresets := by
    obtain ⟨hobj, -, ref, hchild, -⟩ := id hresets
    obtain ⟨-, hF⟩ := roles_of_child hchild
    have hFdoc := (hdoc.child hchild).1
    obtain ⟨o, ho⟩ := Option.isSome_iff_exists.mp hobj
    have hagain : (r.again r₁).ForInstance cfg F :=
      forInstance_of_forObj (r := r.again r₁) hfresh
        ((forObj_again hfresh hdoc h hF).trans ho) hF
    have hfirst : r₁.kptfile.getCondition (getConditionType F) = _ :=
      lookup_stage1_for hfresh hdoc h (forInstance_of_own hfresh hchild) hFdoc
    rw [if_pos hresets] at hfirst
    obtain ⟨objs, hwanted⟩ := wanted_of_resets hresets
    have hsecond := lookup_again_for hfresh hdoc hdisj h h₂ hagain hFdoc
    rw [hsame, hfirst] at hsecond
    exact (foldl_populateEdits_reset hwanted).mp hsecond.symm
  created F ref hwants hmarked := by
    obtain ⟨href, hF, obj, hobj, hobjref⟩ := id hwants
    rw [← wantedObjs_again hfresh hdoc h hF] at hobj
    exact (lookup_again_own hfresh hdoc hdisj h h₂ (Or.inr ⟨href, hF, obj, hobj, hobjref⟩)).mp
      (hsame _) ⟨forObj_of_wants hwants, hmarked⟩

end Rest

/-- The children decide it. -/
theorem atRest_iff [DecidableEq V] {cfg : Config V} {r : Sdk V} :
    r.AtRest cfg ↔ ∀ e ∈ r.family cfg,
      (r.Resets cfg e.1 → (r.populateEdits cfg e.1).isEmpty) ∧
        ¬ createdMarked (r.childCtx cfg e.1 e.2) := by
  constructor
  · rintro hrest ⟨F, ref⟩ he
    refine ⟨fun hresets => List.isEmpty_iff.mpr (hrest.refused F hresets), fun hmarked => ?_⟩
    obtain ⟨href, hF⟩ := roles_of_child (mem_family.mp he)
    obtain ⟨-, -, new, hnew, -⟩ := id hmarked
    exact hrest.created F ref (wants_of_wantedObj href hF hnew) hmarked
  · intro hfamily
    refine ⟨fun F hresets => ?_, fun F ref hwants => ?_⟩
    · obtain ⟨-, -, ref, hchild, -⟩ := id hresets
      exact List.isEmpty_iff.mp ((hfamily (F, ref) (mem_family.mpr hchild)).1 hresets)
    · exact (hfamily (F, ref) (mem_family.mpr (Or.inr hwants))).2

/-- Interface `n3`, before its claims. -/
def bareInterface : Sdk Nat where
  items := [interfaceObj "n3"]
  kptfile := { conditions := [] }
  inv := claimsInv .childRemote

/-- The claim of the Interface, with the delete annotation. -/
def markedWanted (interface : String) : List (KubeObject Nat) := (claimsWanted interface).map mark

end Sdk

end Nephio.CondKptSdk
