import Nephio.Laws.CondKptSdk.Outcome
import Nephio.Laws.CondKptSdk.Watches

/-!
# Laws.CondKptSdk.Package: the inventory of the diff, read off the package

When the diff is taken, the inventory holds what was filed and what the for-instances want. This
module says so in terms of the package: which children a for-instance has or wants (`Owns`,
`Wants`), what their entries hold (`childCtx`), and what the entry of the for-instance holds
(`forCtx`).
-/

namespace Nephio.CondKptSdk

variable {V : Type}

/-- A text in the documented form: the condition type of a documented reference. -/
def Written (s : String) : Prop :=
  ∃ ref : ObjectReference, ref.Documented ∧ s = getConditionType ref

theorem Written.documented {s : String} (h : Written s) :
    (getGVKNFromConditionType s).Documented := by
  obtain ⟨ref, href, rfl⟩ := h
  rw [href.decode]
  exact href

theorem Written.eq {s : String} (h : Written s) :
    getConditionType (getGVKNFromConditionType s) = s := by
  obtain ⟨ref, href, rfl⟩ := h
  rw [href.decode]

instance (s : String) : Decidable (Written s) :=
  decidable_of_iff ((getGVKNFromConditionType s).Documented ∧
      getConditionType (getGVKNFromConditionType s) = s)
    ⟨fun h => ⟨_, h.1, h.2.symm⟩, fun h => ⟨h.documented, h.eq⟩⟩

/-- The configuration as stage 1 uses it: a function that owns nothing is not asked for children. -/
def Config.populating (cfg : Config V) : Config V :=
  if cfg.owns.isEmpty then { cfg with populateOwnResourcesFn := none } else cfg

namespace Sdk

/-- The sdk after `populateInventory`. -/
def filed (cfg : Config V) (r : Sdk V) : Sdk V :=
  { r with inv := r.inv.write (filings cfg r.inv r.kptfile.conditions r.items) }

/-- The object of a for-instance: the last item of that reference. -/
def forObj (r : Sdk V) (F : ObjectReference) : Option (KubeObject V) :=
  (r.items.filter fun o => o.ref = F).getLast?

/-- The condition of a for-instance: the last one whose type reads as that reference. -/
def conditionOf (r : Sdk V) (F : ObjectReference) : Option Condition :=
  (r.kptfile.conditions.filter fun c => getGVKNFromConditionType c.type = F).getLast?

/-- What `PopulateOwnResourcesFn` answers for a for-instance; where it is not called, no children. -/
def wanted (cfg : Config V) (r : Sdk V) (F : ObjectReference) :
    Except String (List (KubeObject V)) :=
  match cfg.populating.populateOwnResourcesFn, r.forObj F with
  | some populateOwn, some o => populateOwn F o
  | _, _ => .ok []

/-- The objects a for-instance wants. -/
def wantedObjs (cfg : Config V) (r : Sdk V) (F : ObjectReference) : List (KubeObject V) :=
  match r.wanted cfg F with
  | .ok objs => objs
  | .error _ => []

/-- The object a for-instance wants under a reference: the last one, with its owner set. -/
def wantedObj (cfg : Config V) (r : Sdk V) (F ref : ObjectReference) : Option (KubeObject V) :=
  ((r.wantedObjs cfg F).filter fun obj => obj.ref = ref).getLast?.map (owned F)

/-- The condition of a child of a for-instance, and the item. -/
def ownedCondition (r : Sdk V) (F ref : ObjectReference) : Option Condition :=
  (r.kptfile.conditions.filter fun c =>
    getGVKNFromConditionType c.type = ref ∧ getGVKNFromConditionType c.reason = F).getLast?

def ownedItem (r : Sdk V) (F ref : ObjectReference) : Option (KubeObject V) :=
  (r.items.filter fun o => o.ref = ref ∧ getGVKNFromConditionType o.owner = F).getLast?

/-- A for-instance has a child: a condition or an item of the child names it as the owner. -/
def Owns (r : Sdk V) (F ref : ObjectReference) : Prop :=
  r.inv.role ref = some .ownGVKKind ∧ r.inv.role F = some .forGVKKind ∧
    (ref, F) ∈ resourcesOf r.kptfile.conditions r.items

/-- A for-instance wants a child. -/
def Wants (cfg : Config V) (r : Sdk V) (F ref : ObjectReference) : Prop :=
  r.inv.role ref = some .ownGVKKind ∧ r.inv.role F = some .forGVKKind ∧
    ∃ obj ∈ r.wantedObjs cfg F, obj.ref = ref

/-- What the diff is given for a child. -/
def childCtx (cfg : Config V) (r : Sdk V) (F ref : ObjectReference) : ResourceCtx V where
  kindCtx :=
    if (r.ownedItem F ref).isSome || (r.wantedObj cfg F ref).isSome then r.inv.isGVKMatch ref
    else none
  existingCondition := r.ownedCondition F ref
  existingResource := r.ownedItem F ref
  newResource := r.wantedObj cfg F ref

/-- What the diff is given for a for-instance. -/
def forCtx (cfg : Config V) (r : Sdk V) (F : ObjectReference) : ResourceCtx V where
  kindCtx := (r.forObj F).bind fun o => r.inv.isGVKMatch o.ref
  existingCondition :=
    match r.wanted cfg F with
    | .ok _ => r.conditionOf F
    | .error err => some (forCondition F (populateFailedMsg err) .conditionFalse)
  existingResource := r.forObj F
  failed := !(r.wanted cfg F).isOk

/-- The inventory that the diff is taken of. -/
def stage1Inv (cfg : Config V) (ord : Order) (r : Sdk V) : Inv V :=
  populatedInv cfg.populating ord (r.filed cfg).inv

/-- The references of a package, and of the children its for-instances want, are in the documented
form, and condition types are distinct. Only what the function has a role for is looked at. -/
structure Documented (cfg : Config V) (r : Sdk V) : Prop where
  types : (Keyed.keys Condition.type r.kptfile.conditions).Nodup
  forItem : ∀ o ∈ r.items, r.inv.role o.ref = some .forGVKKind → o.ref.Documented
  forCondition : ∀ c ∈ r.kptfile.conditions,
    r.inv.role (getGVKNFromConditionType c.type) = some .forGVKKind → Written c.type
  ownItem : ∀ o ∈ r.items, r.inv.role o.ref = some .ownGVKKind →
    r.inv.role (getGVKNFromConditionType o.owner) = some .forGVKKind →
    o.ref.Documented ∧ Written o.owner
  ownCondition : ∀ c ∈ r.kptfile.conditions,
    r.inv.role (getGVKNFromConditionType c.type) = some .ownGVKKind →
    r.inv.role (getGVKNFromConditionType c.reason) = some .forGVKKind →
    Written c.type ∧ Written c.reason
  wanted : ∀ F, r.inv.role F = some .forGVKKind → ∀ obj ∈ r.wantedObjs cfg F,
    r.inv.role obj.ref = some .ownGVKKind → obj.ref.Documented

/-! ## Reading the filed inventory -/

section Filed

variable {cfg : Config V} {r : Sdk V}

theorem populateInventory_filed (cfg : Config V) (r : Sdk V) :
    populateInventory cfg r = .ok (r.filed cfg) := populateInventory_eq cfg r

@[simp] theorem role_filed (ref : ObjectReference) :
    (r.filed cfg).inv.role ref = r.inv.role ref := rfl

theorem ctxAt_filed (hfresh : r.inv.Fresh cfg) (p : List SdkObjectReference) :
    (r.filed cfg).inv.resources.ctxAt p =
      filedCtx cfg r.inv r.kptfile.conditions r.items p := by
  rw [← ctxAt_filings, ← hfresh.resources]
  rfl

theorem itemAt_for {F : ObjectReference} (hF : r.inv.role F = some .forGVKKind) :
    itemAt cfg r.inv r.kptfile.conditions r.items (forPath F) = r.forObj F := by
  refine congrArg List.getLast? (List.filter_congr fun o _ => decide_eq_decide.mpr ?_)
  exact placePath_eq_for.trans (and_iff_left hF)

theorem conditionAt_for {F : ObjectReference} (hF : r.inv.role F = some .forGVKKind) :
    conditionAt cfg r.inv r.kptfile.conditions (forPath F) = r.conditionOf F := by
  refine congrArg List.getLast? (List.filter_congr fun c _ => decide_eq_decide.mpr ?_)
  exact placePath_eq_for.trans (and_iff_left hF)

theorem itemAt_own {F ref : ObjectReference} (hF : r.inv.role F = some .forGVKKind)
    (href : r.inv.role ref = some .ownGVKKind) :
    itemAt cfg r.inv r.kptfile.conditions r.items (ownPath F ref) = r.ownedItem F ref := by
  refine congrArg List.getLast? (List.filter_congr fun o _ => decide_eq_decide.mpr ?_)
  refine placePath_eq_own.trans ?_
  simp only [hF, href, and_self, and_true]

theorem conditionAt_own {F ref : ObjectReference} (hF : r.inv.role F = some .forGVKKind)
    (href : r.inv.role ref = some .ownGVKKind) :
    conditionAt cfg r.inv r.kptfile.conditions (ownPath F ref) = r.ownedCondition F ref := by
  refine congrArg List.getLast? (List.filter_congr fun c _ => decide_eq_decide.mpr ?_)
  refine placePath_eq_own.trans ?_
  simp only [hF, href, and_self, and_true]

/-- A child is filed where a condition or an item names its owner. -/
theorem reached_own {F ref : ObjectReference} :
    Reached cfg r.inv r.kptfile.conditions r.items (ownPath F ref) ↔ r.Owns F ref := by
  constructor
  · rintro ⟨e, he, q, hq, hpre⟩
    have hq' : q = ownPath F ref := by
      rcases placePath_cases hq with ⟨-, rfl⟩ | ⟨-, -, rfl⟩ | ⟨-, -, rfl⟩ | ⟨-, F', -, -, rfl⟩ <;>
        simp only [ownPath, List.cons_prefix_cons, List.prefix_nil, reduceCtorEq, and_false,
          SdkObjectReference.mk.injEq, false_and, true_and, and_true] at hpre
      rw [hpre.1, hpre.2]
      rfl
    subst hq'
    obtain ⟨hobj, howner, href, hF⟩ := placePath_eq_own.mp hq
    refine ⟨href, hF, ?_⟩
    rw [← hobj, ← howner]
    exact he
  · rintro ⟨href, hF, he⟩
    exact ⟨_, he, _, placePath_eq_own.mpr ⟨rfl, rfl, href, hF⟩, List.prefix_refl _⟩

theorem populated_filed (hfresh : r.inv.Fresh cfg) {F : ObjectReference}
    (hF : r.inv.role F = some .forGVKKind) :
    populated cfg.populating (r.filed cfg).inv F = r.wanted cfg F := by
  unfold populated wanted
  rw [ctxAt_filed hfresh, ← itemAt_for hF]
  rfl

theorem desiredObj_filed (hfresh : r.inv.Fresh cfg) {F ref : ObjectReference}
    (hF : r.inv.role F = some .forGVKKind) :
    desiredObj cfg.populating (r.filed cfg).inv F ref = r.wantedObj cfg F ref := by
  have hwanted := populated_filed hfresh hF
  unfold desiredObj desired wantedObj wantedObjs
  generalize populated cfg.populating (r.filed cfg).inv F = found at hwanted ⊢
  subst hwanted
  cases r.wanted cfg F <;> rfl

end Filed

/-! ## Reading the inventory of the diff -/

section Stage1Inv

variable {cfg : Config V} {ord : Order} {r : Sdk V} (hfresh : r.inv.Fresh cfg)

/-- A for-instance is in the inventory: an item, a condition or a child of it is in the package, or
a watch is filed under it. -/
def ForInstance (cfg : Config V) (r : Sdk V) (F : ObjectReference) : Prop :=
  Reached cfg r.inv r.kptfile.conditions r.items (forPath F)

@[simp] theorem role_stage1Inv (ref : ObjectReference) :
    (stage1Inv cfg ord r).role ref = r.inv.role ref := rfl

include hfresh

theorem keysNodup_filed : (r.filed cfg).inv.resources.KeysNodup 2 := keysNodup_filings hfresh 2

theorem keysNodup_stage1Inv : (stage1Inv cfg ord r).resources.KeysNodup 2 :=
  TreeWrite.keysNodup_applyAll (keysNodup_filed hfresh) _

theorem isSome_filed {p : List SdkObjectReference} (hp : p ≠ []) :
    ((r.filed cfg).inv.resources.find p).isSome ↔
      Reached cfg r.inv r.kptfile.conditions r.items p := by
  rw [← isSome_find_filings hp, ← hfresh.resources]
  rfl

theorem isSome_filed_for {F : ObjectReference} :
    ((r.filed cfg).inv.resources.find (forPath F)).isSome ↔ r.ForInstance cfg F :=
  isSome_filed hfresh (List.cons_ne_nil _ _)

theorem isSome_filed_own {F ref : ObjectReference} :
    ((r.filed cfg).inv.resources.find (ownPath F ref)).isSome ↔ r.Owns F ref :=
  (isSome_filed hfresh (List.cons_ne_nil _ _)).trans reached_own

theorem isSome_stage1_for {F : ObjectReference} :
    ((stage1Inv cfg ord r).resources.find (forPath F)).isSome ↔ r.ForInstance cfg F := by
  rw [stage1Inv, isSome_populate_for (keysNodup_filed hfresh), isSome_filed_for hfresh]

theorem ForInstance.role {F : ObjectReference} (h : r.ForInstance cfg F) :
    r.inv.role F = some .forGVKKind := ((reached_for hfresh).mp h).1

/-- A for-instance that wants a child has an object in the package. -/
theorem forInstance_of_forObj {F : ObjectReference} {o : KubeObject V} (h : r.forObj F = some o)
    (hF : r.inv.role F = some .forGVKKind) : r.ForInstance cfg F := by
  have hmem := List.mem_filter.mp (List.mem_of_getLast? h)
  refine (reached_for hfresh).mpr ⟨hF, (o.ref, getGVKNFromConditionType o.owner), ?_,
    Or.inl (of_decide_eq_true hmem.2)⟩
  exact List.mem_append_right _ (List.mem_map_of_mem hmem.1)

omit hfresh in
theorem exists_forObj_of_mem_wantedObjs {F : ObjectReference} {obj : KubeObject V}
    (h : obj ∈ r.wantedObjs cfg F) : ∃ o, r.forObj F = some o := by
  unfold wantedObjs wanted at h
  cases hobj : r.forObj F with
  | none =>
    cases hfn : cfg.populating.populateOwnResourcesFn <;> simp only [hobj, hfn] at h <;> cases h
  | some o => exact ⟨o, rfl⟩

omit hfresh in
theorem isSome_wantedObj {F ref : ObjectReference} :
    (r.wantedObj cfg F ref).isSome ↔ ∃ obj ∈ r.wantedObjs cfg F, obj.ref = ref := by
  simp only [wantedObj, Option.isSome_map, List.getLast?_isSome, ne_eq, List.filter_eq_nil_iff,
    decide_eq_true_eq, not_forall, not_not, exists_prop]

/-- A child in the inventory has the own role, and its for-instance the for role. -/
theorem roles_of_isSome_own {F ref : ObjectReference}
    (h : ((stage1Inv cfg ord r).resources.find (ownPath F ref)).isSome) :
    r.inv.role ref = some .ownGVKKind ∧ r.inv.role F = some .forGVKKind := by
  rw [stage1Inv, populatedInv, Inv.resources_write, TreeWrite.isSome_find_applyAll,
    isSome_filed_own hfresh] at h
  rcases h with ⟨href, hF, -⟩ | ⟨w, hw, hreach⟩
  · exact ⟨href, hF⟩
  · obtain ⟨⟨F', res⟩, he, hw⟩ := List.mem_flatMap.mp hw
    obtain ⟨rfl, href⟩ := reaches_populateForScript hw hreach
    refine ⟨href, ForInstance.role hfresh ?_⟩
    have hfind := (mem_range_for (keysNodup_filed hfresh)).mp he
    refine (isSome_filed_for hfresh).mp ?_
    rw [hfind]
    rfl

/-- **Which children are in the inventory**: those that a for-instance has or wants. -/
theorem isSome_stage1_own {F ref : ObjectReference} :
    ((stage1Inv cfg ord r).resources.find (ownPath F ref)).isSome ↔
      r.Owns F ref ∨ r.Wants cfg F ref := by
  by_cases hroles : r.inv.role ref = some .ownGVKKind ∧ r.inv.role F = some .forGVKKind
  · obtain ⟨href, hF⟩ := hroles
    rw [stage1Inv, isSome_populate_own (keysNodup_filed hfresh) href,
      isSome_filed_own hfresh, desiredObj_filed hfresh hF, isSome_wantedObj,
      isSome_filed_for hfresh]
    refine or_congr_right ⟨fun h => ⟨href, hF, h.2⟩, fun h => ⟨?_, h.2.2⟩⟩
    obtain ⟨-, -, obj, hobj, -⟩ := h
    obtain ⟨o, ho⟩ := exists_forObj_of_mem_wantedObjs hobj
    exact forInstance_of_forObj hfresh ho hF
  · refine iff_of_false (fun h => hroles (roles_of_isSome_own hfresh h)) ?_
    rintro (⟨href, hF, -⟩ | ⟨href, hF, -⟩)
    · exact hroles ⟨href, hF⟩
    · exact hroles ⟨href, hF⟩

theorem ctxAt_stage1_own {F ref : ObjectReference} (href : r.inv.role ref = some .ownGVKKind)
    (hF : r.ForInstance cfg F) :
    (stage1Inv cfg ord r).resources.ctxAt (ownPath F ref) = r.childCtx cfg F ref := by
  have hrole := ForInstance.role hfresh hF
  rw [stage1Inv, ctxAt_populate_own (keysNodup_filed hfresh)
    ((isSome_filed_for hfresh).mpr hF) href, desiredObj_filed hfresh hrole,
    ctxAt_filed hfresh]
  simp only [filedCtx, itemAt_own hrole href, conditionAt_own hrole href, childCtx]
  cases hnew : r.wantedObj cfg F ref with
  | some o => simp only [Option.isSome_some, Bool.or_true, if_true]; rfl
  | none =>
    cases hitem : r.ownedItem F ref with
    | none => rfl
    | some o =>
      have ho : o.ref = ref := (of_decide_eq_true (List.mem_filter.mp
        (List.mem_of_getLast? hitem)).2).1
      simp only [Option.bind_some, ho, Option.isSome_some, Bool.true_or, if_true]

/-- **What the inventory holds for a child.** -/
theorem find_stage1_own {F ref : ObjectReference} {res : ResourceCtx V} :
    (stage1Inv cfg ord r).resources.find (ownPath F ref) = some res ↔
      (r.Owns F ref ∨ r.Wants cfg F ref) ∧ res = r.childCtx cfg F ref := by
  rw [Resources.find_eq_some_iff, isSome_stage1_own hfresh]
  refine and_congr_right fun h => ?_
  have hsome : ((stage1Inv cfg ord r).resources.find (ownPath F ref)).isSome :=
    (isSome_stage1_own hfresh).mpr h
  rw [ctxAt_stage1_own hfresh (roles_of_isSome_own hfresh hsome).1
    ((isSome_stage1_for hfresh).mp (isSome_for_of_own hsome))]

omit hfresh in
theorem mem_resourcesOf {cs : List Condition} {os : List (KubeObject V)}
    {ref owner : ObjectReference} :
    (ref, owner) ∈ resourcesOf cs os ↔
      (∃ c ∈ cs, getGVKNFromConditionType c.type = ref ∧
        getGVKNFromConditionType c.reason = owner) ∨
      ∃ o ∈ os, o.ref = ref ∧ getGVKNFromConditionType o.owner = owner := by
  simp only [resourcesOf, List.mem_append, List.mem_map, Prod.mk.injEq]

omit hfresh in
theorem exists_forObj_of_wanted_error {F : ObjectReference} {err : String}
    (h : r.wanted cfg F = .error err) : ∃ o, r.forObj F = some o := by
  unfold wanted at h
  cases hobj : r.forObj F with
  | none =>
    cases hfn : cfg.populating.populateOwnResourcesFn <;> simp only [hobj, hfn] at h <;> cases h
  | some o => exact ⟨o, rfl⟩

section Documented

variable (hdoc : r.Documented cfg)

include hdoc

omit hfresh in
theorem Documented.forObj {F : ObjectReference} {o : KubeObject V} (h : r.forObj F = some o)
    (hF : r.inv.role F = some .forGVKKind) : F.Documented := by
  obtain ⟨hmem, href⟩ := List.mem_filter.mp (List.mem_of_getLast? h)
  have href' : o.ref = F := of_decide_eq_true href
  rw [← href']
  exact hdoc.forItem o hmem (href' ▸ hF)

/-- What the inventory holds for a for-instance. -/
theorem ctxAt_stage1_for {F : ObjectReference} (hF : r.ForInstance cfg F) :
    (stage1Inv cfg ord r).resources.ctxAt (forPath F) = r.forCtx cfg F := by
  have hrole := ForInstance.role hfresh hF
  rw [stage1Inv, ctxAt_populate_for (keysNodup_filed hfresh) ((isSome_filed_for hfresh).mpr hF),
    populated_filed hfresh hrole, ctxAt_filed hfresh]
  simp only [filedCtx, itemAt_for hrole, conditionAt_for hrole, forCtx]
  cases hwanted : r.wanted cfg F with
  | ok objs => rfl
  | error err =>
    obtain ⟨o, ho⟩ := exists_forObj_of_wanted_error hwanted
    simp only [(hdoc.forObj ho hrole).named, if_true]
    rfl

theorem find_stage1_for {F : ObjectReference} {res : ResourceCtx V} :
    (stage1Inv cfg ord r).resources.find (forPath F) = some res ↔
      r.ForInstance cfg F ∧ res = r.forCtx cfg F := by
  rw [Resources.find_eq_some_iff, isSome_stage1_for hfresh]
  exact and_congr_right fun h => by rw [ctxAt_stage1_for hfresh hdoc h]

omit hfresh in
/-- A child that a for-instance has or wants is documented, and so is the for-instance. -/
theorem Documented.child {F ref : ObjectReference} (h : r.Owns F ref ∨ r.Wants cfg F ref) :
    F.Documented ∧ ref.Documented := by
  rcases h with ⟨href, hF, hmem⟩ | ⟨href, hF, obj, hobj, rfl⟩
  · rcases mem_resourcesOf.mp hmem with ⟨c, hc, rfl, rfl⟩ | ⟨o, ho, rfl, rfl⟩
    · obtain ⟨htype, hreason⟩ := hdoc.ownCondition c hc href hF
      exact ⟨hreason.documented, htype.documented⟩
    · obtain ⟨horef, howner⟩ := hdoc.ownItem o ho href hF
      exact ⟨howner.documented, horef⟩
  · obtain ⟨o, ho⟩ := exists_forObj_of_mem_wantedObjs hobj
    exact ⟨hdoc.forObj ho hF, hdoc.wanted F hF obj hobj href⟩

/-- A for-instance is documented, or a watch was filed under it and it has no name. -/
theorem Documented.forInstance {F : ObjectReference} (h : r.ForInstance cfg F) :
    F.Documented ∨ F.name = "" := by
  have hwritten : ∀ c ∈ r.kptfile.conditions, getGVKNFromConditionType c.type = F →
      r.inv.role F = some .forGVKKind → F.Documented := by
    rintro c hc rfl hF
    exact (hdoc.forCondition c hc hF).documented
  obtain ⟨hF, ⟨ref, owner⟩, hmem, hobj | ⟨href, howner⟩ | ⟨href, hpath⟩⟩ := (reached_for hfresh).mp h
  · left
    simp only at hobj
    rcases mem_resourcesOf.mp hmem with ⟨c, hc, htype, -⟩ | ⟨o, ho, href, -⟩
    · exact hwritten c hc (htype.trans hobj) hF
    · rw [← hobj, ← href]
      exact hdoc.forItem o ho (by rw [href, hobj]; exact hF)
  · left
    simp only at howner href
    exact (hdoc.child (Or.inl ⟨href, hF, howner ▸ hmem⟩)).1
  · -- a watch: the name is that of a for condition, or empty
    rw [watchPath_owners] at hpath
    simp only at hpath
    cases hx : lookedUp (forOwners r.inv r.kptfile.conditions) ref owner with
    | none =>
      rw [hx] at hpath
      simp only at hpath
      split_ifs at hpath
      cases hpath
    | some x =>
      rw [hx] at hpath
      simp only [Option.some.injEq, List.cons.injEq, and_true, forName_owners] at hpath
      cases hnamed : forNamed (forOwners r.inv r.kptfile.conditions) x.name with
      | none =>
        right
        rw [← hpath, hnamed]
        rfl
      | some F' =>
        left
        obtain ⟨hrole', c, hc, hdecode⟩ := exists_of_forNamed hnamed
        have hgvk := (hfresh.role_for F').mp hrole'
        have hFF' : F' = F := by
          rw [← hpath, hnamed]
          simp only [ObjectReference.gvk, ObjectReference.mk.injEq] at hgvk
          simp only [Option.map_some, Option.getD_some, ← hgvk.1, ← hgvk.2.1]
        exact hwritten c hc (hdecode.trans hFF') hF

/-- **The inventory of the diff is well formed.** -/
theorem documented_stage1Inv : (stage1Inv cfg ord r).Documented where
  keys := keysNodup_stage1Inv hfresh
  fors F hF hnamed := by
    have hF' := (isSome_stage1_for hfresh).mp hF
    rcases hdoc.forInstance hfresh hF' with hFdoc | hname
    · exact ⟨hFdoc, ForInstance.role hfresh hF'⟩
    · exact absurd hname hnamed.2.2
  owns F ref h := by
    obtain ⟨hFdoc, hrefdoc⟩ := hdoc.child ((isSome_stage1_own hfresh).mp h)
    exact ⟨hFdoc, hrefdoc, (roles_of_isSome_own hfresh h).1⟩
  refs F ref res hres o ho := by
    obtain ⟨-, rfl⟩ := (find_stage1_own hfresh).mp hres
    rcases ho with ho | ho
    · exact (of_decide_eq_true (List.mem_filter.mp (List.mem_of_getLast? ho)).2).1
    · obtain ⟨obj, hobj, rfl⟩ := Option.map_eq_some_iff.mp ho
      exact of_decide_eq_true (List.mem_filter.mp (List.mem_of_getLast? hobj)).2

end Documented

end Stage1Inv

/-! ## Deciding well-formedness

The definitions above quantify over all references, but only those of the package matter. -/

section Decide

variable {cfg : Config V} {r : Sdk V}

instance (F ref : ObjectReference) : Decidable (r.Owns F ref) :=
  inferInstanceAs (Decidable (_ ∧ _ ∧ _))

instance (F ref : ObjectReference) : Decidable (r.Wants cfg F ref) :=
  inferInstanceAs (Decidable (_ ∧ _ ∧ _))

theorem mem_of_forObj {F : ObjectReference} {o : KubeObject V} (h : r.forObj F = some o) :
    o ∈ r.items ∧ o.ref = F := by
  obtain ⟨hmem, heq⟩ := List.mem_filter.mp (List.mem_of_getLast? h)
  exact ⟨hmem, of_decide_eq_true heq⟩

/-- Every for-instance with every child it has or wants. -/
def family (cfg : Config V) (r : Sdk V) : List (ObjectReference × ObjectReference) :=
  ((resourcesOf r.kptfile.conditions r.items).map Prod.swap ++
    r.items.flatMap fun o => (r.wantedObjs cfg o.ref).map fun obj => (o.ref, obj.ref)).filter
      fun e => r.Owns e.1 e.2 ∨ r.Wants cfg e.1 e.2

theorem mem_family {F ref : ObjectReference} :
    (F, ref) ∈ r.family cfg ↔ r.Owns F ref ∨ r.Wants cfg F ref := by
  simp only [family, List.mem_filter, decide_eq_true_eq, and_iff_right_iff_imp, List.mem_append]
  rintro (⟨-, -, hmem⟩ | ⟨-, -, obj, hobj, rfl⟩)
  · exact Or.inl (List.mem_map.mpr ⟨(ref, F), hmem, rfl⟩)
  · obtain ⟨o, ho⟩ := exists_forObj_of_mem_wantedObjs hobj
    obtain ⟨hmem, rfl⟩ := mem_of_forObj ho
    exact Or.inr (List.mem_flatMap.mpr ⟨o, hmem, List.mem_map.mpr ⟨obj, hobj, rfl⟩⟩)

instance : Decidable (r.Documented cfg) :=
  decidable_of_iff
    ((Keyed.keys Condition.type r.kptfile.conditions).Nodup ∧
      (∀ o ∈ r.items, r.inv.role o.ref = some .forGVKKind → o.ref.Documented) ∧
      (∀ c ∈ r.kptfile.conditions,
        r.inv.role (getGVKNFromConditionType c.type) = some .forGVKKind → Written c.type) ∧
      (∀ o ∈ r.items, r.inv.role o.ref = some .ownGVKKind →
        r.inv.role (getGVKNFromConditionType o.owner) = some .forGVKKind →
        o.ref.Documented ∧ Written o.owner) ∧
      (∀ c ∈ r.kptfile.conditions,
        r.inv.role (getGVKNFromConditionType c.type) = some .ownGVKKind →
        r.inv.role (getGVKNFromConditionType c.reason) = some .forGVKKind →
        Written c.type ∧ Written c.reason) ∧
      ∀ o ∈ r.items, r.inv.role o.ref = some .forGVKKind → ∀ obj ∈ r.wantedObjs cfg o.ref,
        r.inv.role obj.ref = some .ownGVKKind → obj.ref.Documented) <| by
    constructor
    · rintro ⟨htypes, hforItem, hforCondition, hownItem, hownCondition, hwanted⟩
      refine ⟨htypes, hforItem, hforCondition, hownItem, hownCondition, ?_⟩
      intro F hF obj hobj
      obtain ⟨o, ho⟩ := exists_forObj_of_mem_wantedObjs hobj
      obtain ⟨hmem, rfl⟩ := mem_of_forObj ho
      exact hwanted o hmem hF obj hobj
    · intro h
      exact ⟨h.types, h.forItem, h.forCondition, h.ownItem, h.ownCondition,
        fun o _ hF => h.wanted o.ref hF⟩

end Decide

end Sdk

end Nephio.CondKptSdk
