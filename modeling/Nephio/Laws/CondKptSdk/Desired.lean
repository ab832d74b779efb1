import Nephio.Laws.CondKptSdk.Reconcile

/-!
# Laws.CondKptSdk.Desired: actual and desired children

Stage 1 is there to bring the children a for-instance has in line with those it wants.
`stage1_reconciles` says to what extent it does, kind by kind.
-/

namespace Nephio.CondKptSdk

variable {V : Type}

/-- The kind that the configuration gives the children of a reference. -/
def Inv.ownKindOf (inv : Inv V) (ref : ObjectReference) : Option ResourceKind :=
  (inv.isGVKMatch ref).bind GvkKindCtx.ownKind

namespace Sdk

/-! ## The views of one child -/

section Child

variable {cfg : Config V} {r : Sdk V} {F ref : ObjectReference}

theorem ownKind_childCtx (h : (r.ownedItem F ref).isSome ∨ (r.wantedObj cfg F ref).isSome) :
    (r.childCtx cfg F ref).ownKind = r.inv.ownKindOf ref := by
  simp only [ResourceCtx.ownKind, childCtx, Bool.or_eq_true, h, if_true, Inv.ownKindOf]

theorem mem_of_ownedItem {o : KubeObject V} (h : r.ownedItem F ref = some o) :
    o ∈ r.items ∧ o.ref = ref ∧ getGVKNFromConditionType o.owner = F := by
  obtain ⟨hmem, heq⟩ := List.mem_filter.mp (List.mem_of_getLast? h)
  exact ⟨hmem, of_decide_eq_true heq⟩

theorem mem_of_ownedCondition {c : Condition} (h : r.ownedCondition F ref = some c) :
    c ∈ r.kptfile.conditions ∧ getGVKNFromConditionType c.type = ref ∧
      getGVKNFromConditionType c.reason = F := by
  obtain ⟨hmem, heq⟩ := List.mem_filter.mp (List.mem_of_getLast? h)
  exact ⟨hmem, of_decide_eq_true heq⟩

/-- Where references are distinct, the item of a child is the item of its reference. -/
theorem ownedItem_of_mem (hrefs : (Keyed.keys KubeObject.ref r.items).Nodup) {o : KubeObject V}
    (ho : o ∈ r.items) (howner : getGVKNFromConditionType o.owner = F) :
    r.ownedItem F o.ref = some o := by
  have hfilter : r.items.filter (fun o' => o'.ref = o.ref ∧
      getGVKNFromConditionType o'.owner = F) = [o] := by
    have hone := Keyed.filter_key_eq KubeObject.ref hrefs ho
    have hand : ∀ o' : KubeObject V, decide (o'.ref = o.ref ∧ getGVKNFromConditionType o'.owner = F) =
        (decide (getGVKNFromConditionType o'.owner = F) && decide (o'.ref = o.ref)) := by
      intro o'
      rw [Bool.and_comm, Bool.decide_and]
    simp only [hand]
    rw [← List.filter_filter, hone, List.filter_cons_of_pos (by simpa using howner)]
    rfl
  rw [ownedItem, hfilter]
  rfl

/-- The object wanted under a reference, where the wanted references are distinct. -/
theorem wantedObj_of_mem {D : List (KubeObject V)} (hD : r.wanted cfg F = .ok D)
    (hnodup : (Keyed.keys KubeObject.ref D).Nodup) {d : KubeObject V} (hd : d ∈ D) :
    r.wantedObj cfg F d.ref = some (owned F d) := by
  simp only [wantedObj, wantedObjs, hD, Keyed.filter_key_eq KubeObject.ref hnodup hd,
    List.getLast?_singleton, Option.map_some]

theorem wantedObj_eq_none {D : List (KubeObject V)} (hD : r.wanted cfg F = .ok D)
    (href : ref ∉ D.map KubeObject.ref) : r.wantedObj cfg F ref = none := by
  rw [← Option.not_isSome_iff_eq_none, isSome_wantedObj]
  simp only [wantedObjs, hD]
  rintro ⟨obj, hobj, rfl⟩
  exact href (List.mem_map_of_mem hobj)

/-- The owner annotation reads back. -/
@[simp] theorem owner_owned (F : ObjectReference) (d : KubeObject V) :
    (owned F d).owner = getConditionType F := by
  simp only [owned, KubeObject.owner, KubeObject.getAnnotation, KubeObject.setAnnotation,
    Keyed.lookup_upsert, if_true, Option.map_some, Option.getD_some]

/-- The condition of a child is the one the Kptfile holds under its type. -/
theorem lookup_of_ownedCondition (hdoc : r.Documented cfg)
    (href : r.inv.role ref = some .ownGVKKind) (hF : r.inv.role F = some .forGVKKind)
    {c : Condition} (h : r.ownedCondition F ref = some c) :
    Keyed.lookup Condition.type (getConditionType ref) r.kptfile.conditions = some c ∧
      c.type = getConditionType ref ∧ c.reason = getConditionType F := by
  obtain ⟨hmem, htype, hreason⟩ := mem_of_ownedCondition h
  obtain ⟨hwtype, hwreason⟩ := hdoc.ownCondition c hmem (htype ▸ href) (hreason ▸ hF)
  have htype' : c.type = getConditionType ref := by rw [← hwtype.eq, htype]
  refine ⟨?_, htype', by rw [← hwreason.eq, hreason]⟩
  rw [← htype']
  exact Keyed.lookup_of_mem Condition.type hdoc.types hmem

/-- An item that names a for-instance of the package as its owner is a child of it. -/
theorem Documented.owns_of_mem (hdoc : r.Documented cfg) (hobj : (r.forObj F).isSome)
    (hF : r.inv.role F = some .forGVKKind) {o : KubeObject V} (ho : o ∈ r.items)
    (href : r.inv.role o.ref = some .ownGVKKind) (howner : o.owner = getConditionType F) :
    getGVKNFromConditionType o.owner = F ∧ r.Owns F o.ref := by
  obtain ⟨forObj, hforObj⟩ := Option.isSome_iff_exists.mp hobj
  have hdecode : getGVKNFromConditionType o.owner = F := by
    rw [howner, (hdoc.forObj hforObj hF).decode]
  exact ⟨hdecode, href, hF, mem_resourcesOf.mpr (Or.inr ⟨o, ho, rfl, hdecode⟩)⟩

end Child

/-- A child that is to be unmarked is there, marked, and is wanted. -/
theorem of_unmarks {res : ResourceCtx V} (h : unmarks res) :
    ∃ o new, res.existingResource = some o ∧ res.newResource = some new ∧ o.marked := by
  unfold unmarks at h
  split at h
  · next o new ho hnew =>
    simp only [Bool.and_eq_true] at h
    exact ⟨o, new, ho, hnew, h.2⟩
  · cases h

/-- A wanted child ends with a condition that names its for-instance, if the one it has does. -/
theorem outcome_of_wanted [DecidableEq V] {F ref : ObjectReference} {res : ResourceCtx V}
    {held : Option Condition} (hnew : res.newResource.isSome)
    (hheld : ∀ c, res.existingCondition = some c →
      held = some c ∧ c.reason = getConditionType F) :
    ∃ c, outcome F ref res held = some c ∧ c.reason = getConditionType F := by
  obtain ⟨new, hnew⟩ := Option.isSome_iff_exists.mp hnew
  simp only [outcome, hnew]
  split_ifs with hcreate hupdate hcondition
  · exact ⟨_, rfl, rfl⟩
  · exact ⟨_, rfl, rfl⟩
  · exact ⟨_, rfl, rfl⟩
  · cases hc : res.existingCondition with
    | none => exact absurd (by rw [hc]; rfl) hcondition
    | some c => exact ⟨c, hheld c hc⟩

/-! ## Reconciled children -/

/-- The children of `F` in `r₁` are in line with the list `D` that it wants, starting from `r`. -/
structure Reconciled (r : Sdk V) (F : ObjectReference) (D : List (KubeObject V)) (r₁ : Sdk V) :
    Prop where
  /-- Wanted children that the sdk writes are there as wanted. -/
  written : ∀ d ∈ D, r.inv.role d.ref = some .ownGVKKind → writtenKind (r.inv.ownKindOf d.ref) →
    ∃ o ∈ r₁.items, o.ref = d.ref ∧ o.spec = d.spec ∧ o.owner = getConditionType F
  /-- Wanted children have a condition. -/
  conditions : ∀ d ∈ D, r.inv.role d.ref = some .ownGVKKind →
    ∃ c ∈ r₁.kptfile.conditions, c.type = getConditionType d.ref ∧ c.reason = getConditionType F
  /-- Children that are not wanted and not kept are marked for deletion. -/
  marked : ∀ o ∈ r.items, r.inv.role o.ref = some .ownGVKKind → o.owner = getConditionType F →
    o.ref ∉ D.map KubeObject.ref → ¬ keptKind (r.inv.ownKindOf o.ref) →
    mark o ∈ r₁.items ∧ (∀ o' ∈ r₁.items, o'.ref = o.ref → o' = mark o) ∧
      ∃ c ∈ r₁.kptfile.conditions, c.type = getConditionType o.ref ∧ c.status = .conditionFalse ∧
        c.reason = getConditionType F
  /-- Children that are not wanted but kept are as they were. -/
  kept : ∀ o ∈ r.items, r.inv.role o.ref = some .ownGVKKind → o.owner = getConditionType F →
    o.ref ∉ D.map KubeObject.ref → keptKind (r.inv.ownKindOf o.ref) →
    o ∈ r₁.items ∧ ∀ o' ∈ r₁.items, o'.ref = o.ref → o' = o

/-- Readable specs that are compared and do not differ are the same. -/
theorem spec_eq_of_not_specChanged [DecidableEq V] {res : ResourceCtx V} {o new : KubeObject V}
    (ho : res.existingResource = some o) (hnew : res.newResource = some new)
    (hkind : writtenKind res.ownKind) (h : ¬ specChanged res) (hspec : o.spec.isSome)
    (hspec' : new.spec.isSome) : o.spec = new.spec := by
  obtain ⟨a, ha⟩ := Option.isSome_iff_exists.mp hspec
  obtain ⟨b, hb⟩ := Option.isSome_iff_exists.mp hspec'
  have hremote : res.ownKind ≠ some .childRemoteCondition := by
    intro heq
    rw [heq] at hkind
    cases hkind
  simp only [specChanged, ho, hnew, ha, hb, specsDiffer, ne_eq, hremote, not_false_eq_true,
    decide_true, Bool.true_and, decide_eq_true_eq, not_not] at h
  rw [ha, hb, h]

section Reconciles

variable [DecidableEq V] {cfg : Config V} {ord : Order} {r r₁ : Sdk V}
  (hfresh : r.inv.Fresh cfg) (hdoc : r.Documented cfg) (hdisj : r.Disjoint cfg)
  (h : (r.filed cfg).stage1 cfg ord = .ok r₁) {F ref : ObjectReference}
  (hobj : (r.forObj F).isSome)

include hfresh hdoc hdisj h hobj

/-- The condition of a child of a for-instance in the package. -/
theorem lookup_stage1_present (hown : r.Owns F ref ∨ r.Wants cfg F ref) :
    Keyed.lookup Condition.type (getConditionType ref) r₁.kptfile.conditions =
      outcome F ref (r.childCtx cfg F ref)
        (Keyed.lookup Condition.type (getConditionType ref) r.kptfile.conditions) := by
  have hpresent : (r.forCtx cfg F).existingResource.isSome := hobj
  rw [lookup_stage1_own hfresh hdoc h (hdisj.only hown) hown, childOutcome, if_pos hpresent]

/-- The items under the reference of a child of a for-instance in the package. -/
theorem items_stage1_present (hown : r.Owns F ref ∨ r.Wants cfg F ref) :
    r₁.items.filter (fun o => o.ref = ref) =
      Keyed.upsertAll KubeObject.id (outcomeItem (r.childCtx cfg F ref)).toList
        (r.items.filter fun o => o.ref = ref) := by
  have hpresent : (r.forCtx cfg F).existingResource.isSome := hobj
  rw [items_stage1_own hfresh hdoc h (hdisj.only hown) hown, childItem, if_pos hpresent]

theorem condition_of_wanted (hwants : r.Wants cfg F ref) :
    ∃ c ∈ r₁.kptfile.conditions, c.type = getConditionType ref ∧ c.reason = getConditionType F := by
  obtain ⟨href, hF, hmem⟩ := hwants
  have hlookup := lookup_stage1_present hfresh hdoc hdisj h hobj (Or.inr ⟨href, hF, hmem⟩)
  obtain ⟨c, hc, hreason⟩ := @outcome_of_wanted V _ F ref (r.childCtx cfg F ref)
    (Keyed.lookup Condition.type (getConditionType ref) r.kptfile.conditions)
    (isSome_wantedObj.mpr hmem) fun c hc => by
      obtain ⟨hlookup, -, hreason⟩ := lookup_of_ownedCondition hdoc href hF hc
      exact ⟨hlookup, hreason⟩
  rw [hc] at hlookup
  exact ⟨c, Keyed.mem_of_lookup _ hlookup, Keyed.key_of_lookup _ hlookup, hreason⟩

/-- A wanted child that the sdk writes is there as wanted, where the one there is has a spec. -/
theorem item_of_wanted {D : List (KubeObject V)} (hD : r.wanted cfg F = .ok D)
    (hnodup : (Keyed.keys KubeObject.ref D).Nodup) {d : KubeObject V} (hd : d ∈ D)
    (hspec : d.spec.isSome) (hwants : r.Wants cfg F d.ref)
    (hexisting : ∀ o ∈ r.items, o.ref = d.ref → o.spec.isSome)
    (hkind : writtenKind (r.inv.ownKindOf d.ref)) :
    ∃ o ∈ r₁.items, o.ref = d.ref ∧ o.spec = d.spec ∧ o.owner = getConditionType F := by
  have hitems := items_stage1_present hfresh hdoc hdisj h hobj (Or.inr hwants)
  have hnew : (r.childCtx cfg F d.ref).newResource = some (owned F d) :=
    wantedObj_of_mem hD hnodup hd
  have hkind' : writtenKind (r.childCtx cfg F d.ref).ownKind := by
    rw [ownKind_childCtx (Or.inr (by rw [wantedObj_of_mem hD hnodup hd]; rfl))]
    exact hkind
  by_cases hwrites : (r.childCtx cfg F d.ref).existingResource.isNone ∨
      specChanged (r.childCtx cfg F d.ref) ∨ unmarks (r.childCtx cfg F d.ref)
  · have hitem : outcomeItem (r.childCtx cfg F d.ref) = some (owned F d) := by
      simp only [outcomeItem, hnew, hkind', Bool.true_and, Bool.or_eq_true, or_assoc, hwrites,
        if_true]
    rw [hitem] at hitems
    refine ⟨owned F d, ?_, rfl, rfl, owner_owned F d⟩
    refine List.mem_of_mem_filter (p := fun o => o.ref = d.ref) ?_
    rw [hitems]
    exact Keyed.mem_upsert_self _ _ _
  · -- nothing is written: the item there is has the wanted spec already
    have hitem : outcomeItem (r.childCtx cfg F d.ref) = none := by
      simp only [outcomeItem, hnew, hkind', Bool.true_and, Bool.or_eq_true, or_assoc, hwrites,
        if_false]
    rw [not_or, not_or] at hwrites
    cases ho : r.ownedItem F d.ref with
    | none => exact absurd (show (r.ownedItem F d.ref).isNone by rw [ho]; rfl) hwrites.1
    | some o =>
      obtain ⟨hmem, href, howner⟩ := mem_of_ownedItem ho
      have hrole : r.inv.role o.ref = some .ownGVKKind := href ▸ hwants.1
      obtain ⟨-, hwritten⟩ := hdoc.ownItem o hmem hrole (howner ▸ hwants.2.1)
      refine ⟨o, ?_, href, ?_, by rw [← hwritten.eq, howner]⟩
      · refine List.mem_of_mem_filter (p := fun o => o.ref = d.ref) ?_
        rw [hitems, hitem]
        exact List.mem_filter.mpr ⟨hmem, decide_eq_true href⟩
      · have hsame : o.spec = (owned F d).spec :=
          spec_eq_of_not_specChanged ho hnew hkind' hwrites.2.1 (hexisting o hmem href) hspec
        exact hsame

/-- The item of a child that is not wanted, after stage 1: marked, or kept. -/
theorem items_of_unwanted (hrefs : (Keyed.keys KubeObject.ref r.items).Nodup)
    (hF : r.inv.role F = some .forGVKKind) {D : List (KubeObject V)}
    (hD : r.wanted cfg F = .ok D) {o : KubeObject V} (ho : o ∈ r.items)
    (href : r.inv.role o.ref = some .ownGVKKind) (howner : o.owner = getConditionType F)
    (hnot : o.ref ∉ D.map KubeObject.ref) :
    r₁.items.filter (fun o' => o'.ref = o.ref) =
      [if keptKind (r.inv.ownKindOf o.ref) then o else mark o] := by
  obtain ⟨hdecode, howns⟩ := hdoc.owns_of_mem hobj hF ho href howner
  have hitem := ownedItem_of_mem hrefs ho hdecode
  have hkind : (r.childCtx cfg F o.ref).ownKind = r.inv.ownKindOf o.ref :=
    ownKind_childCtx (Or.inl (by rw [hitem]; rfl))
  have hnew : (r.childCtx cfg F o.ref).newResource = none := wantedObj_eq_none hD hnot
  have hexisting : (r.childCtx cfg F o.ref).existingResource = some o := hitem
  rw [items_stage1_present hfresh hdoc hdisj h hobj (Or.inl howns),
    Keyed.filter_key_eq KubeObject.ref hrefs ho]
  simp only [outcomeItem, hnew, hkind, hexisting]
  split_ifs
  · rfl
  · -- the marked object has the identity of the item, and replaces it
    have hid : o.id = (mark o).id := rfl
    simp only [Option.map_some, Option.toList_some, Keyed.upsertAll, List.foldl_cons,
      List.foldl_nil, Keyed.upsert, hid, if_true]

/-- A child that is not wanted and not kept ends with a False condition. -/
theorem condition_of_unwanted (hrefs : (Keyed.keys KubeObject.ref r.items).Nodup)
    (hF : r.inv.role F = some .forGVKKind) {D : List (KubeObject V)}
    (hD : r.wanted cfg F = .ok D) {o : KubeObject V} (ho : o ∈ r.items)
    (href : r.inv.role o.ref = some .ownGVKKind) (howner : o.owner = getConditionType F)
    (hnot : o.ref ∉ D.map KubeObject.ref) (hkept : ¬ keptKind (r.inv.ownKindOf o.ref)) :
    ∃ c ∈ r₁.kptfile.conditions, c.type = getConditionType o.ref ∧ c.status = .conditionFalse ∧
      c.reason = getConditionType F := by
  obtain ⟨hdecode, howns⟩ := hdoc.owns_of_mem hobj hF ho href howner
  have hitem := ownedItem_of_mem hrefs ho hdecode
  have hkind : (r.childCtx cfg F o.ref).ownKind = r.inv.ownKindOf o.ref :=
    ownKind_childCtx (Or.inl (by rw [hitem]; rfl))
  have hnew : (r.childCtx cfg F o.ref).newResource = none := wantedObj_eq_none hD hnot
  have hexisting : (r.childCtx cfg F o.ref).existingResource = some o := hitem
  have hlookup := lookup_stage1_present hfresh hdoc hdisj h hobj (Or.inl howns)
  simp only [outcome, hnew, hkind, hexisting, Option.isSome_some, Bool.true_and,
    Bool.not_eq_true'] at hlookup
  rw [if_pos (by simpa using hkept)] at hlookup
  exact ⟨_, Keyed.mem_of_lookup _ hlookup, rfl, rfl, rfl⟩

end Reconciles

def claimsConfig (kind : ResourceKind) (populate : String → List (KubeObject Nat)) : Config Nat where
  forRef := interfaceRef ""
  owns := [(ipClaimRef "", kind)]
  populateOwnResourcesFn := some fun F _ => .ok (populate F.name)
  updateResourceFn := some fun _ o _ => .ok o.toList

def claimsInv (kind : ResourceKind) : Inv Nat where
  gvkResources := [(interfaceRef "", { gvkKind := .forGVKKind }),
    (ipClaimRef "", { gvkKind := .ownGVKKind, ownKind := some kind })]

theorem newInventory_claimsConfig (kind : ResourceKind)
    (populate : String → List (KubeObject Nat)) :
    newInventory (claimsConfig kind populate) = .ok (claimsInv kind) := by
  cases kind <;> rfl

def interfaceObj (name : String) : KubeObject Nat :=
  { apiVersion := "req.nephio.org/v1alpha1", kind := "Interface", name := name }

def ipClaimObj (name : String) (spec : Option Nat) : KubeObject Nat :=
  { apiVersion := "ipam.resource.nephio.org/v1alpha1", kind := "IPClaim", name := name
    spec := spec }

/-- Interface `n3` wants claim `n3-ipv4` with spec 2. It has this claim with another spec, and a
claim it does not want any more. -/
def claimsPackage (spec : Option Nat) : Sdk Nat where
  items := [interfaceObj "n3", owned (interfaceRef "n3") (ipClaimObj "n3-ipv4" spec),
    owned (interfaceRef "n3") (ipClaimObj "n3-ipv6" (some 1))]
  kptfile := { conditions := [forCondition (interfaceRef "n3") "" .conditionTrue,
    ownCondition (interfaceRef "n3") (ipClaimRef "n3-ipv4") "" .conditionTrue] }
  inv := claimsInv .childRemote

def claimsWanted (interface : String) : List (KubeObject Nat) :=
  [ipClaimObj (interface ++ "-ipv4") (some 2)]

end Sdk

end Nephio.CondKptSdk
