import Nephio.Laws.CondKptSdk.Filing

/-!
# Laws.CondKptSdk.Watches: under which for-instance a watch is filed

A watch, or its owner, is compared with one GVK, that of the owner of the for condition read last,
and then looked up by name alone in a map from owner names to for names. `filed_right_iff` says
exactly on which packages this puts every watch under the for-instances whose conditions name it,
and under no other. Where the name is not in the map, the watch makes a for-instance without a name.
-/

namespace Nephio.CondKptSdk

namespace Sdk

variable {V : Type}

/-! ## The owners of the for conditions -/

/-- The for conditions whose reason reads as an owner, in the order of the Kptfile: the for-instance
and its owner. -/
def forOwners (inv : Inv V) (cs : List Condition) : List (ObjectReference × ObjectReference) :=
  (cs.map fun c => (getGVKNFromConditionType c.type, getGVKNFromConditionType c.reason)).filter
    fun e => inv.role e.1 = some .forGVKKind ∧ (validateGVKRef e.2).isOk

/-- The for-instance recorded last under the name of an owner. -/
def forNamed (l : List (ObjectReference × ObjectReference)) (name : String) :
    Option ObjectReference :=
  ((l.filter fun e => e.2.name = name).getLast?).map Prod.fst

theorem forOwners_concat (inv : Inv V) (cs : List Condition) (c : Condition) :
    forOwners inv (cs ++ [c]) = forOwners inv cs ++
      if inv.role (getGVKNFromConditionType c.type) = some .forGVKKind ∧
          (validateGVKRef (getGVKNFromConditionType c.reason)).isOk then
        [(getGVKNFromConditionType c.type, getGVKNFromConditionType c.reason)]
      else [] := by
  simp only [forOwners, List.map_append, List.filter_append, List.map_cons, List.map_nil,
    List.filter_cons, List.filter_nil, decide_eq_true_eq]

/-- One turn of the first loop records an owner, or changes nothing. -/
theorem ForOwners.add_eq (inv : Inv V) (f : ForOwners) (c : Condition) :
    f.add inv c =
      if inv.role (getGVKNFromConditionType c.type) = some .forGVKKind ∧
          (validateGVKRef (getGVKNFromConditionType c.reason)).isOk then
        { forOwnerRef := some (getGVKNFromConditionType c.reason).gvk
          nameMap := Keyed.upsert Prod.fst ((getGVKNFromConditionType c.reason).name,
            (getGVKNFromConditionType c.type).name) f.nameMap }
      else f := by
  cases hm : inv.isGVKMatch (getGVKNFromConditionType c.type) with
  | none => simp only [ForOwners.add, Inv.role, hm, Option.map_none, reduceCtorEq, false_and,
      if_false]
  | some kc => simp only [ForOwners.add, Inv.role, hm, Option.map_some, Option.some.injEq]

theorem forOwnerRef_owners (inv : Inv V) (cs : List Condition) :
    (owners inv cs).forOwnerRef = (forOwners inv cs).getLast?.map fun e => e.2.gvk := by
  induction cs using List.reverseRecOn with
  | nil => rfl
  | append_singleton cs c ih =>
    rw [forOwners_concat, owners, List.foldl_append, List.foldl_cons, List.foldl_nil,
      ForOwners.add_eq]
    split_ifs with hfor
    · rw [List.getLast?_concat]
      rfl
    · rw [List.append_nil, ← ih]
      rfl

theorem forName_owners (inv : Inv V) (cs : List Condition) (name : String) :
    (owners inv cs).forName name =
      ((forNamed (forOwners inv cs) name).map ObjectReference.name).getD "" := by
  induction cs using List.reverseRecOn with
  | nil => rfl
  | append_singleton cs c ih =>
    rw [forOwners_concat, owners, List.foldl_append, List.foldl_cons, List.foldl_nil,
      ForOwners.add_eq]
    split_ifs with hfor
    · simp only [ForOwners.forName, Keyed.lookup_upsert, forNamed, List.filter_append,
        List.filter_cons, List.filter_nil]
      by_cases hname : (getGVKNFromConditionType c.reason).name = name
      · simp only [hname, if_true, decide_true, List.getLast?_concat, Option.map_some]
      · simp only [hname, if_false, decide_false, Bool.false_eq_true, List.append_nil]
        exact ih
    · rw [List.append_nil, ← ih]
      rfl

/-! ## Where a watch goes -/

/-- Which of a watch and its owner is looked up by name: the one whose GVK is that of the last
owner. -/
def lookedUp (l : List (ObjectReference × ObjectReference)) (watch owner : ObjectReference) :
    Option ObjectReference :=
  if (l.getLast?.map fun e => e.2.gvk) = some watch.gvk then some watch
  else if (l.getLast?.map fun e => e.2.gvk) = some owner.gvk then some owner
  else none

/-- The for-instance recorded for a watch. -/
def watchTarget (l : List (ObjectReference × ObjectReference)) (watch owner : ObjectReference) :
    Option ObjectReference :=
  (lookedUp l watch owner).bind fun x => forNamed l x.name

theorem watchPath_owners (cfg : Config V) (inv : Inv V) (cs : List Condition)
    (watch owner : ObjectReference) :
    watchPath cfg (owners inv cs) watch owner =
      match lookedUp (forOwners inv cs) watch owner with
      | some x => some [{ apiVersion := cfg.forRef.apiVersion, kind := cfg.forRef.kind
                          name := (owners inv cs).forName x.name }, watch]
      | none => if (validateGVKNRef owner).isOk then none else some [watch] := by
  unfold watchPath lookedUp
  rw [forOwnerRef_owners]
  generalize ((forOwners inv cs).getLast?.map fun e => e.2.gvk) = last
  dsimp only
  by_cases hwatch : last = some watch.gvk
  · rw [if_pos (Or.inr hwatch), if_pos hwatch, if_pos hwatch]
  · by_cases howner : last = some owner.gvk
    · rw [if_pos (Or.inl howner), if_neg hwatch, if_neg hwatch, if_pos howner]
    · rw [if_neg (not_or.mpr ⟨howner, hwatch⟩), if_neg hwatch, if_neg howner]

/-- A recorded for-instance is that of a for condition. -/
theorem exists_of_forNamed {inv : Inv V} {cs : List Condition} {name : String}
    {F : ObjectReference} (h : forNamed (forOwners inv cs) name = some F) :
    inv.role F = some .forGVKKind ∧ ∃ c ∈ cs, getGVKNFromConditionType c.type = F := by
  obtain ⟨e, hlast, rfl⟩ := Option.map_eq_some_iff.mp h
  have hmem := (List.mem_filter.mp (List.mem_of_getLast? hlast)).1
  simp only [forOwners, List.mem_filter, List.mem_map, decide_eq_true_eq] at hmem
  obtain ⟨⟨c, hc, rfl⟩, hrole, -⟩ := hmem
  exact ⟨hrole, c, hc, rfl⟩

/-- Where the name that is looked up is recorded, a watch is filed under the for-instance recorded
for it. -/
theorem watchPath_eq_iff {cfg : Config V} {inv : Inv V} (hfresh : inv.Fresh cfg)
    {cs : List Condition} {watch owner F : ObjectReference}
    (hrec : ∀ x, lookedUp (forOwners inv cs) watch owner = some x →
      (forNamed (forOwners inv cs) x.name).isSome)
    (hF : inv.role F = some .forGVKKind) :
    watchPath cfg (owners inv cs) watch owner = some [F, watch] ↔
      watchTarget (forOwners inv cs) watch owner = some F := by
  rw [watchPath_owners, watchTarget]
  cases hx : lookedUp (forOwners inv cs) watch owner with
  | none =>
    simp only [Option.bind_none, reduceCtorEq, iff_false]
    split_ifs
    · exact not_false
    · intro h
      cases h
  | some x =>
    obtain ⟨F', hF'⟩ := Option.isSome_iff_exists.mp (hrec x hx)
    have hgvk := (hfresh.role_for F').mp (exists_of_forNamed hF').1
    have hgvkF := (hfresh.role_for F).mp hF
    simp only [Option.bind_some, hF', forName_owners, Option.map_some, Option.getD_some,
      Option.some.injEq, List.cons.injEq, and_true]
    simp only [ObjectReference.gvk, ObjectReference.mk.injEq] at hgvk hgvkF
    cases F
    cases F'
    simp_all only [ObjectReference.mk.injEq]

/-! ## Filed right -/

/-- The reason of a for condition of `F` names the watch or its owner. -/
def NamedBy (inv : Inv V) (cs : List Condition) (F watch owner : ObjectReference) : Prop :=
  ∃ c ∈ cs, getGVKNFromConditionType c.type = F ∧ inv.role F = some .forGVKKind ∧
    (getGVKNFromConditionType c.reason).Named ∧
    (getGVKNFromConditionType c.reason = owner ∨ getGVKNFromConditionType c.reason = watch)

/-- The inventory of `r'` holds the package of `r` as it should: a for-instance has a name and comes
from an object, a condition or an owner of the package, and a watch stands under the for-instances
whose conditions name it. -/
structure FiledRight (r r' : Sdk V) : Prop where
  for_level : ∀ F ctx, (F, ctx) ∈ r'.inv.get .forGVKKind [{}] →
    F.name ≠ "" ∧ r.inv.role F = some .forGVKKind ∧
      ∃ e ∈ resourcesOf r.kptfile.conditions r.items,
        e.1 = F ∨ (r.inv.role e.1 = some .ownGVKKind ∧ e.2 = F)
  watched_items : ∀ o ∈ r.items, r.inv.role o.ref = some .watchGVKKind →
    ∀ F, r.inv.role F = some .forGVKKind →
      ((∃ ctx, (o.ref, ctx) ∈ r'.inv.get .watchGVKKind [F, {}] ∧ ctx.existingResource = some o) ↔
        NamedBy r.inv r.kptfile.conditions F o.ref (getGVKNFromConditionType o.owner))
  watched_conditions : ∀ c ∈ r.kptfile.conditions,
    r.inv.role (getGVKNFromConditionType c.type) = some .watchGVKKind →
    ∀ F, r.inv.role F = some .forGVKKind →
      ((∃ ctx, (getGVKNFromConditionType c.type, ctx) ∈ r'.inv.get .watchGVKKind [F, {}] ∧
          ctx.existingCondition = some c) ↔
        NamedBy r.inv r.kptfile.conditions F (getGVKNFromConditionType c.type)
          (getGVKNFromConditionType c.reason))

/-- Every watch is looked up by a name that is recorded. -/
def Recorded (inv : Inv V) (cs : List Condition) (os : List (KubeObject V)) : Prop :=
  ∀ e ∈ resourcesOf cs os, inv.role e.1 = some .watchGVKKind →
    ∀ x, lookedUp (forOwners inv cs) e.1 e.2 = some x → (forNamed (forOwners inv cs) x.name).isSome

/-- The packages that are filed right. For-instances have names, and so do the owners of own
children; the name a watch is looked up by is recorded; and of the items (the conditions) of a watch
that are recorded for a for-instance, the last one, which stays, is one that the for-instance's
condition names, and no other item (condition) of the package is. -/
structure WatchesRecorded (r : Sdk V) : Prop where
  for_named : ∀ e ∈ resourcesOf r.kptfile.conditions r.items,
    r.inv.role e.1 = some .forGVKKind → e.1.name ≠ ""
  owner_named : ∀ e ∈ resourcesOf r.kptfile.conditions r.items,
    r.inv.role e.1 = some .ownGVKKind → r.inv.role e.2 = some .forGVKKind → e.2.name ≠ ""
  recorded : Recorded r.inv r.kptfile.conditions r.items
  items : ∀ o ∈ r.items, r.inv.role o.ref = some .watchGVKKind →
    ∀ F, r.inv.role F = some .forGVKKind →
      (NamedBy r.inv r.kptfile.conditions F o.ref (getGVKNFromConditionType o.owner) ↔
        (r.items.filter fun o' => o'.ref = o.ref ∧
          watchTarget (forOwners r.inv r.kptfile.conditions) o'.ref
            (getGVKNFromConditionType o'.owner) = some F).getLast? = some o)
  conditions : ∀ c ∈ r.kptfile.conditions,
    r.inv.role (getGVKNFromConditionType c.type) = some .watchGVKKind →
    ∀ F, r.inv.role F = some .forGVKKind →
      (NamedBy r.inv r.kptfile.conditions F (getGVKNFromConditionType c.type)
          (getGVKNFromConditionType c.reason) ↔
        (r.kptfile.conditions.filter fun c' =>
          getGVKNFromConditionType c'.type = getGVKNFromConditionType c.type ∧
          watchTarget (forOwners r.inv r.kptfile.conditions) (getGVKNFromConditionType c'.type)
            (getGVKNFromConditionType c'.reason) = some F).getLast? = some c)

section Proof

variable {cfg : Config V} {inv : Inv V} {cs : List Condition} {os : List (KubeObject V)}

theorem role_ne_empty (hfresh : inv.Fresh cfg) {F : ObjectReference}
    (hF : inv.role F = some .forGVKKind) : F ≠ {} := by
  rintro rfl
  have hgvk := (hfresh.role_for {}).mp hF
  exact hfresh.forRef_named.1 (congrArg ObjectReference.apiVersion hgvk).symm

/-- Where the names are recorded, the item of a watch that stands under a for-instance is the last
one recorded for it. -/
theorem watched_item_iff (hfresh : inv.Fresh cfg) (hrec : Recorded inv cs os)
    {F watch : ObjectReference} (hF : inv.role F = some .forGVKKind)
    (hwatch : inv.role watch = some .watchGVKKind) {o : KubeObject V} :
    (∃ ctx, (watch, ctx) ∈ (inv.write (filings cfg inv cs os)).get .watchGVKKind [F, {}] ∧
      ctx.existingResource = some o) ↔
      (os.filter fun o => o.ref = watch ∧ watchTarget (forOwners inv cs) o.ref
        (getGVKNFromConditionType o.owner) = some F).getLast? = some o := by
  simp only [Inv.mem_get_under (keysNodup_filings hfresh 2) (k := .watchGVKKind) nofun
    (role_ne_empty hfresh hF)]
  rw [existingResource_filings hfresh (List.cons_ne_nil _ _), itemAt]
  refine Eq.congr_left (congrArg List.getLast? (List.filter_congr fun o' ho' => ?_))
  have hpath : o'.ref = watch → _ := fun href => watchPath_eq_iff hfresh
    (hrec _ (List.mem_append_right _ (List.mem_map_of_mem ho')) (href ▸ hwatch)) hF
  refine decide_eq_decide.mpr (placePath_eq_watch.trans ⟨?_, ?_⟩)
  · rintro ⟨rfl, -, h⟩
    exact ⟨rfl, (hpath rfl).mp h⟩
  · rintro ⟨rfl, h⟩
    exact ⟨rfl, hwatch, (hpath rfl).mpr h⟩

/-- The same for the conditions. -/
theorem watched_condition_iff (hfresh : inv.Fresh cfg) (hrec : Recorded inv cs os)
    {F watch : ObjectReference} (hF : inv.role F = some .forGVKKind)
    (hwatch : inv.role watch = some .watchGVKKind) {c : Condition} :
    (∃ ctx, (watch, ctx) ∈ (inv.write (filings cfg inv cs os)).get .watchGVKKind [F, {}] ∧
      ctx.existingCondition = some c) ↔
      (cs.filter fun c => getGVKNFromConditionType c.type = watch ∧
        watchTarget (forOwners inv cs) (getGVKNFromConditionType c.type)
          (getGVKNFromConditionType c.reason) = some F).getLast? = some c := by
  simp only [Inv.mem_get_under (keysNodup_filings hfresh 2) (k := .watchGVKKind) nofun
    (role_ne_empty hfresh hF)]
  rw [existingCondition_filings hfresh (List.cons_ne_nil _ _), conditionAt]
  refine Eq.congr_left (congrArg List.getLast? (List.filter_congr fun c' hc' => ?_))
  have hpath : getGVKNFromConditionType c'.type = watch → _ := fun href => watchPath_eq_iff hfresh
    (hrec _ (List.mem_append_left _ (List.mem_map_of_mem hc')) (href ▸ hwatch)) hF
  refine decide_eq_decide.mpr (placePath_eq_watch.trans ⟨?_, ?_⟩)
  · rintro ⟨rfl, -, h⟩
    exact ⟨rfl, (hpath rfl).mp h⟩
  · rintro ⟨rfl, h⟩
    exact ⟨rfl, hwatch, (hpath rfl).mpr h⟩

/-- A for-instance is there for one of three reasons; the third is a watch filed under it. -/
theorem reached_for (hfresh : inv.Fresh cfg) {F : ObjectReference} :
    Reached cfg inv cs os [⟨.forGVKKind, F⟩] ↔
      inv.role F = some .forGVKKind ∧ ∃ e ∈ resourcesOf cs os,
        e.1 = F ∨ (inv.role e.1 = some .ownGVKKind ∧ e.2 = F) ∨
        (inv.role e.1 = some .watchGVKKind ∧
          watchPath cfg (owners inv cs) e.1 e.2 = some [F, e.1]) := by
  constructor
  · rintro ⟨e, he, q, hq, hpre⟩
    rcases placePath_below_for hq hpre with ⟨hobj, hF⟩ | ⟨howner, hrole, hF⟩ | ⟨hrole, hF, hpath⟩
    · exact ⟨hF, e, he, Or.inl hobj⟩
    · exact ⟨hF, e, he, Or.inr (Or.inl ⟨hrole, howner⟩)⟩
    · exact ⟨(hfresh.role_for F).mpr hF, e, he, Or.inr (Or.inr ⟨hrole, hpath⟩)⟩
  · rintro ⟨hF, e, he, hobj | ⟨hrole, howner⟩ | ⟨hrole, hpath⟩⟩
    · exact ⟨e, he, _, placePath_eq_for.mpr ⟨hobj, hF⟩, List.prefix_refl _⟩
    · exact ⟨e, he, _, placePath_eq_own.mpr ⟨rfl, howner, hrole, hF⟩, List.prefix_append _ _⟩
    · exact ⟨e, he, _, placePath_eq_watch.mpr ⟨rfl, hrole, hpath⟩, List.prefix_append _ _⟩

end Proof

/-- A watch whose name is not recorded makes a for-instance without a name. -/
theorem recorded_of_for_named {cfg : Config V} {inv : Inv V} (hfresh : inv.Fresh cfg)
    {cs : List Condition} {os : List (KubeObject V)}
    (hnamed : ∀ F, Reached cfg inv cs os [⟨.forGVKKind, F⟩] → F.name ≠ "")
    {e : ObjectReference × ObjectReference} (he : e ∈ resourcesOf cs os)
    (hrole : inv.role e.1 = some .watchGVKKind) {x : ObjectReference}
    (hx : lookedUp (forOwners inv cs) e.1 e.2 = some x) :
    (forNamed (forOwners inv cs) x.name).isSome := by
  have hpath := watchPath_owners cfg inv cs e.1 e.2
  rw [hx] at hpath
  have hreached := (reached_for hfresh).mpr ⟨(hfresh.role_for _).mpr ?_, e, he,
    Or.inr (Or.inr ⟨hrole, hpath⟩)⟩
  · have hname := hnamed _ hreached
    rw [Option.isSome_iff_ne_none]
    intro hnone
    rw [forName_owners, hnone] at hname
    exact hname rfl
  · rfl

/-- **Which packages are filed right.** -/
theorem filed_right_iff {cfg : Config V} {r r' : Sdk V} (hinv : newInventory cfg = .ok r.inv)
    (h : populateInventory cfg r = .ok r') : FiledRight r r' ↔ WatchesRecorded r := by
  have hfresh := newInventory_fresh hinv
  rw [populateInventory_eq] at h
  obtain rfl := Except.ok.inj h
  have hnodup : (r.inv.write (filings cfg r.inv r.kptfile.conditions r.items)).resources.KeysNodup
      2 := keysNodup_filings hfresh 2
  have hfor : ∀ F, (∃ ctx, (F, ctx) ∈ (r.inv.write (filings cfg r.inv r.kptfile.conditions
      r.items)).get .forGVKKind [{}]) ↔
      Reached cfg r.inv r.kptfile.conditions r.items [⟨.forGVKKind, F⟩] := by
    intro F
    simp only [Inv.mem_get_top hnodup (k := .forGVKKind) nofun,
      find_filings hfresh (List.cons_ne_nil _ _), exists_and_left, exists_eq, and_true]
  constructor
  · intro hright
    have hnamed : ∀ F, Reached cfg r.inv r.kptfile.conditions r.items [⟨.forGVKKind, F⟩] →
        F.name ≠ "" := by
      intro F hF
      obtain ⟨ctx, hctx⟩ := (hfor F).mpr hF
      exact (hright.for_level F ctx hctx).1
    have hrec : Recorded r.inv r.kptfile.conditions r.items := fun e he hrole x hx =>
      recorded_of_for_named hfresh hnamed he hrole hx
    refine ⟨?_, ?_, hrec, ?_, ?_⟩
    · intro e he hrole
      exact hnamed _ ((reached_for hfresh).mpr ⟨hrole, e, he, Or.inl rfl⟩)
    · intro e he hrole howner
      exact hnamed _ ((reached_for hfresh).mpr ⟨howner, e, he, Or.inr (Or.inl ⟨hrole, rfl⟩)⟩)
    · intro o ho hrole F hF
      rw [← hright.watched_items o ho hrole F hF]
      exact watched_item_iff hfresh hrec hF hrole
    · intro c hc hrole F hF
      rw [← hright.watched_conditions c hc hrole F hF]
      exact watched_condition_iff hfresh hrec hF hrole
  · intro hrec
    refine ⟨?_, ?_, ?_⟩
    · intro F ctx hctx
      obtain ⟨hF, e, he, hobj | ⟨hrole, howner⟩ | ⟨hrole, hpath⟩⟩ :=
        (reached_for hfresh).mp ((hfor F).mp ⟨ctx, hctx⟩)
      · exact ⟨hobj ▸ hrec.for_named e he (hobj ▸ hF), hF, e, he, Or.inl hobj⟩
      · exact ⟨howner ▸ hrec.owner_named e he hrole (howner ▸ hF), hF, e, he,
          Or.inr ⟨hrole, howner⟩⟩
      · -- the for-instance of a watch is that of the condition its name was recorded from
        rw [watchPath_eq_iff hfresh (hrec.recorded e he hrole) hF] at hpath
        obtain ⟨x, -, hx⟩ := Option.bind_eq_some_iff.mp hpath
        obtain ⟨-, c, hc, rfl⟩ := exists_of_forNamed hx
        have hmem := List.mem_append_left (r.items.map fun o =>
          (o.ref, getGVKNFromConditionType o.owner)) (List.mem_map_of_mem (f := fun c =>
            (getGVKNFromConditionType c.type, getGVKNFromConditionType c.reason)) hc)
        exact ⟨hrec.for_named _ hmem hF, hF, _, hmem, Or.inl rfl⟩
    · intro o ho hrole F hF
      rw [hrec.items o ho hrole F hF]
      exact watched_item_iff hfresh hrec.recorded hF hrole
    · intro c hc hrole F hF
      rw [hrec.conditions c hc hrole F hF]
      exact watched_condition_iff hfresh hrec.recorded hF hrole

/-! ## A package of the NAD function

It watches the IP claims of the Interfaces that own its NADs. -/

def nadRef (name : String) : ObjectReference :=
  { apiVersion := "k8s.cni.cncf.io/v1", kind := "NetworkAttachmentDefinition", name := name }

def interfaceRef (name : String) : ObjectReference :=
  { apiVersion := "req.nephio.org/v1alpha1", kind := "Interface", name := name }

def ipClaimRef (name : String) : ObjectReference :=
  { apiVersion := "ipam.resource.nephio.org/v1alpha1", kind := "IPClaim", name := name }

def nadConfig : Config Unit where
  forRef := nadRef ""
  watch := [(ipClaimRef "", none), (interfaceRef "", none)]
  updateResourceFn := some fun _ _ _ => .ok []

def nadInv : Inv Unit where
  gvkResources := [(nadRef "", { gvkKind := .forGVKKind }),
    (ipClaimRef "", { gvkKind := .watchGVKKind }), (interfaceRef "", { gvkKind := .watchGVKKind })]

/-- The NAD of Interface `n3`, and an IP claim of some Interface. -/
def nadPackage (interface : String) : Sdk Unit where
  items := [{ apiVersion := "ipam.resource.nephio.org/v1alpha1", kind := "IPClaim"
              name := interface ++ "-ipv4"
              annotations := [(specializerOwner, getConditionType (interfaceRef interface))] }]
  kptfile := { conditions := [{ type := getConditionType (nadRef "n3-nad"), status := .conditionFalse
                                reason := getConditionType (interfaceRef "n3") }] }
  inv := nadInv

theorem newInventory_nadConfig : newInventory nadConfig = .ok nadInv := by
  rfl

theorem watchesRecorded_nadPackage : WatchesRecorded (nadPackage "n3") := by
  have hforall : ∀ e ∈ resourcesOf (nadPackage "n3").kptfile.conditions (nadPackage "n3").items,
      (nadInv.role e.1 = some .forGVKKind → e.1.name ≠ "") ∧
      (nadInv.role e.1 = some .ownGVKKind → nadInv.role e.2 = some .forGVKKind → e.2.name ≠ "") ∧
      ∀ x ∈ lookedUp (forOwners nadInv (nadPackage "n3").kptfile.conditions) e.1 e.2,
        (forNamed (forOwners nadInv (nadPackage "n3").kptfile.conditions) x.name).isSome := by
    decide +kernel
  refine ⟨fun e he => (hforall e he).1, fun e he => (hforall e he).2.1,
    fun e he _ => (hforall e he).2.2, ?_, ?_⟩
  · intro o ho hrole F hF
    obtain rfl := List.mem_singleton.mp ho
    by_cases hn3 : F = nadRef "n3-nad"
    · subst hn3
      refine iff_of_true ⟨_, List.mem_singleton_self _, ?_⟩ ?_
      · decide +kernel
      · decide +kernel
    · refine iff_of_false ?_ ?_
      · rintro ⟨c, hc, htype, -⟩
        obtain rfl := List.mem_singleton.mp hc
        exact hn3 (htype ▸ by decide +kernel)
      · intro hlast
        have htarget := (of_decide_eq_true (List.mem_filter.mp (List.mem_of_getLast? hlast)).2).2
        exact hn3 (Option.some.inj (htarget.symm.trans (by decide +kernel)))
  · intro c hc hrole
    obtain rfl := List.mem_singleton.mp hc
    exact absurd hrole (by decide +kernel)

/-- The claim of an Interface that has a NAD is filed under it. -/
theorem nad_claim_filed_right :
    ∃ r', populateInventory nadConfig (nadPackage "n3") = .ok r' ∧
      FiledRight (nadPackage "n3") r' :=
  ⟨_, populateInventory_eq _ _,
    (filed_right_iff newInventory_nadConfig (populateInventory_eq _ _)).mpr
      watchesRecorded_nadPackage⟩

/-- The claim of a loopback Interface, which has no NAD, makes a for-instance without a name. -/
theorem loopback_claim_filed_under_no_name :
    newInventory nadConfig = .ok nadInv ∧
      ∃ r', populateInventory nadConfig (nadPackage "lo0") = .ok r' ∧
        ¬ FiledRight (nadPackage "lo0") r' := by
  refine ⟨newInventory_nadConfig, _, populateInventory_eq _ _, fun hright => ?_⟩
  have hmem : nadRef "" ∈ ((nadInv.write (filings nadConfig nadInv
      (nadPackage "lo0").kptfile.conditions (nadPackage "lo0").items)).get .forGVKKind [{}]).map
      Prod.fst := by
    decide +kernel
  obtain ⟨⟨F, ctx⟩, hctx, rfl⟩ := List.mem_map.mp hmem
  exact (hright.for_level _ ctx hctx).1 rfl

end Sdk

end Nephio.CondKptSdk
