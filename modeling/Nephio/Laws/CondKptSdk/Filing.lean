import Nephio.Laws.CondKptSdk.Roles
import Nephio.Laws.CondKptSdk.Tree

/-!
# Laws.CondKptSdk.Filing: what the inventory holds after `populateInventory`

Filing never fails, and it is a run of tree writes (`populateInventory_eq`). So the inventory can be
read off the package: a path is there when something is filed at or below it, and it holds the last
condition and the last object filed at it (`find_filed`).
-/

namespace Nephio.CondKptSdk

namespace Sdk

variable {V : Type}

/-- The path that `getSdkRefs` makes of references. -/
def treePath (k : GvkKind) : List ObjectReference → List SdkObjectReference
  | [a] => [⟨k, a⟩]
  | [a, b] => [⟨.forGVKKind, a⟩, ⟨k, b⟩]
  | _ => []

/-- Where `populate` files a resource in the tree. -/
def place (cfg : Config V) (inv : Inv V) (f : ForOwners) (objRef ownerRef : ObjectReference) :
    Option (GvkKindCtx V × List SdkObjectReference) :=
  (filingPath cfg inv f objRef ownerRef).map fun e => (e.1, treePath e.1.gvkKind e.2)

/-- The path of `place`. -/
def placePath (cfg : Config V) (inv : Inv V) (f : ForOwners) (objRef ownerRef : ObjectReference) :
    Option (List SdkObjectReference) :=
  (place cfg inv f objRef ownerRef).map Prod.snd

section Places

variable {cfg : Config V} {inv : Inv V} {f : ForOwners} {objRef ownerRef : ObjectReference}

/-- The three roles a filed resource can have, and what is then known of its references. -/
theorem filingPath_cases {kc : GvkKindCtx V} {refs : List ObjectReference}
    (h : filingPath cfg inv f objRef ownerRef = some (kc, refs)) :
    inv.isGVKMatch objRef = some kc ∧
      ((kc.gvkKind = .forGVKKind ∧ refs = [objRef]) ∨
       (kc.gvkKind = .ownGVKKind ∧ inv.role ownerRef = some .forGVKKind ∧
          refs = [ownerRef, objRef]) ∨
       (kc.gvkKind = .watchGVKKind ∧ watchPath cfg f objRef ownerRef = some refs)) := by
  unfold filingPath at h
  cases hm : inv.isGVKMatch objRef with
  | none => simp only [hm, reduceCtorEq] at h
  | some kc' =>
    simp only [hm] at h
    cases hk : kc'.gvkKind with
    | forGVKKind =>
      simp only [hk, Option.some.injEq, Prod.mk.injEq] at h
      obtain ⟨rfl, rfl⟩ := h
      exact ⟨rfl, Or.inl ⟨hk, rfl⟩⟩
    | ownGVKKind =>
      simp only [hk] at h
      cases ho : inv.isGVKMatch ownerRef with
      | none => simp only [ho, reduceCtorEq] at h
      | some okc =>
        simp only [ho] at h
        split_ifs at h with hfor
        simp only [Option.some.injEq, Prod.mk.injEq] at h
        obtain ⟨rfl, rfl⟩ := h
        exact ⟨rfl, Or.inr (Or.inl ⟨hk, Inv.role_eq_some.mpr ⟨okc, ho, hfor⟩, rfl⟩)⟩
    | watchGVKKind =>
      simp only [hk] at h
      obtain ⟨refs', hrefs, heq⟩ := Option.map_eq_some_iff.mp h
      simp only [Prod.mk.injEq] at heq
      obtain ⟨rfl, rfl⟩ := heq
      exact ⟨rfl, Or.inr (Or.inr ⟨hk, hrefs⟩)⟩

/-- A watch is filed at the top, or below a for-instance. -/
theorem watchPath_cases {refs : List ObjectReference}
    (h : watchPath cfg f objRef ownerRef = some refs) :
    refs = [objRef] ∨ ∃ F, F.gvk = cfg.forRef.gvk ∧ refs = [F, objRef] := by
  unfold watchPath at h
  dsimp only at h
  split_ifs at h
  · refine Or.inr ⟨_, ?_, (Option.some.inj h).symm⟩
    rfl
  · refine Or.inr ⟨_, ?_, (Option.some.inj h).symm⟩
    rfl
  · exact Or.inl (Option.some.inj h).symm

theorem getSdkRefs_of_filingPath {kc : GvkKindCtx V} {refs : List ObjectReference}
    (h : filingPath cfg inv f objRef ownerRef = some (kc, refs)) :
    getSdkRefs kc.gvkKind refs = .ok (treePath kc.gvkKind refs) := by
  obtain ⟨-, ⟨hk, rfl⟩ | ⟨hk, -, rfl⟩ | ⟨hk, hwatch⟩⟩ := filingPath_cases h
  · simp only [getSdkRefs, hk, reduceCtorEq, if_false, treePath]
  · simp only [getSdkRefs, hk, reduceCtorEq, if_false, treePath]
  · rcases watchPath_cases hwatch with rfl | ⟨F, -, rfl⟩
    · simp only [getSdkRefs, hk, reduceCtorEq, if_false, treePath]
    · simp only [getSdkRefs, hk, reduceCtorEq, if_false, treePath]

theorem place_isGVKMatch {e : GvkKindCtx V × List SdkObjectReference}
    (h : place cfg inv f objRef ownerRef = some e) : inv.isGVKMatch objRef = some e.1 := by
  obtain ⟨⟨kc, refs⟩, hpath, rfl⟩ := Option.map_eq_some_iff.mp h
  exact (filingPath_cases hpath).1

/-- The four places there are. -/
theorem placePath_cases {p : List SdkObjectReference}
    (h : placePath cfg inv f objRef ownerRef = some p) :
    (inv.role objRef = some .forGVKKind ∧ p = [⟨.forGVKKind, objRef⟩]) ∨
    (inv.role objRef = some .ownGVKKind ∧ inv.role ownerRef = some .forGVKKind ∧
      p = [⟨.forGVKKind, ownerRef⟩, ⟨.ownGVKKind, objRef⟩]) ∨
    (inv.role objRef = some .watchGVKKind ∧ watchPath cfg f objRef ownerRef = some [objRef] ∧
      p = [⟨.watchGVKKind, objRef⟩]) ∨
    (inv.role objRef = some .watchGVKKind ∧ ∃ F, F.gvk = cfg.forRef.gvk ∧
      watchPath cfg f objRef ownerRef = some [F, objRef] ∧
      p = [⟨.forGVKKind, F⟩, ⟨.watchGVKKind, objRef⟩]) := by
  obtain ⟨⟨kc, path⟩, hplace, rfl⟩ := Option.map_eq_some_iff.mp h
  obtain ⟨⟨kc', refs⟩, hpath, heq⟩ := Option.map_eq_some_iff.mp hplace
  simp only [Prod.mk.injEq] at heq
  obtain ⟨rfl, rfl⟩ := heq
  obtain ⟨hm, ⟨hk, rfl⟩ | ⟨hk, hfor, rfl⟩ | ⟨hk, hwatch⟩⟩ := filingPath_cases hpath
  · exact Or.inl ⟨Inv.role_eq_some.mpr ⟨kc', hm, hk⟩, by rw [hk]; rfl⟩
  · exact Or.inr (Or.inl ⟨Inv.role_eq_some.mpr ⟨kc', hm, hk⟩, hfor, by rw [hk]; rfl⟩)
  · refine Or.inr (Or.inr ?_)
    have hrole : inv.role objRef = some .watchGVKKind := Inv.role_eq_some.mpr ⟨kc', hm, hk⟩
    rcases watchPath_cases hwatch with rfl | ⟨F, hF, rfl⟩
    · exact Or.inl ⟨hrole, hwatch, by rw [hk]; rfl⟩
    · exact Or.inr ⟨hrole, F, hF, hwatch, by rw [hk]; rfl⟩

/-- A resource is filed at the top of a for-instance when it is that for-instance. -/
theorem placePath_eq_for {F : ObjectReference} :
    placePath cfg inv f objRef ownerRef = some [⟨.forGVKKind, F⟩] ↔
      objRef = F ∧ inv.role F = some .forGVKKind := by
  constructor
  · intro h
    rcases placePath_cases h with ⟨hrole, hp⟩ | ⟨-, -, hp⟩ | ⟨-, -, hp⟩ | ⟨-, F', -, -, hp⟩ <;>
      cases hp
    exact ⟨rfl, hrole⟩
  · rintro ⟨rfl, hrole⟩
    obtain ⟨kc, hm, hk⟩ := Inv.role_eq_some.mp hrole
    simp only [placePath, place, filingPath, hm, hk, Option.map_some, treePath]

/-- A resource is filed as an own child of a for-instance when its owner is that for-instance. -/
theorem placePath_eq_own {F ref : ObjectReference} :
    placePath cfg inv f objRef ownerRef = some [⟨.forGVKKind, F⟩, ⟨.ownGVKKind, ref⟩] ↔
      objRef = ref ∧ ownerRef = F ∧ inv.role ref = some .ownGVKKind ∧
        inv.role F = some .forGVKKind := by
  constructor
  · intro h
    rcases placePath_cases h with ⟨-, hp⟩ | ⟨hrole, hfor, hp⟩ | ⟨-, -, hp⟩ | ⟨-, F', -, -, hp⟩ <;>
      cases hp
    exact ⟨rfl, rfl, hrole, hfor⟩
  · rintro ⟨rfl, rfl, hrole, hfor⟩
    obtain ⟨kc, hm, hk⟩ := Inv.role_eq_some.mp hrole
    obtain ⟨okc, ho, hok⟩ := Inv.role_eq_some.mp hfor
    simp only [placePath, place, filingPath, hm, hk, ho, hok, if_true, Option.map_some, treePath]

/-- A resource is filed as a specific watch where `watchPath` says so. -/
theorem placePath_eq_watch {F ref : ObjectReference} :
    placePath cfg inv f objRef ownerRef = some [⟨.forGVKKind, F⟩, ⟨.watchGVKKind, ref⟩] ↔
      objRef = ref ∧ inv.role ref = some .watchGVKKind ∧
        watchPath cfg f objRef ownerRef = some [F, ref] := by
  constructor
  · intro h
    rcases placePath_cases h with ⟨-, hp⟩ | ⟨-, -, hp⟩ | ⟨-, -, hp⟩ | ⟨hrole, F', -, hw, hp⟩ <;>
      cases hp
    exact ⟨rfl, hrole, hw⟩
  · rintro ⟨rfl, hrole, hwatch⟩
    obtain ⟨kc, hm, hk⟩ := Inv.role_eq_some.mp hrole
    simp only [placePath, place, filingPath, hm, hk, hwatch, Option.map_some, treePath]

/-- Something is filed at or below a for-instance. -/
theorem placePath_below_for {p : List SdkObjectReference} {F : ObjectReference}
    (h : placePath cfg inv f objRef ownerRef = some p) (hpre : [⟨.forGVKKind, F⟩] <+: p) :
    (objRef = F ∧ inv.role F = some .forGVKKind) ∨
    (ownerRef = F ∧ inv.role objRef = some .ownGVKKind ∧ inv.role F = some .forGVKKind) ∨
    (inv.role objRef = some .watchGVKKind ∧ F.gvk = cfg.forRef.gvk ∧
      watchPath cfg f objRef ownerRef = some [F, objRef]) := by
  rcases placePath_cases h with ⟨hrole, rfl⟩ | ⟨hrole, hfor, rfl⟩ | ⟨-, -, rfl⟩ |
    ⟨hrole, F', hF', hw, rfl⟩ <;>
    simp only [List.cons_prefix_cons, SdkObjectReference.mk.injEq, reduceCtorEq, true_and,
      false_and, List.nil_prefix, and_true] at hpre
  · subst hpre
    exact Or.inl ⟨rfl, hrole⟩
  · subst hpre
    exact Or.inr (Or.inl ⟨rfl, hrole, hfor⟩)
  · subst hpre
    exact Or.inr (Or.inr ⟨hrole, hF', hw⟩)

end Places

/-! ## Filing is a run of writes -/

/-- The write that files a resource, where it is filed. -/
def fileWrites (cfg : Config V) (inv : Inv V) (f : ForOwners) (objRef ownerRef : ObjectReference)
    (x : Filed V) : List (TreeWrite V) :=
  match place cfg inv f objRef ownerRef with
  | none => []
  | some (kc, path) => [.set kc x false false path]

theorem populate_eq (cfg : Config V) (f : ForOwners) (inv : Inv V)
    (objRef ownerRef : ObjectReference) (x : Filed V) :
    populate cfg f inv objRef ownerRef x =
      .ok (inv.write (fileWrites cfg inv f objRef ownerRef x)) := by
  unfold populate fileWrites place
  cases hpath : filingPath cfg inv f objRef ownerRef with
  | none => rfl
  | some e =>
    simp only [Inv.set, getSdkRefs_of_filingPath hpath]
    rfl

theorem foldlM_populate {α : Type} (cfg : Config V) (f : ForOwners) (inv : Inv V)
    (obj owner : α → ObjectReference) (x : α → Filed V) (l : List α) :
    l.foldlM (fun inv a => populate cfg f inv (obj a) (owner a) (x a)) inv =
      .ok (inv.write (l.flatMap fun a => fileWrites cfg inv f (obj a) (owner a) (x a))) := by
  induction l generalizing inv with
  | nil => rfl
  | cons a l ih =>
    rw [List.foldlM_cons, populate_eq, List.flatMap_cons, ← Inv.write_write]
    exact ih _

/-- The owners of the for conditions, as the first loop leaves them. -/
def owners (inv : Inv V) (cs : List Condition) : ForOwners := cs.foldl (ForOwners.add inv) {}

/-- Everything `populateInventory` files. -/
def filings (cfg : Config V) (inv : Inv V) (cs : List Condition) (os : List (KubeObject V)) :
    List (TreeWrite V) :=
  (cs.flatMap fun c => fileWrites cfg inv (owners inv cs) (getGVKNFromConditionType c.type)
    (getGVKNFromConditionType c.reason) (.condition c)) ++
  (os.flatMap fun o => fileWrites cfg inv (owners inv cs) o.ref
    (getGVKNFromConditionType o.owner) (.object o))

/-- **Filing never fails**, and writes to the tree only. -/
theorem populateInventory_eq (cfg : Config V) (r : Sdk V) :
    populateInventory cfg r =
      .ok { r with inv := r.inv.write (filings cfg r.inv r.kptfile.conditions r.items) } := by
  refine Fallible.bind_eq_ok.mpr ⟨_, foldlM_populate cfg _ r.inv _ _ _ _, ?_⟩
  refine Fallible.bind_eq_ok.mpr ⟨_, foldlM_populate cfg _ _ _ _ _ _, ?_⟩
  rw [Inv.write_write]
  rfl

/-! ## Reading the inventory off the package -/

section Reading

variable (cfg : Config V) (inv : Inv V) (cs : List Condition) (os : List (KubeObject V))

/-- Where a condition of the Kptfile is filed. -/
def conditionPath (c : Condition) : Option (List SdkObjectReference) :=
  placePath cfg inv (owners inv cs) (getGVKNFromConditionType c.type)
    (getGVKNFromConditionType c.reason)

/-- Where an item of the package is filed. -/
def itemPath (o : KubeObject V) : Option (List SdkObjectReference) :=
  placePath cfg inv (owners inv cs) o.ref (getGVKNFromConditionType o.owner)

/-- The last condition filed at a path. -/
def conditionAt (p : List SdkObjectReference) : Option Condition :=
  (cs.filter fun c => conditionPath cfg inv cs c = some p).getLast?

/-- The last item filed at a path. -/
def itemAt (p : List SdkObjectReference) : Option (KubeObject V) :=
  (os.filter fun o => itemPath cfg inv cs o = some p).getLast?

/-- Every condition and item of the package: its reference and its owner. -/
def resourcesOf : List (ObjectReference × ObjectReference) :=
  (cs.map fun c => (getGVKNFromConditionType c.type, getGVKNFromConditionType c.reason)) ++
    os.map fun o => (o.ref, getGVKNFromConditionType o.owner)

/-- Something is filed at or below a path. -/
def Reached (p : List SdkObjectReference) : Prop :=
  ∃ e ∈ resourcesOf cs os, ∃ q, placePath cfg inv (owners inv cs) e.1 e.2 = some q ∧ p <+: q

/-- What a path holds after filing. -/
def filedCtx (p : List SdkObjectReference) : ResourceCtx V where
  kindCtx := (itemAt cfg inv cs os p).bind fun o => inv.isGVKMatch o.ref
  existingCondition := conditionAt cfg inv cs p
  existingResource := itemAt cfg inv cs os p

variable {cfg inv cs os}

theorem mem_of_conditionAt {p : List SdkObjectReference} {c : Condition}
    (h : conditionAt cfg inv cs p = some c) : c ∈ cs ∧ conditionPath cfg inv cs c = some p := by
  simpa using List.mem_of_getLast? h

theorem mem_of_itemAt {p : List SdkObjectReference} {o : KubeObject V}
    (h : itemAt cfg inv cs os p = some o) : o ∈ os ∧ itemPath cfg inv cs o = some p := by
  simpa using List.mem_of_getLast? h

/-- The writes of one loop that are made at a path, in their order. -/
theorem filter_fileWrites {α : Type} (f : ForOwners) (obj owner : α → ObjectReference)
    (x : α → Filed V) (l : List α) (p : List SdkObjectReference) (ctx : ResourceCtx V) :
    ((l.flatMap fun a => fileWrites cfg inv f (obj a) (owner a) (x a)).filter
        fun w => w.path = p).foldl (fun ctx w => w.on ctx) ctx =
      (l.filter fun a => placePath cfg inv f (obj a) (owner a) = some p).foldl
        (fun ctx a => ctx.write ((inv.isGVKMatch (obj a)).getD { gvkKind := .forGVKKind }) (x a)
          false false) ctx := by
  induction l generalizing ctx with
  | nil => rfl
  | cons a l ih =>
    rw [List.flatMap_cons, List.filter_append, List.foldl_append, ih]
    cases hpl : place cfg inv f (obj a) (owner a) with
    | none =>
      have hpath : placePath cfg inv f (obj a) (owner a) = none := by
        simp only [placePath, hpl, Option.map_none]
      simp only [fileWrites, hpl, List.filter_nil, List.foldl_nil, List.filter_cons, hpath,
        reduceCtorEq, decide_false, Bool.false_eq_true, if_false]
    | some e =>
      have hpath : placePath cfg inv f (obj a) (owner a) = some e.2 := by
        simp only [placePath, hpl, Option.map_some]
      simp only [fileWrites, hpl, List.filter_cons, List.filter_nil, hpath, TreeWrite.path,
        Option.some.injEq]
      by_cases hp : e.2 = p
      · simp only [hp, decide_true, if_true, List.foldl_cons, List.foldl_nil, TreeWrite.on,
          place_isGVKMatch hpl, Option.getD_some]
      · simp only [hp, decide_false, Bool.false_eq_true, if_false, List.foldl_nil]

theorem reaches_fileWrites {α : Type} {f : ForOwners} {obj owner : α → ObjectReference}
    {x : α → Filed V} {l : List α} {p : List SdkObjectReference} :
    (∃ w ∈ l.flatMap fun a => fileWrites cfg inv f (obj a) (owner a) (x a), w.Reaches p) ↔
      ∃ a ∈ l, ∃ q, placePath cfg inv f (obj a) (owner a) = some q ∧ p <+: q := by
  have hone : ∀ a, (∃ w ∈ fileWrites cfg inv f (obj a) (owner a) (x a), w.Reaches p) ↔
      ∃ q, placePath cfg inv f (obj a) (owner a) = some q ∧ p <+: q := by
    intro a
    unfold fileWrites placePath
    cases place cfg inv f (obj a) (owner a) with
    | none => simp only [List.not_mem_nil, false_and, exists_false, Option.map_none, reduceCtorEq]
    | some e => simp only [List.mem_singleton, exists_eq_left, TreeWrite.Reaches, Option.map_some,
        Option.some.injEq, exists_eq_left']
  simp only [List.mem_flatMap, ← hone]
  constructor
  · rintro ⟨w, ⟨a, ha, hw⟩, hreach⟩
    exact ⟨a, ha, w, hw, hreach⟩
  · rintro ⟨a, ha, w, hw, hreach⟩
    exact ⟨w, ⟨a, ha, hw⟩, hreach⟩

theorem foldl_write_conditions (kc : Condition → GvkKindCtx V) (ds : List Condition)
    (ctx : ResourceCtx V) (hfailed : ctx.failed = false) :
    ds.foldl (fun ctx c => ctx.write (kc c) (.condition c) false false) ctx =
      { ctx with existingCondition := ds.getLast?.or ctx.existingCondition } := by
  induction ds using List.reverseRecOn with
  | nil => rfl
  | append_singleton ds c ih =>
    rw [List.foldl_append, ih, List.getLast?_concat]
    simp only [List.foldl_cons, List.foldl_nil, ResourceCtx.write, hfailed, Option.some_or]

theorem foldl_write_objects (kc : KubeObject V → GvkKindCtx V) (ds : List (KubeObject V))
    (ctx : ResourceCtx V) (hfailed : ctx.failed = false) :
    ds.foldl (fun ctx o => ctx.write (kc o) (.object o) false false) ctx =
      { ctx with
        kindCtx := (ds.getLast?.map kc).or ctx.kindCtx
        existingResource := ds.getLast?.or ctx.existingResource } := by
  induction ds using List.reverseRecOn with
  | nil => rfl
  | append_singleton ds o ih =>
    rw [List.foldl_append, ih, List.getLast?_concat]
    simp only [List.foldl_cons, List.foldl_nil, ResourceCtx.write, hfailed, Option.some_or,
      Bool.false_eq_true, if_false, Option.map_some]

/-- A path is there after filing when something is filed at or below it. -/
theorem isSome_find_filings {p : List SdkObjectReference} (hp : p ≠ []) :
    ((TreeWrite.applyAll (filings cfg inv cs os) .empty).find p).isSome ↔
      Reached cfg inv cs os p := by
  have hempty : ((Resources.empty : Resources V).find p).isSome = false := by
    rw [Resources.find_empty, if_neg hp]
    rfl
  rw [TreeWrite.isSome_find_applyAll, hempty]
  simp only [Bool.false_eq_true, false_or, filings, List.mem_append, or_and_right, exists_or,
    reaches_fileWrites, Reached, resourcesOf, List.mem_map, exists_exists_and_eq_and]

/-- **What the inventory holds**: the last condition and the last item filed at a path. -/
theorem ctxAt_filings (p : List SdkObjectReference) :
    (TreeWrite.applyAll (filings cfg inv cs os) .empty).ctxAt p = filedCtx cfg inv cs os p := by
  have hempty : (Resources.empty : Resources V).ctxAt p = {} := Resources.find_empty_getD p
  rw [TreeWrite.ctxAt_applyAll, filings, List.filter_append, List.foldl_append, hempty,
    filter_fileWrites, filter_fileWrites, foldl_write_conditions _ _ _ rfl,
    foldl_write_objects _ _ _ rfl]
  change ResourceCtx.mk
    (((itemAt cfg inv cs os p).map fun o => (inv.isGVKMatch o.ref).getD _).or none)
    ((conditionAt cfg inv cs p).or none) ((itemAt cfg inv cs os p).or none) none false = _
  simp only [Option.or_none, filedCtx]
  -- a filed item has a role, and its context is what it is filed with
  cases hlast : itemAt cfg inv cs os p with
  | none => rfl
  | some o =>
    obtain ⟨-, hpath⟩ := mem_of_itemAt hlast
    obtain ⟨e, hpl, -⟩ := Option.map_eq_some_iff.mp hpath
    simp only [Option.map_some, Option.bind_some, place_isGVKMatch hpl, Option.getD_some]

theorem keysNodup_filings (hfresh : inv.Fresh cfg) (n : Nat) :
    ((inv.write (filings cfg inv cs os)).resources).KeysNodup n := by
  rw [Inv.resources_write, hfresh.resources]
  exact TreeWrite.keysNodup_applyAll (Resources.keysNodup_empty n) _

theorem find_filings (hfresh : inv.Fresh cfg) {p : List SdkObjectReference} (hp : p ≠ [])
    {ctx : ResourceCtx V} :
    (inv.write (filings cfg inv cs os)).resources.find p = some ctx ↔
      Reached cfg inv cs os p ∧ ctx = filedCtx cfg inv cs os p := by
  rw [Inv.resources_write, hfresh.resources, Resources.find_eq_some_iff, isSome_find_filings hp,
    ctxAt_filings]

/-- An item filed at a path is there, and what is there at a path was filed at it. -/
theorem existingResource_filings (hfresh : inv.Fresh cfg) {p : List SdkObjectReference}
    (hp : p ≠ []) {o : KubeObject V} :
    (∃ ctx, (inv.write (filings cfg inv cs os)).resources.find p = some ctx ∧
      ctx.existingResource = some o) ↔ itemAt cfg inv cs os p = some o := by
  simp only [find_filings hfresh hp]
  constructor
  · rintro ⟨ctx, ⟨-, rfl⟩, ho⟩
    exact ho
  · intro ho
    obtain ⟨hmem, hpath⟩ := mem_of_itemAt ho
    refine ⟨_, ⟨⟨(o.ref, getGVKNFromConditionType o.owner), ?_, p, hpath, List.prefix_refl p⟩, rfl⟩,
      ho⟩
    exact List.mem_append_right _ (List.mem_map_of_mem hmem)

/-- The same for the conditions. -/
theorem existingCondition_filings (hfresh : inv.Fresh cfg) {p : List SdkObjectReference}
    (hp : p ≠ []) {c : Condition} :
    (∃ ctx, (inv.write (filings cfg inv cs os)).resources.find p = some ctx ∧
      ctx.existingCondition = some c) ↔ conditionAt cfg inv cs p = some c := by
  simp only [find_filings hfresh hp]
  constructor
  · rintro ⟨ctx, ⟨-, rfl⟩, hc⟩
    exact hc
  · intro hc
    obtain ⟨hmem, hpath⟩ := mem_of_conditionAt hc
    refine ⟨_, ⟨⟨(getGVKNFromConditionType c.type, getGVKNFromConditionType c.reason), ?_, p, hpath,
      List.prefix_refl p⟩, rfl⟩, hc⟩
    exact List.mem_append_left _ (List.mem_map_of_mem hmem)

end Reading

end Sdk

end Nephio.CondKptSdk
