import Nephio.Laws.CondKptSdk.Stage1

/-!
# Laws.CondKptSdk.Populate: the inventory after `populateChildren`

Each for-instance writes below itself only, so the order in which they are gone through is not seen
in the inventory. `ctxAt_populate_own` says what the entry of a child is afterwards: as before, with
the last object that the for-instance wants under that reference as the new resource.
-/

namespace Nephio.CondKptSdk

variable {V : Type} {cfg : Config V} {ord : Order} {inv : Inv V}

/-- What `PopulateOwnResourcesFn` answers for a for-instance; where it is not called, no children. -/
def populated (cfg : Config V) (inv : Inv V) (F : ObjectReference) :
    Except String (List (KubeObject V)) :=
  match cfg.populateOwnResourcesFn, (inv.resources.ctxAt (forPath F)).existingResource with
  | some populateOwn, some forObj => populateOwn F forObj
  | _, _ => .ok []

/-- The objects a for-instance wants as children; none where `PopulateOwnResourcesFn` fails. -/
def desired (cfg : Config V) (inv : Inv V) (F : ObjectReference) : List (KubeObject V) :=
  match populated cfg inv F with
  | .ok objs => objs
  | .error _ => []

/-- The last object a for-instance wants under a reference, with its owner set. -/
def desiredObj (cfg : Config V) (inv : Inv V) (F ref : ObjectReference) : Option (KubeObject V) :=
  ((desired cfg inv F).filter fun obj => obj.ref = ref).getLast?.map (owned F)

/-- The turn of a for-instance. -/
theorem populateForScript_eq (F : ObjectReference) :
    populateForScript cfg inv F (inv.resources.ctxAt (forPath F)) =
      match populated cfg inv F with
      | .error err => setForScript F (Sdk.populateFailedMsg err) .conditionFalse true
      | .ok objs => .flatMap objs (populateChildScript inv F) := by
  unfold populateForScript populated
  cases cfg.populateOwnResourcesFn with
  | none => rfl
  | some populateOwn =>
    cases (inv.resources.ctxAt (forPath F)).existingResource with
    | none => rfl
    | some forObj => rfl

/-- A wanted object is filed under its role; a for object is refused. -/
theorem tree_populateChildScript (F : ObjectReference) (obj : KubeObject V) :
    (populateChildScript inv F obj).tree =
      match inv.isGVKMatch obj.ref with
      | none => []
      | some kc =>
        if kc.gvkKind = .forGVKKind then []
        else [.set kc (.object (owned F obj)) true false
          [⟨.forGVKKind, F⟩, ⟨kc.gvkKind, obj.ref⟩]] := by
  unfold populateChildScript
  cases inv.isGVKMatch obj.ref with
  | none => rfl
  | some kc =>
    simp only [getSdkRefs]
    split_ifs <;> rfl

/-- A for-instance's turn writes at or below the for-instance. -/
theorem path_populateForScript {F : ObjectReference} {res : ResourceCtx V} {w : TreeWrite V}
    (h : w ∈ (populateForScript cfg inv F res).tree) :
    ∃ rest, w.path = ⟨.forGVKKind, F⟩ :: rest := by
  unfold populateForScript at h
  split at h
  · split at h
    · unfold setForScript at h
      split_ifs at h
      · rw [List.mem_singleton.mp h]
        exact ⟨[], rfl⟩
      · cases h
    · obtain ⟨obj, -, hw⟩ := List.mem_flatMap.mp h
      rw [tree_populateChildScript] at hw
      split at hw
      · cases hw
      · split_ifs at hw
        · cases hw
        · rw [List.mem_singleton.mp hw]
          exact ⟨_, rfl⟩
  · cases h

/-- The inventory after `populateChildren`. -/
def populatedInv (cfg : Config V) (ord : Order) (inv : Inv V) : Inv V :=
  inv.write (populateScript cfg ord inv).tree

theorem mem_range_for (hnd : inv.resources.KeysNodup 2) {site : RangeSite} {F : ObjectReference}
    {res : ResourceCtx V} :
    (F, res) ∈ ord.range site (inv.get .forGVKKind [{}]) ↔
      inv.resources.find (forPath F) = some res := by
  rw [(ord.perm _ _).mem_iff]
  exact Inv.mem_get_top hnd (k := .forGVKKind) nofun

theorem nodup_range_for (hnd : inv.resources.KeysNodup 2) (site : RangeSite) :
    (Keyed.keys Prod.fst (ord.range site (inv.get .forGVKKind [{}]))).Nodup :=
  ((ord.perm _ _).map Prod.fst).nodup_iff.mpr (Inv.nodup_get_top hnd (k := .forGVKKind) nofun)

/-- The writes made at a path below a for-instance are those of its turn. -/
theorem filter_populateScript (hnd : inv.resources.KeysNodup 2) {F : ObjectReference}
    (hF : (inv.resources.find (forPath F)).isSome) (rest : List SdkObjectReference) :
    (populateScript cfg ord inv).tree.filter (fun w => w.path = ⟨.forGVKKind, F⟩ :: rest) =
      (populateForScript cfg inv F (inv.resources.ctxAt (forPath F))).tree.filter
        fun w => w.path = ⟨.forGVKKind, F⟩ :: rest := by
  obtain ⟨res, hres⟩ := Option.isSome_iff_exists.mp hF
  have hctx : res = inv.resources.ctxAt (forPath F) := (Resources.find_eq_some_iff.mp hres).2
  rw [populateScript, Script.tree_flatMap, List.filter_flatMap, ← hctx]
  refine Keyed.flatMap_of_key Prod.fst (nodup_range_for hnd _) ((mem_range_for hnd).mpr hres) ?_
  intro e he hne
  rw [List.filter_eq_nil_iff]
  intro w hw
  obtain ⟨rest', hpath⟩ := path_populateForScript hw
  simp only [hpath, List.cons.injEq, SdkObjectReference.mk.injEq, true_and, decide_eq_true_eq,
    not_and]
  exact fun heq => absurd heq hne

theorem ctxAt_populate (hnd : inv.resources.KeysNodup 2) {F : ObjectReference}
    (hF : (inv.resources.find (forPath F)).isSome) (rest : List SdkObjectReference) :
    (populatedInv cfg ord inv).resources.ctxAt (⟨.forGVKKind, F⟩ :: rest) =
      ((populateForScript cfg inv F (inv.resources.ctxAt (forPath F))).tree.filter
        fun w => w.path = ⟨.forGVKKind, F⟩ :: rest).foldl (fun ctx w => w.on ctx)
        (inv.resources.ctxAt (⟨.forGVKKind, F⟩ :: rest)) := by
  rw [populatedInv, Inv.resources_write, TreeWrite.ctxAt_applyAll, filter_populateScript hnd hF]

/-- The for-instance itself changes only where `PopulateOwnResourcesFn` fails for it. -/
theorem ctxAt_populate_for (hnd : inv.resources.KeysNodup 2) {F : ObjectReference}
    (hF : (inv.resources.find (forPath F)).isSome) :
    (populatedInv cfg ord inv).resources.ctxAt (forPath F) =
      match populated cfg inv F with
      | .ok _ => inv.resources.ctxAt (forPath F)
      | .error err =>
        if F.Named then
          { inv.resources.ctxAt (forPath F) with
            failed := true
            existingCondition := some (forCondition F (Sdk.populateFailedMsg err) .conditionFalse) }
        else inv.resources.ctxAt (forPath F) := by
  refine (ctxAt_populate hnd hF []).trans ?_
  rw [populateForScript_eq]
  cases populated cfg inv F with
  | ok objs =>
    rw [List.filter_eq_nil_iff.mpr]
    · rfl
    · intro w hw
      obtain ⟨obj, -, hw⟩ := List.mem_flatMap.mp hw
      rw [tree_populateChildScript] at hw
      split at hw
      · cases hw
      · split_ifs at hw
        · cases hw
        · rw [List.mem_singleton.mp hw]
          simp only [TreeWrite.path, List.cons.injEq, reduceCtorEq, and_false, decide_false,
            Bool.false_eq_true, not_false_eq_true]
  | error err =>
    by_cases hnamed : F.Named
    · simp only [setForScript, hnamed, if_true, List.filter_cons, List.filter_nil, TreeWrite.path,
        forPath, decide_true, List.foldl_cons, List.foldl_nil, TreeWrite.on, ResourceCtx.write]
    · simp only [setForScript, hnamed, if_false, List.filter_nil, List.foldl_nil, forPath]

theorem foldl_write_new (kc : GvkKindCtx V) (os : List (KubeObject V)) (ctx : ResourceCtx V) :
    os.foldl (fun ctx o => ctx.write kc (.object o) true false) ctx =
      match os.getLast? with
      | some o => { ctx with failed := false, kindCtx := some kc, newResource := some o }
      | none => ctx := by
  induction os using List.reverseRecOn with
  | nil => rfl
  | append_singleton os o ih =>
    rw [List.foldl_append, ih, List.getLast?_concat]
    cases os.getLast? <;> rfl

/-- The writes of a for-instance's turn at one of its own children, in their order. -/
theorem filter_populateChild_own (F ref : ObjectReference) (objs : List (KubeObject V))
    {kc : GvkKindCtx V} (hkc : inv.isGVKMatch ref = some kc) (hown : kc.gvkKind = .ownGVKKind)
    (ctx : ResourceCtx V) :
    ((objs.flatMap fun obj => (populateChildScript inv F obj).tree).filter
        fun w => w.path = ownPath F ref).foldl (fun ctx w => w.on ctx) ctx =
      ((objs.filter fun obj => obj.ref = ref).map (owned F)).foldl
        (fun ctx o => ctx.write kc (.object o) true false) ctx := by
  induction objs generalizing ctx with
  | nil => rfl
  | cons obj objs ih =>
    rw [List.flatMap_cons, List.filter_append, List.foldl_append, ih]
    by_cases href : obj.ref = ref
    · simp only [tree_populateChildScript, href, hkc, hown, reduceCtorEq, if_false, List.filter_cons, List.filter_nil,
        TreeWrite.path, ownPath, decide_true, if_true, List.foldl_cons, List.foldl_nil,
        TreeWrite.on, List.map_cons]
    · have hother : (populateChildScript inv F obj).tree.filter (fun w => w.path = ownPath F ref) =
          [] := by
        rw [List.filter_eq_nil_iff, tree_populateChildScript]
        intro w hw
        split at hw
        · cases hw
        · split_ifs at hw
          · cases hw
          · rw [List.mem_singleton.mp hw]
            simp only [TreeWrite.path, ownPath, List.cons.injEq, SdkObjectReference.mk.injEq,
              and_true, href, and_false, decide_false, Bool.false_eq_true,
              not_false_eq_true]
      rw [hother, List.filter_cons_of_neg (by simpa using href)]
      rfl

/-- **The entry of a child**: as before, with the last object wanted under its reference as the new
resource. -/
theorem ctxAt_populate_own (hnd : inv.resources.KeysNodup 2) {F ref : ObjectReference}
    (hF : (inv.resources.find (forPath F)).isSome) (hrole : inv.role ref = some .ownGVKKind) :
    (populatedInv cfg ord inv).resources.ctxAt (ownPath F ref) =
      match desiredObj cfg inv F ref with
      | some o => { inv.resources.ctxAt (ownPath F ref) with
                    failed := false, kindCtx := inv.isGVKMatch ref, newResource := some o }
      | none => inv.resources.ctxAt (ownPath F ref) := by
  obtain ⟨kc, hkc, hown⟩ := Inv.role_eq_some.mp hrole
  refine (ctxAt_populate hnd hF [⟨.ownGVKKind, ref⟩]).trans ?_
  rw [populateForScript_eq, desiredObj, desired]
  cases populated cfg inv F with
  | ok objs =>
    refine (filter_populateChild_own F ref objs hkc hown _).trans ?_
    rw [foldl_write_new, List.getLast?_map, hkc]
    rfl
  | error err =>
    rw [List.filter_eq_nil_iff.mpr]
    · rfl
    · intro w hw
      dsimp only at hw
      unfold setForScript at hw
      split_ifs at hw
      · rw [List.mem_singleton.mp hw]
        simp only [TreeWrite.path, forPath, List.cons.injEq, reduceCtorEq, and_false, decide_false,
          Bool.false_eq_true, not_false_eq_true]
      · cases hw

theorem isSome_populate_for (hnd : inv.resources.KeysNodup 2) {F : ObjectReference} :
    ((populatedInv cfg ord inv).resources.find (forPath F)).isSome ↔
      (inv.resources.find (forPath F)).isSome := by
  rw [populatedInv, Inv.resources_write, TreeWrite.isSome_find_applyAll, or_iff_left_iff_imp]
  rintro ⟨w, hw, hreach⟩
  obtain ⟨⟨F', res⟩, he, hw⟩ := List.mem_flatMap.mp hw
  obtain ⟨rest, hpath⟩ := path_populateForScript hw
  cases w with
  | clear path => cases hreach
  | set kc x newResource failed path =>
    simp only [TreeWrite.path] at hpath
    simp only [TreeWrite.Reaches, hpath, forPath, List.cons_prefix_cons,
      SdkObjectReference.mk.injEq, true_and, List.nil_prefix, and_true] at hreach
    rw [hreach, (mem_range_for hnd).mp he]
    rfl

/-- What a for-instance's turn files at a child is below the for-instance, and has the own role. -/
theorem reaches_populateForScript {F F' ref : ObjectReference} {res : ResourceCtx V}
    {w : TreeWrite V} (hw : w ∈ (populateForScript cfg inv F res).tree)
    (hreach : w.Reaches (ownPath F' ref)) : F' = F ∧ inv.role ref = some .ownGVKKind := by
  unfold populateForScript at hw
  split at hw
  · split at hw
    · unfold setForScript at hw
      split_ifs at hw
      · rw [List.mem_singleton.mp hw] at hreach
        simp only [TreeWrite.Reaches, ownPath, forPath, List.cons_prefix_cons, List.prefix_nil,
          reduceCtorEq, and_false] at hreach
      · cases hw
    · obtain ⟨obj, -, hw⟩ := List.mem_flatMap.mp hw
      rw [tree_populateChildScript] at hw
      split at hw
      · cases hw
      · next kc hkc =>
        split_ifs at hw with hfor
        · cases hw
        · rw [List.mem_singleton.mp hw] at hreach
          simp only [TreeWrite.Reaches, ownPath, List.cons_prefix_cons, true_and,
            SdkObjectReference.mk.injEq, List.nil_prefix, and_true] at hreach
          obtain ⟨hF, hkind, href⟩ := hreach
          exact ⟨hF, Inv.role_eq_some.mpr ⟨kc, href ▸ hkc, hkind.symm⟩⟩
  · cases hw

theorem isSome_desiredObj {F ref : ObjectReference} :
    (desiredObj cfg inv F ref).isSome ↔ ∃ obj ∈ desired cfg inv F, obj.ref = ref := by
  simp only [desiredObj, Option.isSome_map, List.getLast?_isSome, ne_eq, List.filter_eq_nil_iff,
    decide_eq_true_eq, not_forall, not_not, exists_prop]

/-- The new own children that a for-instance's turn files. -/
theorem mem_tree_populateForScript {F ref : ObjectReference}
    (hrole : inv.role ref = some .ownGVKKind) :
    (∃ w ∈ (populateForScript cfg inv F (inv.resources.ctxAt (forPath F))).tree,
      w.Reaches (ownPath F ref)) ↔ (desiredObj cfg inv F ref).isSome := by
  obtain ⟨kc, hkc, hown⟩ := Inv.role_eq_some.mp hrole
  rw [isSome_desiredObj, populateForScript_eq, desired]
  cases populated cfg inv F with
  | error err =>
    simp only [List.not_mem_nil, false_and, exists_false, iff_false]
    rintro ⟨w, hw, hreach⟩
    unfold setForScript at hw
    split_ifs at hw
    · rw [List.mem_singleton.mp hw] at hreach
      simp only [TreeWrite.Reaches, ownPath, forPath, List.cons_prefix_cons, true_and,
        List.prefix_nil, reduceCtorEq] at hreach
    · cases hw
  | ok objs =>
    constructor
    · rintro ⟨w, hw, hreach⟩
      obtain ⟨obj, hobj, hw⟩ := List.mem_flatMap.mp hw
      refine ⟨obj, hobj, ?_⟩
      rw [tree_populateChildScript] at hw
      split at hw
      · cases hw
      · split_ifs at hw
        · cases hw
        · rw [List.mem_singleton.mp hw] at hreach
          simp only [TreeWrite.Reaches, ownPath, List.cons_prefix_cons, true_and,
            SdkObjectReference.mk.injEq, List.nil_prefix, and_true] at hreach
          exact hreach.2.symm
    · rintro ⟨obj, hobj, rfl⟩
      refine ⟨.set kc (.object (owned F obj)) true false (ownPath F obj.ref),
        List.mem_flatMap.mpr ⟨obj, hobj, ?_⟩, List.prefix_refl _⟩
      simp only [tree_populateChildScript, hkc, hown, reduceCtorEq, if_false, ownPath,
        List.mem_singleton]

/-- A child is there afterwards if it was, or if its for-instance wants it. -/
theorem isSome_populate_own (hnd : inv.resources.KeysNodup 2) {F ref : ObjectReference}
    (hrole : inv.role ref = some .ownGVKKind) :
    ((populatedInv cfg ord inv).resources.find (ownPath F ref)).isSome ↔
      (inv.resources.find (ownPath F ref)).isSome ∨
        ((inv.resources.find (forPath F)).isSome ∧ (desiredObj cfg inv F ref).isSome) := by
  have hfrom : (∃ w ∈ (populateScript cfg ord inv).tree, w.Reaches (ownPath F ref)) ↔
      (inv.resources.find (forPath F)).isSome ∧ (desiredObj cfg inv F ref).isSome := by
    rw [← mem_tree_populateForScript hrole]
    constructor
    · rintro ⟨w, hw, hreach⟩
      obtain ⟨⟨F', res⟩, he, hw⟩ := List.mem_flatMap.mp hw
      have hfind := (mem_range_for hnd).mp he
      obtain ⟨rest, hpath⟩ := path_populateForScript hw
      cases w with
      | clear path => cases hreach
      | set kc x newResource failed path =>
        simp only [TreeWrite.path] at hpath
        have hFF' : F = F' := by
          simp only [TreeWrite.Reaches, hpath, ownPath, List.cons_prefix_cons,
            SdkObjectReference.mk.injEq, true_and] at hreach
          exact hreach.1
        subst hFF'
        rw [(Resources.find_eq_some_iff.mp hfind).2] at hw
        exact ⟨Option.isSome_iff_exists.mpr ⟨res, hfind⟩, _, hw, hreach⟩
    · rintro ⟨hF, w, hw, hreach⟩
      obtain ⟨res, hres⟩ := Option.isSome_iff_exists.mp hF
      refine ⟨w, List.mem_flatMap.mpr ⟨(F, res), (mem_range_for hnd).mpr hres, ?_⟩, hreach⟩
      rw [(Resources.find_eq_some_iff.mp hres).2]
      exact hw
  rw [populatedInv, Inv.resources_write, TreeWrite.isSome_find_applyAll, hfrom]

end Nephio.CondKptSdk
