import Nephio.Laws.CondKptSdk.Ends

/-!
# Laws.CondKptSdk.Isolation: for-instances do not interfere

All for-instances share one inventory, one list of conditions and one list of items, which the
stages of a Run change in place. Two Runs whose callbacks agree on every for-instance but one leave
the others, and their children, in the same state: whatever `PopulateOwnResourcesFn` and
`UpdateResourceFn` answer for that one, errors included.

What a Run writes below a for-instance in the inventory depends on the writes below it only, so the
two inventories agree there entry by entry and in the order of their maps (`child_applyAll`). That
order is what `UpdateResourceFn` is given its objects in. The premise is that no child is wanted,
held or returned for two for-instances, and that the for objects returned are one's own: the sdk
files what is returned without a look at whose it is.
-/

namespace Nephio.CondKptSdk

variable {V : Type}

/-! ## The part of the tree below a key -/

namespace TreeWrite

/-- A write at or below a key of the top level. -/
def under (k : SdkObjectReference) (w : TreeWrite V) : Bool := w.path.head? = some k

/-- What a write below a key makes of what is there. -/
def below : TreeWrite V → Option (Resources V) → Option (Resources V)
  | .set kc x newResource failed path, next =>
    some ((next.getD .empty).set kc x newResource failed path.tail)
  | .clear path, next => next.map (TreeWrite.clear path.tail).apply

theorem child_apply (w : TreeWrite V) (k : SdkObjectReference) (r : Resources V) :
    (w.apply r).child k = if w.under k then w.below (r.child k) else r.child k := by
  obtain ⟨ctx, rs⟩ := r
  cases w with
  | set kc x newResource failed path =>
    cases path with
    | nil => rfl
    | cons ref refs =>
      simp only [apply, Resources.set, Resources.child_upsert, under, path, below, List.head?_cons,
        Option.some.injEq, decide_eq_true_eq, List.tail_cons]
      by_cases href : ref = k
      · rw [if_pos href, if_pos href, href]
      · rw [if_neg href, if_neg href]
  | clear path =>
    cases path with
    | nil => rfl
    | cons ref refs =>
      simp only [apply, Resources.delete, under, below, TreeWrite.path, List.head?_cons,
        Option.some.injEq, decide_eq_true_eq, List.tail_cons]
      cases hchild : (Resources.node ctx rs).child ref with
      | none =>
        by_cases href : ref = k
        · rw [if_pos href, ← href, hchild]
          rfl
        · rw [if_neg href]
      | some next =>
        simp only [bind, Except.bind, pure, Except.pure]
        cases hdelete : next.delete refs with
        | error err =>
          by_cases href : ref = k
          · rw [if_pos href, ← href, hchild]
            simp only [Option.map_some, apply, hdelete]
          · rw [if_neg href]
        | ok next' =>
          rw [Resources.child_upsert]
          by_cases href : ref = k
          · rw [if_pos href, if_pos href, ← href, hchild]
            simp only [Option.map_some, apply, hdelete]
          · rw [if_neg href, if_neg href]

/-- **What is below a key** comes from the writes below it. -/
theorem child_applyAll (ws : List (TreeWrite V)) (k : SdkObjectReference) (r : Resources V) :
    (applyAll ws r).child k =
      (ws.filter (under k)).foldl (fun next w => w.below next) (r.child k) := by
  induction ws generalizing r with
  | nil => rfl
  | cons w ws ih =>
    rw [applyAll, List.foldl_cons, ← applyAll, ih, child_apply]
    cases hunder : w.under k with
    | true => rw [if_pos rfl, List.filter_cons_of_pos hunder, List.foldl_cons]
    | false => rw [if_neg (by decide), List.filter_cons_of_neg (by rw [hunder]; decide)]

end TreeWrite

section Below

variable {inv inv' : Inv V} {G : ObjectReference}
  (hchild : inv'.resources.child ⟨.forGVKKind, G⟩ = inv.resources.child ⟨.forGVKKind, G⟩)

include hchild

theorem find_for_congr : inv'.resources.find (forPath G) = inv.resources.find (forPath G) := by
  simp only [forPath, Resources.find_cons, hchild]

variable (hG : G ≠ {})

include hG

theorem get_under_congr {k : GvkKind} (hk : k ≠ .forGVKKind) :
    inv'.get k [G, {}] = inv.get k [G, {}] := by
  rw [Inv.get_under hk hG, Inv.get_under hk hG, hchild]

/-- What stage 2 reads of a for-instance. -/
theorem readyCtxOf_congr : inv'.readyCtxOf G = inv.readyCtxOf G := by
  unfold Inv.readyCtxOf Resources.ctxAt
  rw [find_for_congr hchild, get_under_congr hchild hG (by decide),
    get_under_congr hchild hG (by decide)]

variable [DecidableEq V] {ord : Order}

/-- What the diff reads of a for-instance. -/
theorem forDelta_congr (hready : inv'.ready = inv.ready) (forRes : ResourceCtx V) :
    forDelta ord inv' G forRes = forDelta ord inv G forRes := by
  unfold forDelta
  rw [get_under_congr hchild hG (by decide), hready]

/-- The writes of `updateChildren` below a for-instance. -/
theorem filter_readyScript_under (hnd : inv.resources.KeysNodup 2)
    (hnd' : inv'.resources.KeysNodup 2) (hready : inv'.ready = inv.ready) :
    (readyScript ord inv').tree.filter (TreeWrite.under ⟨.forGVKKind, G⟩) =
      (readyScript ord inv).tree.filter (TreeWrite.under ⟨.forGVKKind, G⟩) := by
  cases hfind : inv.resources.find (forPath G) with
  | none =>
    have hnil : ∀ {inv : Inv V}, inv.resources.KeysNodup 2 →
        inv.resources.find (forPath G) = none →
        (readyScript ord inv).tree.filter (TreeWrite.under ⟨.forGVKKind, G⟩) = [] := by
      intro inv hnd hnone
      refine List.filter_eq_nil_iff.mpr fun w hw hunder => ?_
      obtain ⟨hsome, hpath⟩ := isSome_of_mem_readyScript hnd hw
      have hpre : forPath G <+: w.path := by
        have hhead : w.path.head? = some ⟨.forGVKKind, G⟩ := of_decide_eq_true hunder
        rcases hpath with ⟨F, hpath⟩ | ⟨F, ref, hpath⟩ <;>
          rw [hpath] at hhead ⊢ <;> cases hhead
        · exact List.prefix_refl _
        · exact ⟨[_], rfl⟩
      have hfor := Resources.isSome_find_of_prefix hpre hsome
      rw [hnone] at hfor
      cases hfor
    rw [hnil hnd hfind, hnil hnd' ((find_for_congr hchild).trans hfind)]
  | some forRes =>
    have hof : ∀ {inv : Inv V}, inv.resources.KeysNodup 2 →
        inv.resources.find (forPath G) = some forRes →
        (readyScript ord inv).tree.filter (TreeWrite.under ⟨.forGVKKind, G⟩) =
          (diffScript G (forDelta ord inv G forRes)).tree.filter
            (TreeWrite.under ⟨.forGVKKind, G⟩) := by
      intro inv hnd hforRes
      rw [readyScript, Script.tree_flatMap,
        filter_flatMap_diffs hnd (perm_sortByRef _ _) hforRes]
      intro F d hne _ w hw
      refine decide_eq_false fun hhead => ?_
      rcases path_of_mem_tree hw with ⟨-, hpath⟩ | ⟨s, -, -, hpath⟩ <;>
        rw [hpath] at hhead <;> cases hhead <;> exact hne rfl
    rw [hof hnd hfind, hof hnd' ((find_for_congr hchild).trans hfind),
      forDelta_congr hchild hG hready]

end Below

/-! ## Callbacks that agree off one for-instance -/

/-- Two configurations of one function, whose callbacks agree on every for-instance but `F`. -/
structure Config.AgreeOff (F : ObjectReference) (cfg cfg' : Config V) : Prop where
  root : cfg'.root = cfg.root
  forRef : cfg'.forRef = cfg.forRef
  owns : cfg'.owns = cfg.owns
  watch : cfg'.watch = cfg.watch
  populates : ∀ G, G ≠ F → ∀ o,
    cfg'.populateOwnResourcesFn.map (fun populate => populate G o) =
      cfg.populateOwnResourcesFn.map fun populate => populate G o
  updates : ∀ G, G ≠ F → ∀ o objs,
    cfg'.updateResourceFn.map (fun update => update G o objs) =
      cfg.updateResourceFn.map fun update => update G o objs

namespace Config.AgreeOff

variable {F G : ObjectReference} {cfg cfg' : Config V} (hagree : cfg.AgreeOff F cfg')

include hagree

theorem eq : cfg' = { cfg with
    populateOwnResourcesFn := cfg'.populateOwnResourcesFn
    updateResourceFn := cfg'.updateResourceFn } := by
  obtain ⟨root, forRef, owns, watch, populate, update⟩ := cfg
  obtain ⟨root', forRef', owns', watch', populate', update'⟩ := cfg'
  obtain ⟨rfl, rfl, rfl, rfl, -, -⟩ := hagree
  rfl

theorem updates_isSome (hG : G ≠ F) : cfg'.updateResourceFn.isSome = cfg.updateResourceFn.isSome := by
  have h := congrArg Option.isSome (hagree.updates G hG none [])
  rwa [Option.isSome_map, Option.isSome_map] at h

theorem populating : cfg.populating.AgreeOff F cfg'.populating := by
  unfold Config.populating
  rw [hagree.owns]
  split_ifs
  · exact ⟨hagree.root, hagree.forRef, rfl, hagree.watch, fun _ _ _ => rfl, hagree.updates⟩
  · exact hagree

theorem populateForScript (hG : G ≠ F) (inv : Inv V) (res : ResourceCtx V) :
    populateForScript cfg' inv G res = populateForScript cfg inv G res := by
  unfold CondKptSdk.populateForScript
  cases res.existingResource with
  | none =>
    cases cfg.populateOwnResourcesFn <;> cases cfg'.populateOwnResourcesFn <;> rfl
  | some o =>
    have hpop := hagree.populates G hG o
    cases hfn : cfg.populateOwnResourcesFn with
    | none =>
      rw [hfn, Option.map_none, Option.map_eq_none_iff] at hpop
      rw [hpop]
    | some populate =>
      rw [hfn, Option.map_some] at hpop
      obtain ⟨populate', hfn', hpop⟩ := Option.map_eq_some_iff.mp hpop
      simp only [hfn', hpop]

/-- The writes of `populateChildren` below another for-instance. -/
theorem filter_populateScript (hG : G ≠ F) (ord : Order) (inv : Inv V) :
    (populateScript cfg' ord inv).tree.filter (TreeWrite.under ⟨.forGVKKind, G⟩) =
      (populateScript cfg ord inv).tree.filter (TreeWrite.under ⟨.forGVKKind, G⟩) := by
  rw [populateScript, populateScript, Script.tree_flatMap, Script.tree_flatMap,
    List.filter_flatMap, List.filter_flatMap]
  refine List.flatMap_congr fun e _ => ?_
  by_cases he : e.1 = G
  · rw [he, hagree.populateForScript hG]
  · have hnil : ∀ cfg : Config V, (CondKptSdk.populateForScript cfg inv e.1 e.2).tree.filter
        (TreeWrite.under ⟨.forGVKKind, G⟩) = [] := by
      intro cfg
      refine List.filter_eq_nil_iff.mpr fun w hw hunder => ?_
      obtain ⟨rest, hpath⟩ := path_populateForScript hw
      have hhead : w.path.head? = some ⟨.forGVKKind, G⟩ := of_decide_eq_true hunder
      rw [hpath] at hhead
      cases hhead
      exact he rfl
    rw [hnil, hnil]

theorem newInventory_eq (hG : G ≠ F) : newInventory cfg' = newInventory cfg := by
  have hnone : cfg'.updateResourceFn.isNone = cfg.updateResourceFn.isNone := by
    rw [← Option.not_isSome, ← Option.not_isSome, hagree.updates_isSome hG]
  unfold newInventory Inv.initializeGVKInventory
  rw [hagree.forRef, hagree.owns, hagree.watch, hnone]

end Config.AgreeOff

namespace Sdk

section Views

variable {F G : ObjectReference} {cfg cfg' : Config V} (hagree : cfg.AgreeOff F cfg') {r : Sdk V}

include hagree

theorem filed_agree : r.filed cfg' = r.filed cfg := by
  rw [hagree.eq]
  rfl

theorem ensured_agree : r.ensured cfg' = r.ensured cfg := by
  unfold ensured
  rw [hagree.root]

theorem runWatches_agree (ord : Order) : r.runWatches cfg' ord = r.runWatches cfg ord := by
  rw [hagree.eq]
  rfl

theorem forInstance_agree : r.ForInstance cfg' G ↔ r.ForInstance cfg G := by
  rw [hagree.eq]
  exact Iff.rfl

variable (hG : G ≠ F)

include hG

theorem wanted_agree : r.wanted cfg' G = r.wanted cfg G := by
  unfold wanted
  cases r.forObj G with
  | none =>
    cases cfg.populating.populateOwnResourcesFn <;>
      cases cfg'.populating.populateOwnResourcesFn <;> rfl
  | some o =>
    have hpop := hagree.populating.populates G hG o
    cases hfn : cfg.populating.populateOwnResourcesFn with
    | none =>
      rw [hfn, Option.map_none, Option.map_eq_none_iff] at hpop
      rw [hpop]
    | some populate =>
      rw [hfn, Option.map_some] at hpop
      obtain ⟨populate', hfn', hpop⟩ := Option.map_eq_some_iff.mp hpop
      simp only [hfn', hpop]

theorem wantedObjs_agree : r.wantedObjs cfg' G = r.wantedObjs cfg G := by
  unfold wantedObjs
  rw [wanted_agree hagree hG]

theorem wants_agree {ref : ObjectReference} : r.Wants cfg' G ref ↔ r.Wants cfg G ref := by
  unfold Wants
  rw [wantedObjs_agree hagree hG]

theorem childCtx_agree (ref : ObjectReference) :
    r.childCtx cfg' G ref = r.childCtx cfg G ref := by
  unfold childCtx wantedObj
  rw [wantedObjs_agree hagree hG]

theorem forCtx_agree : r.forCtx cfg' G = r.forCtx cfg G := by
  unfold forCtx
  rw [wanted_agree hagree hG]

theorem populateEdits_agree : r.populateEdits cfg' G = r.populateEdits cfg G := by
  unfold populateEdits
  rw [wanted_agree hagree hG]

theorem resets_agree [DecidableEq V] : r.Resets cfg' G ↔ r.Resets cfg G := by
  simp only [Resets, forCtx_agree hagree hG, childCtx_agree hagree hG, wants_agree hagree hG]

/-- The inventory that the diff of stage 1 reads, below another for-instance. -/
theorem child_stage1Inv_agree (ord : Order) :
    (stage1Inv cfg' ord r).resources.child ⟨.forGVKKind, G⟩ =
      (stage1Inv cfg ord r).resources.child ⟨.forGVKKind, G⟩ := by
  unfold stage1Inv populatedInv
  rw [filed_agree hagree, Inv.resources_write, Inv.resources_write, TreeWrite.child_applyAll,
    TreeWrite.child_applyAll, hagree.populating.filter_populateScript hG]

end Views

section Stage1

variable [DecidableEq V] {F G : ObjectReference} {cfg cfg' : Config V}
  (hagree : cfg.AgreeOff F cfg') (hG : G ≠ F) {ord : Order} {r r₁ r₁' : Sdk V}
  (hfresh : r.inv.Fresh cfg) (hfresh' : r.inv.Fresh cfg')
  (h : (r.filed cfg).stage1 cfg ord = .ok r₁) (h' : (r.filed cfg').stage1 cfg' ord = .ok r₁')

include hagree hG hfresh hfresh' h h'

/-- **The inventory after stage 1, below another for-instance**: the same, in the same order. -/
theorem child_stage1_agree (hempty : G ≠ {}) :
    r₁'.inv.resources.child ⟨.forGVKKind, G⟩ = r₁.inv.resources.child ⟨.forGVKKind, G⟩ := by
  have hchild := @child_stage1Inv_agree V F G cfg cfg' hagree r hG ord
  rw [inv_of_stage1 hfresh h, inv_of_stage1 hfresh' h', Inv.resources_write, Inv.resources_write,
    TreeWrite.child_applyAll, TreeWrite.child_applyAll, hchild,
    filter_readyScript_under hchild hempty (keysNodup_stage1Inv hfresh)
      (keysNodup_stage1Inv hfresh') rfl]

/-- What stage 2 writes for another for-instance. -/
theorem updateForScript_agree (hempty : G ≠ {}) {updateFn updateFn' : UpdateResourceFn V}
    (hfn : cfg.updateResourceFn = some updateFn) (hfn' : cfg'.updateResourceFn = some updateFn') :
    reply updateFn' ord G (r₁'.inv.readyCtxOf G) = reply updateFn ord G (r₁.inv.readyCtxOf G) ∧
      updateForScript updateFn' ord r₁'.inv G (r₁'.inv.readyCtxOf G) =
        updateForScript updateFn ord r₁.inv G (r₁.inv.readyCtxOf G) := by
  have hupdate : ∀ o objs, updateFn' G o objs = updateFn G o objs := by
    intro o objs
    have hmap := hagree.updates G hG o objs
    rw [hfn, hfn'] at hmap
    exact Option.some.inj hmap
  have hgvk : r₁'.inv.gvkResources = r₁.inv.gvkResources := by
    rw [inv_of_stage1 hfresh h, inv_of_stage1 hfresh' h']
    rfl
  have hscript := funext fun ec => funext fun obj =>
    @updateResourceScript_congr V _ _ hgvk G ec obj
  rw [readyCtxOf_congr (child_stage1_agree hagree hG hfresh hfresh' h h' hempty) hempty]
  unfold reply updateForScript handleUpdateResource
  simp only [hupdate, hscript, and_self]

end Stage1

/-! ## What belongs to a for-instance -/

section Separate

variable [DecidableEq V]

/-- A child that `UpdateResourceFn` returns for a for-instance. -/
def Hands (cfg : Config V) (ord : Order) (r : Sdk V) (G ref : ObjectReference) : Prop :=
  r.inv.role ref = some .ownGVKKind ∧
    ∃ objs, r.answer cfg ord G = some (.ok objs) ∧ ∃ obj ∈ objs, obj.ref = ref

/-- The children of a for-instance in a Run: those of the package, wanted or returned. -/
def ChildOf (cfg : Config V) (ord : Order) (r : Sdk V) (G ref : ObjectReference) : Prop :=
  (r.Owns G ref ∨ r.Wants cfg G ref) ∨ r.Hands cfg ord G ref

/-- Each for-instance has its own children, and returns no other for object. -/
structure Separate (cfg : Config V) (ord : Order) (r : Sdk V) : Prop where
  children : ∀ G G' ref, r.ChildOf cfg ord G ref → r.ChildOf cfg ord G' ref → G = G'
  forObj : ∀ G objs, r.answer cfg ord G = some (.ok objs) → ∀ obj ∈ objs,
    r.inv.role obj.ref = some .forGVKKind → obj.ref = G
  documented : ∀ G ref, r.Hands cfg ord G ref → ref.Documented

end Separate

/-- Two packages hold the same under a reference: its condition, and its items. -/
structure SameAt (ref : ObjectReference) (r r' : Sdk V) : Prop where
  condition : r'.kptfile.getCondition (getConditionType ref) =
    r.kptfile.getCondition (getConditionType ref)
  items : (r'.items.filter fun o => o.ref = ref) = r.items.filter fun o => o.ref = ref

section Ready

variable [DecidableEq V] {F G : ObjectReference} {cfg cfg' : Config V}
  (hagree : cfg.AgreeOff F cfg') (hne : G ≠ F) {ord : Order} {r r₁ r₁' : Sdk V}
  (hfresh : r.inv.Fresh cfg) (hfresh' : r.inv.Fresh cfg')
  (hdoc : r.Documented cfg) (hdoc' : r.Documented cfg')
  (h : (r.filed cfg).stage1 cfg ord = .ok r₁) (h' : (r.filed cfg').stage1 cfg' ord = .ok r₁')

include hagree hne hfresh hfresh' hdoc hdoc' h h'

/-- Stage 1 leaves another for-instance in the same state. -/
theorem stage1_sameAt_for (hG : r.inv.role G = some .forGVKKind) (hGdoc : G.Documented) :
    SameAt G r₁ r₁' := by
  have hother : ∀ {cfg : Config V}, r.Documented cfg → ∀ F ref, r.Owns F ref ∨ r.Wants cfg F ref →
      getConditionType ref ≠ getConditionType G ∧ ref ≠ G := by
    intro cfg hdoc F ref hchild
    have hrole : r.inv.role ref = some .ownGVKKind := hchild.elim And.left And.left
    have href : ref ≠ G := by
      rintro rfl
      rw [hG] at hrole
      cases hrole
    exact ⟨fun heq => href ((hdoc.child hchild).2.injective hGdoc heq), href⟩
  constructor
  · show Keyed.lookup _ _ _ = Keyed.lookup _ _ _
    by_cases hF : r.ForInstance cfg G
    · rw [lookup_stage1_for hfresh hdoc h hF hGdoc,
        lookup_stage1_for hfresh' hdoc' h' ((forInstance_agree hagree).mpr hF) hGdoc,
        populateEdits_agree hagree hne]
      simp only [resets_agree hagree hne]
    · have hfor : ∀ F, r.ForInstance cfg F → F.Documented →
          getConditionType F ≠ getConditionType G :=
        fun F' hF' hdoc' heq => hF (hdoc'.injective hGdoc heq ▸ hF')
      rw [lookup_stage1_other hfresh hdoc h hfor fun F ref hchild => (hother hdoc F ref hchild).1,
        lookup_stage1_other hfresh' hdoc' h'
          (fun F hF hFdoc => hfor F ((forInstance_agree hagree).mp hF) hFdoc)
          fun F ref hchild => (hother hdoc' F ref hchild).1]
  · rw [items_stage1_other hfresh hdoc h fun F hchild => (hother hdoc F G hchild).2 rfl,
      items_stage1_other hfresh' hdoc' h' fun F hchild => (hother hdoc' F G hchild).2 rfl]

/-- Stage 1 leaves the children of another for-instance in the same state. -/
theorem stage1_sameAt_own {ref : ObjectReference} (hchild : r.Owns G ref ∨ r.Wants cfg G ref)
    (honly : r.Only cfg G ref) (honly' : r.Only cfg' G ref) : SameAt ref r₁ r₁' := by
  have hchild' : r.Owns G ref ∨ r.Wants cfg' G ref := by rwa [wants_agree hagree hne]
  constructor
  · show Keyed.lookup _ _ _ = Keyed.lookup _ _ _
    rw [lookup_stage1_own hfresh hdoc h honly hchild,
      lookup_stage1_own hfresh' hdoc' h' honly' hchild', forCtx_agree hagree hne,
      childCtx_agree hagree hne]
  · rw [items_stage1_own hfresh hdoc h honly hchild,
      items_stage1_own hfresh' hdoc' h' honly' hchild', forCtx_agree hagree hne,
      childCtx_agree hagree hne]

omit hne in
/-- Stage 1 leaves what is nobody's child alone. -/
theorem stage1_sameAt_none {ref : ObjectReference} (href : r.inv.role ref = some .ownGVKKind)
    (hrefdoc : ref.Documented) (hnone : ∀ F, ¬(r.Owns F ref ∨ r.Wants cfg F ref))
    (hnone' : ∀ F, ¬(r.Owns F ref ∨ r.Wants cfg' F ref)) : SameAt ref r₁ r₁' := by
  have hfor : ∀ F, r.ForInstance cfg F → F.Documented →
      getConditionType F ≠ getConditionType ref := by
    intro F hF hFdoc heq
    rw [← hFdoc.injective hrefdoc heq, ForInstance.role hfresh hF] at href
    cases href
  have hown : ∀ {cfg : Config V}, r.Documented cfg →
      (∀ F, ¬(r.Owns F ref ∨ r.Wants cfg F ref)) → ∀ F ref', r.Owns F ref' ∨ r.Wants cfg F ref' →
        getConditionType ref' ≠ getConditionType ref :=
    fun hdoc hnone F ref' hchild heq =>
      hnone F ((hdoc.child hchild).2.injective hrefdoc heq ▸ hchild)
  constructor
  · show Keyed.lookup _ _ _ = Keyed.lookup _ _ _
    rw [lookup_stage1_other hfresh hdoc h hfor (hown hdoc hnone),
      lookup_stage1_other hfresh' hdoc' h'
        (fun F hF hFdoc => hfor F ((forInstance_agree hagree).mp hF) hFdoc) (hown hdoc' hnone')]
  · rw [items_stage1_other hfresh hdoc h hnone, items_stage1_other hfresh' hdoc' h' hnone']

end Ready

/-! ## Stage 2 -/

section Stage2

variable [DecidableEq V] {F G : ObjectReference} {cfg cfg' : Config V}
  (hagree : cfg.AgreeOff F cfg') (hne : G ≠ F) {ord : Order} {r r₁ r₁' : Sdk V}
  (hfresh : r.inv.Fresh cfg) (hfresh' : r.inv.Fresh cfg')
  (h : (r.filed cfg).stage1 cfg ord = .ok r₁) (h' : (r.filed cfg').stage1 cfg' ord = .ok r₁')
  {updateFn updateFn' : UpdateResourceFn V} (hfn : cfg.updateResourceFn = some updateFn)
  (hfn' : cfg'.updateResourceFn = some updateFn')

include hagree hne hfresh hfresh' h h' hfn hfn'

/-- What stage 2 writes where only one for-instance does. -/
theorem filter_stage2_agree (hempty : G ≠ {}) {β : Type} {g : Script V → List β} {p : β → Bool}
    (hother : ∀ G' ctx, G' ≠ G → (G', ctx) ∈ r₁.inv.getReadyMap →
      ∀ y ∈ g (updateForScript updateFn ord r₁.inv G' ctx), p y = false)
    (hother' : ∀ G' ctx, G' ≠ G → (G', ctx) ∈ r₁'.inv.getReadyMap →
      ∀ y ∈ g (updateForScript updateFn' ord r₁'.inv G' ctx), p y = false) :
    ((ord.range .updateResources r₁'.inv.getReadyMap).flatMap fun e =>
        g (updateForScript updateFn' ord r₁'.inv e.1 e.2)).filter p =
      ((ord.range .updateResources r₁.inv.getReadyMap).flatMap fun e =>
        g (updateForScript updateFn ord r₁.inv e.1 e.2)).filter p := by
  have hfind : r₁'.inv.resources.find (forPath G) = r₁.inv.resources.find (forPath G) :=
    find_for_congr (child_stage1_agree hagree hne hfresh hfresh' h h' hempty)
  have hnd := keysNodup_of_stage1 hfresh h
  have hnd' := keysNodup_of_stage1 hfresh' h'
  by_cases hsome : (r₁.inv.resources.find (forPath G)).isSome
  · rw [filter_flatMap_readyMap hnd hsome hother,
      filter_flatMap_readyMap hnd' (by rwa [hfind]) hother',
      (updateForScript_agree hagree hne hfresh hfresh' h h' hempty hfn hfn').2]
  · have hnil : ∀ {inv : Inv V} {fn : UpdateResourceFn V}, inv.resources.KeysNodup 2 →
        ¬ (inv.resources.find (forPath G)).isSome →
        (∀ G' ctx, G' ≠ G → (G', ctx) ∈ inv.getReadyMap →
          ∀ y ∈ g (updateForScript fn ord inv G' ctx), p y = false) →
        ((ord.range .updateResources inv.getReadyMap).flatMap fun e =>
          g (updateForScript fn ord inv e.1 e.2)).filter p = [] := by
      intro inv fn hnd hnone hother
      refine List.filter_eq_nil_iff.mpr fun y hy => ?_
      obtain ⟨e, he, hy⟩ := List.mem_flatMap.mp hy
      have hmem : (e.1, e.2) ∈ inv.getReadyMap := (ord.perm _ _).mem_iff.mp he
      rw [hother e.1 e.2 (fun heq => hnone (heq ▸ ((mem_getReadyMap_iff hnd).mp hmem).1)) hmem y hy]
      decide
    rw [hnil hnd hsome hother, hnil hnd' (by rwa [hfind]) hother']

variable {r₂ r₂' : Sdk V} (hwrites : Writes (stage2Script updateFn ord r₁.inv) r₁ r₂)
  (hwrites' : Writes (stage2Script updateFn' ord r₁'.inv) r₁' r₂')

include hwrites hwrites'

/-- Stage 2 leaves a reference that only one for-instance writes in the same state. -/
theorem stage2_sameAt (hempty : G ≠ {}) {ref : ObjectReference} (hsame : SameAt ref r₁ r₁')
    (hother : ∀ G' ctx, G' ≠ G → (G', ctx) ∈ r₁.inv.getReadyMap →
      (∀ e ∈ (updateForScript updateFn ord r₁.inv G' ctx).conditions,
        e.target ≠ getConditionType ref) ∧
      ∀ o ∈ (updateForScript updateFn ord r₁.inv G' ctx).items, o.ref ≠ ref)
    (hother' : ∀ G' ctx, G' ≠ G → (G', ctx) ∈ r₁'.inv.getReadyMap →
      (∀ e ∈ (updateForScript updateFn' ord r₁'.inv G' ctx).conditions,
        e.target ≠ getConditionType ref) ∧
      ∀ o ∈ (updateForScript updateFn' ord r₁'.inv G' ctx).items, o.ref ≠ ref) :
    SameAt ref r₂ r₂' := by
  constructor
  · have hlookup : Keyed.lookup Condition.type (getConditionType ref) r₁'.kptfile.conditions =
        Keyed.lookup Condition.type (getConditionType ref) r₁.kptfile.conditions := hsame.condition
    show Keyed.lookup _ _ _ = Keyed.lookup _ _ _
    rw [hwrites.conditions, hwrites'.conditions, Keyed.lookup_applyAll, Keyed.lookup_applyAll,
      hlookup, stage2Script, stage2Script, Script.conditions_flatMap, Script.conditions_flatMap,
      filter_stage2_agree hagree hne hfresh hfresh' h h' hfn hfn' hempty
        (g := fun s => s.conditions)
        (fun G' ctx hG' hctx e he => decide_eq_false ((hother G' ctx hG' hctx).1 e he))
        fun G' ctx hG' hctx e he => decide_eq_false ((hother' G' ctx hG' hctx).1 e he)]
  · rw [hwrites.items, hwrites'.items, Keyed.filter_upsertAll _ ref_of_id,
      Keyed.filter_upsertAll _ ref_of_id, hsame.items, stage2Script, stage2Script,
      Script.items_flatMap, Script.items_flatMap,
      filter_stage2_agree hagree hne hfresh hfresh' h h' hfn hfn' hempty
        (g := fun s => s.items)
        (fun G' ctx hG' hctx o ho => decide_eq_false ((hother G' ctx hG' hctx).2 o ho))
        fun G' ctx hG' hctx o ho => decide_eq_false ((hother' G' ctx hG' hctx).2 o ho)]

end Stage2

section Returned

variable [DecidableEq V] {cfg : Config V} {ord : Order} {r r₁ : Sdk V} (hfresh : r.inv.Fresh cfg)
  (hdoc : r.Documented cfg) (hwatches : (r.ensured cfg).WatchesSucceed cfg ord)
  (hsep : r.Separate cfg ord) (h₁ : ((r.ensured cfg).filed cfg).stage1 cfg ord = .ok r₁)
  (hready : r₁.inv.ready = true) {updateFn : UpdateResourceFn V}
  (hfn : cfg.updateResourceFn = some updateFn)

include hwatches h₁ hready hfn

/-- What a turn of stage 2 returns is the answer of the Run. -/
theorem answer_of_returned (hfresh : r.inv.Fresh cfg) {G : ObjectReference} {ctx : ReadyCtx V}
    (hctx : (G, ctx) ∈ r₁.inv.getReadyMap) {obj : KubeObject V}
    (hobj : obj ∈ returnedObjs updateFn ord G ctx) :
    ∃ objs, r.answer cfg ord G = some (.ok objs) ∧ obj ∈ objs := by
  obtain ⟨hsome, rfl⟩ :=
    (mem_getReadyMap_iff (keysNodup_of_stage1 (fresh_ensured hfresh) h₁)).mp hctx
  obtain ⟨objs, hreply, hobj⟩ := mem_returnedObjs.mp hobj
  refine ⟨objs, ?_, hobj⟩
  rw [answer_eq hwatches h₁ hready hfn, if_pos hsome, hreply]

include hfresh hdoc hsep

/-- The other for-instances write neither a for-instance nor its children. -/
theorem other_writes {G G' : ObjectReference} (hG : r.inv.role G = some .forGVKKind)
    (hGdoc : G.Documented) (hne : G' ≠ G) {ctx : ReadyCtx V}
    (hctx : (G', ctx) ∈ r₁.inv.getReadyMap) {ref : ObjectReference}
    (href : ref = G ∨ r.ChildOf cfg ord G ref) :
    (∀ e ∈ (updateForScript updateFn ord r₁.inv G' ctx).conditions,
      e.target ≠ getConditionType ref) ∧
    ∀ o ∈ (updateForScript updateFn ord r₁.inv G' ctx).items, o.ref ≠ ref := by
  have hs := fresh_ensured hfresh
  have hroles : r₁.inv.role = r.inv.role := by
    rw [inv_of_stage1 hs h₁, ← @inv_ensured V cfg r]
    rfl
  -- a reference in question is in the documented form, and no for-instance but `G`
  have hrefdoc : ref.Documented ∧ (r.inv.role ref = some .forGVKKind → ref = G) ∧
      (r.inv.role ref = some .ownGVKKind → r.ChildOf cfg ord G ref) := by
    rcases href with rfl | hchild
    · refine ⟨hGdoc, fun _ => rfl, fun hown => ?_⟩
      rw [hG] at hown
      cases hown
    · have hown : r.inv.role ref = some .ownGVKKind := by
        rcases hchild with (hown | hwants) | hhands
        exacts [hown.1, hwants.1, hhands.1]
      refine ⟨?_, fun hfor => ?_, fun _ => hchild⟩
      · rcases hchild with hchild | hhands
        exacts [(hdoc.child hchild).2, hsep.documented G ref hhands]
      · rw [hown] at hfor
        cases hfor
  have hhands : ∀ obj ∈ returnedObjs updateFn ord G' ctx,
      r.inv.role obj.ref = some .ownGVKKind → r.Hands cfg ord G' obj.ref := by
    intro obj hobj hrole
    obtain ⟨objs, hanswer, hobj⟩ := answer_of_returned hwatches h₁ hready hfn hfresh hctx hobj
    exact ⟨hrole, objs, hanswer, obj, hobj, rfl⟩
  have hown : ∀ obj ∈ returnedObjs updateFn ord G' ctx, r.inv.role obj.ref = some .ownGVKKind →
      obj.ref ≠ ref := by
    intro obj hobj hrole heq
    have hhand := hhands obj hobj hrole
    rw [heq] at hhand hrole
    exact hne (hsep.children G' G ref (Or.inr hhand) (hrefdoc.2.2 hrole))
  constructor
  · intro e he heq
    obtain ⟨hG', htarget | htarget | ⟨obj, hobj, hrole, htarget⟩⟩ := target_updateFor hs h₁ hctx he
    · have hG'role := ForInstance.role hs hG'
      rw [inv_ensured] at hG'role
      have htypes := htarget.symm.trans heq
      rcases (documented_ensured hfresh hdoc).forInstance hs hG' with hG'doc | hname
      · have hG'ref := hG'doc.injective hrefdoc.1 htypes
        exact hne (hG'ref.trans (hrefdoc.2.1 (hG'ref ▸ hG'role)))
      · have hgvk := ((hfresh.role_for G').mp hG'role).trans ((hfresh.role_for G).mp hG).symm
        have hempty := decode_unnamed hGdoc hgvk hname
        rw [htypes, hrefdoc.1.decode] at hempty
        exact ne_empty_of_named hrefdoc.1.named hempty
    · rw [heq, hrefdoc.1.decode] at htarget
      have hG'role := ForInstance.role hs hG'
      rw [inv_ensured, ← htarget] at hG'role
      exact hne (htarget.symm.trans (hrefdoc.2.1 hG'role))
    · rw [inv_ensured] at hrole
      have hobjdoc := hsep.documented G' obj.ref (hhands obj hobj hrole)
      exact hown obj hobj hrole (hobjdoc.injective hrefdoc.1 (htarget.symm.trans heq))
  · intro o ho heq
    obtain ⟨hobj, hrole⟩ := mem_items_updateForScript ho
    rw [hroles] at hrole
    rcases hrole with hrole | hrole
    · obtain ⟨objs, hanswer, hmem⟩ := answer_of_returned hwatches h₁ hready hfn hfresh hctx hobj
      have hG' := hsep.forObj G' objs hanswer o hmem hrole
      rw [heq] at hrole hG'
      exact hne (hG'.symm.trans (hrefdoc.2.1 hrole))
    · exact hown o hobj hrole heq

end Returned

/-! ## The Run -/

section Run

variable [DecidableEq V] {F G : ObjectReference} {cfg cfg' : Config V}
  (hagree : cfg.AgreeOff F cfg') {ord : Order} {r r₁ r₂ : Sdk V}

include hagree

/-- A Run whose watches fail calls none of the two callbacks. -/
theorem run_agree_idle (hfail : ¬ (r.ensured cfg).WatchesSucceed cfg ord)
    (h : r.run cfg ord = .ok r₁) (h' : r.run cfg' ord = .ok r₂) : r₂ = r₁ := by
  obtain ⟨s₁, s₂, hstage, hupdate, rfl⟩ := run_eq_ok.mp h
  obtain ⟨s₁', s₂', hstage', hupdate', rfl⟩ := run_eq_ok.mp h'
  rw [ensured_agree hagree, filed_agree hagree, runWatches_agree hagree] at hstage'
  obtain ⟨err, hrun⟩ := runWatches_of_fail hfail
  have hidle : (((r.ensured cfg).filed cfg).runWatches cfg ord).inv.ready = false := by
    rw [hrun]
    rfl
  have hsame : s₁' = s₁ := by
    unfold stage1 at hstage hstage'
    rw [hidle] at hstage hstage'
    exact Except.ok.inj (hstage'.symm.trans hstage)
  obtain ⟨err, htouches⟩ := stage1_idle_touches hfail hstage
  have hready : s₁.inv.ready = false := by
    rw [htouches.inv]
    rfl
  rw [hsame] at hupdate'
  have hinv := (updateResources_notReady hready hupdate).2
  unfold updateResources at hupdate hupdate'
  rw [hready, hagree.owns] at hupdate'
  rw [hready] at hupdate
  obtain rfl : s₂' = s₂ := Except.ok.inj (hupdate'.symm.trans hupdate)
  have hready₂ : s₂'.inv.ready = false := by rw [hinv, hready]
  unfold runReadiness
  rw [hready₂, Bool.and_false, Bool.and_false]
  rfl

end Run

/-! ## Functions that return their for object -/

section Back

variable [DecidableEq V] {cfg : Config V} {ord : Order} {r r₁ : Sdk V} (hfresh : r.inv.Fresh cfg)
  (hdoc : r.Documented cfg)

include hfresh hdoc

/-- Stage 2 is given the for object of the package. -/
theorem forObj_stage1 (h : (r.filed cfg).stage1 cfg ord = .ok r₁) {F : ObjectReference}
    (hF : r.ForInstance cfg F) : (r₁.inv.readyCtxOf F).forObj = r.forObj F := by
  show (r₁.inv.resources.ctxAt (forPath F)).existingResource = r.forObj F
  rcases hdoc.forInstance hfresh hF with hFdoc | hname
  · rw [entry_stage1_for hfresh hdoc h hF hFdoc]
    split_ifs <;> rfl
  · have hnil : (readyScript ord (stage1Inv cfg ord r)).tree.filter
        (fun w => w.path = forPath F) = [] := by
      refine List.filter_eq_nil_iff.mpr fun w hw hpath => ?_
      obtain ⟨F', forRes, -, hw⟩ := exists_of_mem_flatMap_diffs (keysNodup_stage1Inv hfresh)
        (perm_sortByRef _ _) hw
      have hpath := of_decide_eq_true hpath
      rcases path_of_mem_tree hw with ⟨hnamed, hpath'⟩ | ⟨s, -, -, hpath'⟩
      · rw [hpath] at hpath'
        cases hpath'
        exact hnamed.2.2 hname
      · rw [hpath] at hpath'
        cases hpath'
    rw [inv_stage1 hfresh hdoc h, Inv.resources_write, TreeWrite.ctxAt_applyAll, hnil,
      List.foldl_nil, ctxAt_stage1_for hfresh hdoc hF]
    rfl

omit hdoc in
/-- An answer is what stage 2 gets after stage 1. -/
theorem reply_of_answer {updateFn : UpdateResourceFn V} (hfn : cfg.updateResourceFn = some updateFn)
    {G : ObjectReference} {answer : Except String (List (KubeObject V))}
    (hanswer : r.answer cfg ord G = some answer) :
    ∃ r₁, ((r.ensured cfg).filed cfg).stage1 cfg ord = .ok r₁ ∧
      reply updateFn ord G (r₁.inv.readyCtxOf G) = some answer := by
  obtain ⟨hwatches, -, -⟩ := of_answer hfresh hanswer
  unfold Sdk.answer at hanswer
  rw [runWatches_of_succeed hwatches] at hanswer
  cases h₁ : ((r.ensured cfg).filed cfg).stage1 cfg ord with
  | error panic =>
    rw [h₁] at hanswer
    cases hanswer
  | ok r₁ =>
    rw [h₁, hfn] at hanswer
    simp only at hanswer
    split_ifs at hanswer
    exact ⟨r₁, rfl, hanswer⟩

omit [DecidableEq V] hfresh hdoc in
/-- What is returned for a for-instance has the references that `UpdateResourceFn` gave. -/
theorem returned_of_reply {updateFn : UpdateResourceFn V} {G : ObjectReference} {ctx : ReadyCtx V}
    {objs : List (KubeObject V)} (hreply : reply updateFn ord G ctx = some (.ok objs))
    {obj : KubeObject V} (hobj : obj ∈ objs) :
    ∃ news, updateFn G ctx.forObj (updateArgs ord G ctx) = .ok news ∧
      ∃ new ∈ news, obj.ref = new.ref := by
  unfold reply at hreply
  split_ifs at hreply
  have hhandle := Option.some.inj hreply
  unfold handleUpdateResource at hhandle
  obtain ⟨news, hnews, hhandle⟩ := Fallible.bind_eq_ok.mp hhandle
  refine ⟨news, hnews, ?_⟩
  split at hhandle
  · split_ifs at hhandle
    · obtain rfl := Except.ok.inj hhandle
      obtain ⟨new, hnew, rfl⟩ := List.mem_map.mp hobj
      exact ⟨new, hnew, rfl⟩
    · obtain rfl := Except.ok.inj hhandle
      exact ⟨obj, hobj, rfl⟩
  · obtain rfl := Except.ok.inj hhandle
    exact ⟨obj, hobj, rfl⟩

/-- A function that returns nothing but its for object keeps its for-instances apart, if their
children are. -/
theorem separate_of_back (hdisj : r.Disjoint cfg) {updateFn : UpdateResourceFn V}
    (hfn : cfg.updateResourceFn = some updateFn)
    (hback : ∀ G o objs news, updateFn G o objs = .ok news → ∀ new ∈ news,
      ∃ o', o = some o' ∧ new.ref = o'.ref) : r.Separate cfg ord := by
  have hs := fresh_ensured hfresh
  have hsdoc := documented_ensured hfresh hdoc
  have hanswer : ∀ G objs, r.answer cfg ord G = some (.ok objs) → ∀ obj ∈ objs,
      obj.ref = G ∧ r.inv.role G = some .forGVKKind := by
    intro G objs hanswer obj hobj
    obtain ⟨hwatches, hG, -⟩ := of_answer hfresh hanswer
    have hrole := ForInstance.role hs hG
    rw [inv_ensured] at hrole
    obtain ⟨r₁, hstage, hreply⟩ := reply_of_answer hfresh hfn hanswer
    obtain ⟨news, hnews, hobj⟩ := returned_of_reply hreply hobj
    obtain ⟨new, hnew, href⟩ := hobj
    obtain ⟨o, ho, href'⟩ := hback _ _ _ _ hnews new hnew
    rw [forObj_stage1 hs hsdoc hstage hG] at ho
    exact ⟨by rw [href, href', (mem_of_forObj ho).2], hrole⟩
  have hhands : ∀ G ref, ¬ r.Hands cfg ord G ref := by
    rintro G ref ⟨hown, objs, hobjs, obj, hobj, rfl⟩
    obtain ⟨href, hfor⟩ := hanswer G objs hobjs obj hobj
    rw [href, hfor] at hown
    cases hown
  refine ⟨fun G G' ref hchild hchild' => ?_, fun G objs hobjs obj hobj _ =>
    (hanswer G objs hobjs obj hobj).1, fun G ref hhand => absurd hhand (hhands G ref)⟩
  exact hdisj G G' ref (hchild.resolve_right (hhands G ref))
    (hchild'.resolve_right (hhands G' ref))

end Back

/-! ## An interface that cannot be populated -/

/-- The claims of the interfaces, where those of `n3` cannot be told. -/
def refusingConfig : Config Nat :=
  { claimsConfig .childRemote claimsWanted with
    populateOwnResourcesFn := some fun F _ =>
      if F = interfaceRef "n3" then .error "no network" else .ok (claimsWanted F.name) }

/-- Two new interfaces. -/
def twoInterfaces : Sdk Nat where
  items := [interfaceObj "n3", interfaceObj "n6"]
  kptfile := { conditions := [] }
  inv := claimsInv .childRemote

theorem claimsConfig_agreeOff :
    (claimsConfig .childRemote claimsWanted).AgreeOff (interfaceRef "n3") refusingConfig where
  root := rfl
  forRef := rfl
  owns := rfl
  watch := rfl
  populates G hG o := by
    simp only [refusingConfig, claimsConfig, Option.map_some, if_neg hG]
  updates _ _ _ _ := rfl

theorem mem_of_toList {o : Option (KubeObject V)} {news : List (KubeObject V)}
    (hnews : (Except.ok o.toList : Except String (List (KubeObject V))) = .ok news)
    (new : KubeObject V) (hnew : new ∈ news) :
    ∃ o', o = some o' ∧ new.ref = o'.ref := by
  obtain rfl := Except.ok.inj hnews
  exact ⟨new, Option.mem_toList.mp hnew, rfl⟩

end Sdk

end Nephio.CondKptSdk
