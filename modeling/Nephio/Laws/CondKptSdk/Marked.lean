import Nephio.Laws.CondKptSdk.Desired

/-!
# Laws.CondKptSdk.Marked: wanted children that are marked for deletion

A for object that is deleted and comes back finds its children marked for deletion. Stage 1 cleans
this up on one path only: `unmarked_iff` says for which packages no wanted child stays marked. Where
the for-instance has no condition yet, that path reads through a nil pointer.
-/

namespace Nephio.CondKptSdk

variable {V : Type}

namespace Sdk

section

variable [DecidableEq V] (cfg : Config V) (ord : Order) (r : Sdk V)

/-- Stage 1 completes, and no item that a for-instance wants is marked afterwards. -/
def WantedUnmarked : Prop :=
  ∃ r₁, r.upToStage1 cfg ord = .ok r₁ ∧
    ∀ F ref, r.Wants cfg F ref → ∀ o ∈ r₁.items, o.ref = ref → ¬ o.marked

/-- Stage 1 writes the object of a wanted child: the child is of a kind that the sdk writes, and is
not there, or its spec and the wanted one are readable and it differs or is marked. -/
def Rewrites (F ref : ObjectReference) : Bool :=
  writtenKind (r.inv.ownKindOf ref) && ((r.ownedItem F ref).isNone ||
    specChanged (r.childCtx cfg F ref) || unmarks (r.childCtx cfg F ref))

/-- The items, with the object that stage 1 writes for a wanted child. -/
def rewritten (F ref : ObjectReference) : List (KubeObject V) :=
  match r.wantedObj cfg F ref with
  | some new => if r.Rewrites cfg F ref then upsertObjectToItems new r.items else r.items
  | none => r.items

/-- The packages in which no wanted child stays marked: the diff does not panic, and for each wanted
child the object that stage 1 writes replaces every marked item of its reference, or there is
none. -/
def Cleanable : Prop :=
  r.NoPanic cfg ∧
    ∀ F ref, r.Wants cfg F ref → ∀ o ∈ r.rewritten cfg F ref, o.ref = ref → ¬ o.marked

end

variable [DecidableEq V] {cfg : Config V} {ord : Order} {r : Sdk V}

/-- The items of a wanted child after stage 1. -/
theorem items_wanted (hfresh : r.inv.Fresh cfg) (hdoc : r.Documented cfg) (hdisj : r.Disjoint cfg)
    {r₁ : Sdk V} (h : (r.filed cfg).stage1 cfg ord = .ok r₁) {F ref : ObjectReference}
    (hwants : r.Wants cfg F ref) :
    r₁.items.filter (fun o => o.ref = ref) =
      (r.rewritten cfg F ref).filter fun o => o.ref = ref := by
  obtain ⟨obj, hobj, hobjref⟩ := hwants.2.2
  obtain ⟨forObj, hforObj⟩ := exists_forObj_of_mem_wantedObjs hobj
  obtain ⟨new, hnew⟩ := Option.isSome_iff_exists.mp (isSome_wantedObj.mpr hwants.2.2)
  have hnewref : new.ref = ref := by
    have hinv : (stage1Inv cfg ord r).Documented := documented_stage1Inv hfresh hdoc
    exact hinv.refs F ref _ ((find_stage1_own hfresh).mpr ⟨Or.inr hwants, rfl⟩) new (Or.inr hnew)
  rw [items_stage1_present hfresh hdoc hdisj h (by rw [hforObj]; rfl) (Or.inr hwants)]
  have hkind : (r.childCtx cfg F ref).ownKind = r.inv.ownKindOf ref :=
    ownKind_childCtx (Or.inr (by rw [hnew]; rfl))
  have hitem : outcomeItem (r.childCtx cfg F ref) =
      if r.Rewrites cfg F ref then some new else none := by
    have hnew' : (r.childCtx cfg F ref).newResource = some new := hnew
    simp only [outcomeItem, hnew', hkind, Rewrites]
    rfl
  rw [hitem, rewritten, hnew]
  dsimp only
  split_ifs
  · rw [upsertObjectToItems, Keyed.filter_upsert _ ref_of_id, if_pos (decide_eq_true hnewref)]
    rfl
  · rfl

instance : Decidable (r.Cleanable cfg) :=
  decidable_of_iff (r.NoPanic cfg ∧ ∀ e ∈ r.family cfg, r.Wants cfg e.1 e.2 →
      ∀ o ∈ r.rewritten cfg e.1 e.2, o.ref = e.2 → ¬ o.marked)
    (and_congr_right fun _ => ⟨fun h F ref hwants => h (F, ref) (mem_family.mpr (Or.inr hwants))
      hwants, fun h e _ => h e.1 e.2⟩)

/-- Interface `n3` is back, and finds the claim that it wants marked for deletion. -/
def markedPackage (kind : ResourceKind) (conditions : List Condition) : Sdk Nat where
  items := [interfaceObj "n3", mark (owned (interfaceRef "n3") (ipClaimObj "n3-ipv4" (some 2)))]
  kptfile := { conditions := conditions }
  inv := claimsInv kind

end Sdk

end Nephio.CondKptSdk
