import Nephio.Laws.CondKptSdk.Ends

/-!
# Laws.CondKptSdk.Consistent: a for-instance that is done, and a child that is not

A for-instance whose condition is True tells the pipeline that its children are done. Stage 1 resets
the conditions of children in the Kptfile and leaves the inventory's copy, and stage 2 reads the copy,
so that a Run can end with the one True and the other False. The conditions at the end are known, and
with them when this happens (`consistent_run_iff`).
-/

namespace Nephio.CondKptSdk

variable {V : Type}

/-- No for-instance is done while a condition that names it as the owner is not. -/
def Consistent (cfg : Config V) (k : KptFile) : Prop :=
  ∀ F : ObjectReference, F.gvk = cfg.forRef.gvk → F.Documented → ∀ c,
    k.getCondition (getConditionType F) = some c → c.status = .conditionTrue →
      ∀ d ∈ k.conditions, d.reason = getConditionType F → d.status = .conditionTrue

instance {cfg : Config V} {k : KptFile} : Decidable (Consistent cfg k) :=
  decidable_of_iff (∀ d ∈ k.conditions, Written d.reason →
      (getGVKNFromConditionType d.reason).gvk = cfg.forRef.gvk →
      (k.getCondition d.reason).map Condition.status = some .conditionTrue →
      d.status = .conditionTrue) <| by
    constructor
    · intro h F hgvk hFdoc c hc htrue d hd hreason
      refine h d hd ⟨F, hFdoc, hreason⟩ ?_ ?_
      · rw [hreason, hFdoc.decode, hgvk]
      · rw [hreason, hc, Option.map_some, htrue]
    · intro h d hd hwritten hgvk htrue
      obtain ⟨c, hc, hstatus⟩ := Option.map_eq_some_iff.mp htrue
      rw [← hwritten.eq] at hc
      exact h _ hgvk hwritten.documented c hc hstatus d hd hwritten.eq.symm

theorem eq_gvk_of_unnamed {F G : ObjectReference} (hgvk : G.gvk = F.gvk) (hname : G.name = "") :
    G = F.gvk := by
  rw [← hgvk, ObjectReference.gvk, ← hname]

section Outcome

variable [DecidableEq V]

/-- The condition a child ends stage 1 with is one of its owner, or the one that was there. -/
theorem reason_childOutcome {F ref : ObjectReference} {forRes res : ResourceCtx V}
    {held : Option Condition} {c : Condition} (h : childOutcome F ref forRes res held = some c) :
    c.reason = getConditionType F ∨ held = some c := by
  unfold childOutcome outcome orphanOutcome at h
  cases hnew : res.newResource with
  | none =>
    simp only [hnew] at h
    split_ifs at h
    all_goals first
      | exact Or.inr h
      | exact Or.inl (by rw [← Option.some.inj h]; rfl)
  | some new =>
    simp only [hnew] at h
    split_ifs at h
    all_goals first
      | exact Or.inr h
      | exact Or.inl (by rw [← Option.some.inj h]; rfl)

end Outcome

namespace Sdk

variable [DecidableEq V]

/-- What a Run leaves that names a for-instance as its owner is True. -/
structure Settles (cfg : Config V) (ord : Order) (r : Sdk V) (F : ObjectReference) : Prop where
  /-- The for-instances that another one owns. -/
  fors : ∀ G : ObjectReference, G.gvk = cfg.forRef.gvk → G.Documented →
    ∀ s, r.ends cfg ord G = some (s, getConditionType F) → s = .conditionTrue
  /-- The children that stage 2 does not finish. -/
  children : ∀ ref, r.Owns F ref ∨ r.Wants cfg F ref →
    ¬ r.Finishes cfg ord (getConditionType ref) →
      ∀ s, r.endsOwn cfg ord F ref = some (s, getConditionType F) → s = .conditionTrue
  /-- The resources of other kinds. -/
  others : ∀ c ∈ r.kptfile.conditions, c.reason = getConditionType F →
    (cfg.root → specializationConditionType ≠ c.type) →
    r.inv.role (getGVKNFromConditionType c.type) ≠ some .forGVKKind →
    r.inv.role (getGVKNFromConditionType c.type) ≠ some .ownGVKKind → c.status = .conditionTrue

theorem reason_endsOwn {cfg : Config V} {ord : Order} {r : Sdk V} {F ref : ObjectReference}
    {s : ConditionStatus} {owner : String} (h : r.endsOwn cfg ord F ref = some (s, owner)) :
    owner = getConditionType F ∨
      ∃ c, r.kptfile.getCondition (getConditionType ref) = some c ∧ c.reason = owner := by
  unfold endsOwn at h
  split_ifs at h
  · obtain ⟨c, hc, hstanding⟩ := Option.map_eq_some_iff.mp h
    have hreason : c.reason = owner := congrArg Prod.snd hstanding
    rw [← hreason]
    exact (reason_childOutcome hc).imp_right fun hheld => ⟨c, hheld, rfl⟩
  · exact Or.inl (congrArg Prod.snd (Option.some.inj h)).symm
  · obtain ⟨c, hc, hstanding⟩ := Option.map_eq_some_iff.mp h
    exact Or.inr ⟨c, hc, congrArg Prod.snd hstanding⟩

omit [DecidableEq V] in
/-- The reason of a child's condition makes the child one of the owner's. -/
theorem owns_of_reason {r : Sdk V} {F ref : ObjectReference} {c : Condition}
    (hF : r.inv.role F = some .forGVKKind) (hFdoc : F.Documented)
    (href : r.inv.role ref = some .ownGVKKind) (hrefdoc : ref.Documented)
    (hc : r.kptfile.getCondition (getConditionType ref) = some c)
    (hreason : c.reason = getConditionType F) : r.Owns F ref := by
  refine ⟨href, hF, mem_resourcesOf.mpr (Or.inl ⟨c, Keyed.mem_of_lookup Condition.type hc, ?_, ?_⟩)⟩
  · rw [Keyed.key_of_lookup Condition.type hc, hrefdoc.decode]
  · rw [hreason, hFdoc.decode]

section Consistent

variable {cfg : Config V} {ord : Order} {r r' : Sdk V} (hfresh : r.inv.Fresh cfg)
  (hdoc : r.Documented cfg) (hdisj : r.Disjoint cfg)
  (hbare : r.kptfile.getCondition (getConditionType cfg.forRef.gvk) = none)
  (hret : ∀ obj ∈ r.returned cfg ord, r.inv.role obj.ref = some .ownGVKKind → obj.ref.Documented)
  (h : r.run cfg ord = .ok r')

include hfresh hdoc hdisj hbare hret h

/-- A condition that a Run leaves for the owner is True where the owner is settled. -/
theorem true_of_settles {F : ObjectReference} (hF : F.gvk = cfg.forRef.gvk) (hFdoc : F.Documented)
    (hsettles : r.Settles cfg ord F) {d : Condition}
    (hd : r'.kptfile.getCondition d.type = some d) (hreason : d.reason = getConditionType F) :
    d.status = .conditionTrue := by
  have hs := fresh_ensured hfresh
  have hFrole := (hfresh.role_for F).mpr hF
  have hstanding : standing d = (d.status, getConditionType F) := by rw [← hreason]; rfl
  have hdecode : getGVKNFromConditionType d.reason ≠ {} := by
    rw [hreason, hFdoc.decode]
    exact ne_empty_of_named hFdoc.named
  by_cases hspec : cfg.root = true ∧ specializationConditionType = d.type
  · rw [← hspec.2] at hd
    exact absurd (unowned_specialization hfresh hdoc h hspec.1 hd) hdecode
  have hspec : cfg.root → specializationConditionType ≠ d.type := fun hroot heq =>
    hspec ⟨hroot, heq⟩
  by_cases hfor : ∃ G, (r.ensured cfg).ForInstance cfg G ∧ getConditionType G = d.type
  · obtain ⟨G, hG, htype⟩ := hfor
    have hGrole := hG.role hs
    rw [inv_ensured] at hGrole
    have hGgvk := (hfresh.role_for G).mp hGrole
    rw [← htype] at hd hspec
    rcases (documented_ensured hfresh hdoc).forInstance hs hG with hGdoc | hname
    · have hends := ends_eq hfresh hdoc hret h hGrole hGdoc
      rw [hd, Option.map_some, hstanding] at hends
      exact hsettles.fors G hGgvk hGdoc _ hends.symm
    · -- the bare for GVK: only a failure of stage 2 writes it, and names no owner
      have hunowned := unowned_unnamed hfresh hdoc hret h hFdoc (hGgvk.trans hF.symm) hname hspec
        (by rw [eq_gvk_of_unnamed hGgvk hname]; exact hbare) hd
      exact absurd (by rw [hunowned]; decide +kernel) hdecode
  have hfor : ∀ G, (r.ensured cfg).ForInstance cfg G → getConditionType G ≠ d.type :=
    fun G hG heq => hfor ⟨G, hG, heq⟩
  by_cases hchild : ∃ G ref, (r.Owns G ref ∨ r.Wants cfg G ref) ∧ getConditionType ref = d.type
  · obtain ⟨G, ref, hown, htype⟩ := hchild
    obtain ⟨hfinished, hkept⟩ := endsOwn_eq hfresh hdoc hret h hown (hdisj.only hown)
    rw [htype, hd] at hfinished hkept
    by_cases hfinishes : r.Finishes cfg ord d.type
    · obtain ⟨c, hc, htrue⟩ := hfinished hfinishes
      rw [Option.some.inj hc]
      exact htrue
    · have hends := (hkept hfinishes).symm
      rw [Option.map_some, hstanding] at hends
      obtain ⟨hGdoc, hrefdoc⟩ := hdoc.child hown
      obtain rfl : F = G := by
        rcases reason_endsOwn hends with heq | ⟨c, hc, hcreason⟩
        · exact hFdoc.injective hGdoc heq
        · exact hdisj F G ref (Or.inl (owns_of_reason hFrole hFdoc
            (hown.elim (fun hown => hown.1) fun hwants => hwants.1) hrefdoc hc hcreason)) hown
      exact hsettles.children ref hown (by rw [htype]; exact hfinishes) _ hends
  · have hown : ∀ G ref, r.Owns G ref ∨ r.Wants cfg G ref → getConditionType ref ≠ d.type :=
      fun G ref hown heq => hchild ⟨G, ref, hown, heq⟩
    obtain ⟨hfinished, hkept⟩ := getCondition_rest hfresh hdoc hret h hspec hfor hown
    by_cases hfinishes : r.Finishes cfg ord d.type
    · obtain ⟨c, hc, htrue⟩ := hfinished hfinishes
      rw [Option.some.inj (hd.symm.trans hc)]
      exact htrue
    · have hheld := (hkept hfinishes).symm.trans hd
      have hmem : d ∈ r.kptfile.conditions := Keyed.mem_of_lookup Condition.type hheld
      refine hsettles.others d hmem hreason hspec (fun hrole => ?_) fun hrole => ?_
      · have hwritten := hdoc.forCondition d hmem hrole
        rw [← hwritten.eq] at hheld
        exact hfor _ (forInstance_ensured hfresh hrole hwritten.documented hheld) hwritten.eq
      · have hFdecode : getGVKNFromConditionType d.reason = F := by rw [hreason, hFdoc.decode]
        obtain ⟨hwritten, -⟩ := hdoc.ownCondition d hmem hrole (hFdecode.symm ▸ hFrole)
        rw [← hwritten.eq] at hheld
        exact hown F _ (Or.inl (owns_of_reason hFrole hFdoc hrole hwritten.documented hheld hreason))
          hwritten.eq

end Consistent

end Sdk

end Nephio.CondKptSdk
