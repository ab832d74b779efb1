import Nephio.CondKptSdk.PopulateInventory
import Nephio.Data.Fallible
import Nephio.Laws.Kptfile.ConditionType

/-!
# Laws.CondKptSdk.Roles: which references a configuration gives a role

An accepted configuration gives a GVK one role. `Inv.Fresh` is what `newInventory` establishes and
later proofs use of it: the for role belongs to the GVK of `For` alone, an own child has a kind, and
nothing is filed yet.
-/

namespace Nephio.CondKptSdk

variable {V : Type}

/-- The role of a reference, if the configuration gives it one. -/
def Inv.role (inv : Inv V) (ref : ObjectReference) : Option GvkKind :=
  (inv.isGVKMatch ref).map GvkKindCtx.gvkKind

theorem Inv.role_eq_some {inv : Inv V} {ref : ObjectReference} {k : GvkKind} :
    inv.role ref = some k ↔ ∃ kc, inv.isGVKMatch ref = some kc ∧ kc.gvkKind = k :=
  Option.map_eq_some_iff

/-- The role and the kind of a reference depend on its GVK only. -/
theorem Inv.isGVKMatch_congr (inv : Inv V) {a b : ObjectReference} (h : a.gvk = b.gvk) :
    inv.isGVKMatch a = inv.isGVKMatch b := by
  unfold Inv.isGVKMatch
  rw [h]

/-- An inventory as `newInventory` makes it. -/
structure Inv.Fresh (cfg : Config V) (inv : Inv V) : Prop where
  resources : inv.resources = .empty
  ready : inv.ready = true
  role_for : ∀ ref, inv.role ref = some .forGVKKind ↔ ref.gvk = cfg.forRef.gvk
  ownKind : ∀ ref kc, inv.isGVKMatch ref = some kc → kc.gvkKind = .ownGVKKind →
    ∃ e ∈ cfg.owns, kc.ownKind = some e.2
  forRef_named : cfg.forRef.apiVersion ≠ "" ∧ cfg.forRef.kind ≠ ""
  updates : cfg.updateResourceFn.isSome

/-- For-instances are told apart by their condition types. -/
theorem Inv.Fresh.eq_of_for {cfg : Config V} {inv : Inv V} (hfresh : inv.Fresh cfg)
    {F F' : ObjectReference} (hF : inv.role F = some .forGVKKind)
    (hF' : inv.role F' = some .forGVKKind) (h : getConditionType F = getConditionType F') : F = F' :=
  eq_of_gvk (((hfresh.role_for F).mp hF).trans ((hfresh.role_for F').mp hF').symm) h

/-- What the roles look like while `initializeGVKInventory` hands them out. -/
structure RolesOf (cfg : Config V) (inv : Inv V) : Prop where
  resources : inv.resources = .empty
  ready : inv.ready = true
  roles : ∃ rest, inv.gvkResources = (cfg.forRef.gvk, { gvkKind := .forGVKKind }) :: rest ∧
    ∀ e ∈ rest, e.2.gvkKind ≠ .forGVKKind ∧
      (e.2.gvkKind = .ownGVKKind → ∃ o ∈ cfg.owns, e.2.ownKind = some o.2)

theorem addGVKObjectReference_eq_ok {inv inv' : Inv V} {kc : GvkKindCtx V} {ref : ObjectReference}
    (h : inv.addGVKObjectReference kc ref = .ok inv') :
    inv' = { inv with gvkResources := inv.gvkResources ++ [(ref.gvk, kc)] } := by
  unfold Inv.addGVKObjectReference at h
  split at h
  · cases h
  · exact (Except.ok.inj h).symm

/-- Handing out a role other than for keeps what the roles look like. -/
theorem RolesOf.add {cfg : Config V} {inv inv' : Inv V} {kc : GvkKindCtx V} {ref : ObjectReference}
    (hroles : RolesOf cfg inv) (hfor : kc.gvkKind ≠ .forGVKKind)
    (hown : kc.gvkKind = .ownGVKKind → ∃ o ∈ cfg.owns, kc.ownKind = some o.2)
    (h : inv.addGVKObjectReference kc ref = .ok inv') : RolesOf cfg inv' := by
  rw [addGVKObjectReference_eq_ok h]
  obtain ⟨rest, hlist, hrest⟩ := hroles.roles
  refine ⟨hroles.resources, hroles.ready, rest ++ [(ref.gvk, kc)], ?_, ?_⟩
  · simp only [hlist, List.cons_append]
  · intro e he
    rcases List.mem_append.mp he with he | he
    · exact hrest e he
    · rw [List.mem_singleton.mp he]
      exact ⟨hfor, hown⟩

theorem lookup_rest {cfg : Config V} {k : ObjectReference}
    {rest : List (ObjectReference × GvkKindCtx V)} (hne : cfg.forRef.gvk ≠ k) :
    Keyed.lookup Prod.fst k ((cfg.forRef.gvk, { gvkKind := .forGVKKind }) :: rest) =
      Keyed.lookup Prod.fst k rest := by
  rw [Keyed.lookup_cons, if_neg hne]

/-- The context `isGVKMatch` answers is that of `For` for its GVK, and one of the others else. -/
theorem RolesOf.isGVKMatch {cfg : Config V} {inv : Inv V} (hroles : RolesOf cfg inv)
    (hwild : isWildCardRef cfg.forRef = false) {ref : ObjectReference} {kc : GvkKindCtx V}
    (h : inv.isGVKMatch ref = some kc) :
    (ref.gvk = cfg.forRef.gvk ∧ kc = { gvkKind := .forGVKKind }) ∨
      (ref.gvk ≠ cfg.forRef.gvk ∧ kc.gvkKind ≠ .forGVKKind ∧
        (kc.gvkKind = .ownGVKKind → ∃ o ∈ cfg.owns, kc.ownKind = some o.2)) := by
  obtain ⟨rest, hlist, hrest⟩ := hroles.roles
  unfold Inv.isGVKMatch at h
  rw [hlist] at h
  by_cases hgvk : ref.gvk = cfg.forRef.gvk
  · left
    rw [Keyed.lookup_cons, if_pos hgvk.symm] at h
    exact ⟨hgvk, (Option.some.inj h).symm⟩
  · right
    refine ⟨hgvk, ?_⟩
    rw [lookup_rest fun heq => hgvk heq.symm] at h
    cases hl : Keyed.lookup Prod.fst ref.gvk rest with
    | some e =>
      rw [hl] at h
      rw [← Option.some.inj h]
      exact hrest e (Keyed.mem_of_lookup Prod.fst hl)
    | none =>
      have hstar : cfg.forRef.gvk ≠ { apiVersion := "*", kind := "*" } := by
        intro heq
        simp only [ObjectReference.gvk, ObjectReference.mk.injEq] at heq
        simp only [isWildCardRef, heq.1, heq.2.1, decide_eq_false_iff_not, not_true_eq_false,
          and_self] at hwild
      rw [hl] at h
      simp only [lookup_rest hstar] at h
      obtain ⟨e, he, rfl⟩ := Option.map_eq_some_iff.mp h
      exact hrest e (Keyed.mem_of_lookup Prod.fst he)

/-- **What `newInventory` establishes.** -/
theorem newInventory_fresh {cfg : Config V} {inv : Inv V} (h : newInventory cfg = .ok inv) :
    inv.Fresh cfg := by
  unfold newInventory Inv.initializeGVKInventory at h
  obtain ⟨_, hvalid, h⟩ := Fallible.bind_eq_ok.mp h
  cases hwild : isWildCardRef cfg.forRef with
  | true => rw [hwild] at h; cases h
  | false =>
    rw [hwild] at h
    obtain ⟨inv₁, hfor, h⟩ := Fallible.bind_eq_ok.mp h
    obtain ⟨inv₂, howns, h⟩ := Fallible.bind_eq_ok.mp h
    obtain ⟨inv₃, hwatch, h⟩ := Fallible.bind_eq_ok.mp h
    have hroles₁ : RolesOf cfg inv₁ := by
      rw [addGVKObjectReference_eq_ok hfor]
      exact ⟨rfl, rfl, [], rfl, fun e he => nomatch he⟩
    have hroles₂ : RolesOf cfg inv₂ := by
      refine Fallible.foldlM_invariant _ ?_ hroles₁ howns
      intro i i' e he hi hstep
      obtain ⟨-, -, hstep⟩ := Fallible.bind_eq_ok.mp hstep
      split_ifs at hstep
      · cases hstep
      · exact hi.add GvkKind.noConfusion (fun _ => ⟨e, he, rfl⟩) hstep
    have hroles₃ : RolesOf cfg inv₃ := by
      refine Fallible.foldlM_invariant _ ?_ hroles₂ hwatch
      intro i i' e he hi hstep
      obtain ⟨-, -, hstep⟩ := Fallible.bind_eq_ok.mp hstep
      split_ifs at hstep
      · cases hstep
      · exact hi.add GvkKind.noConfusion GvkKind.noConfusion hstep
    split_ifs at h with hupd
    · cases h
    · cases h
      refine ⟨hroles₃.resources, hroles₃.ready, fun ref => ?_, fun ref kc hmatch hown => ?_, ?_, ?_⟩
      · rw [Inv.role_eq_some]
        constructor
        · rintro ⟨kc, hmatch, hkc⟩
          rcases hroles₃.isGVKMatch hwild hmatch with ⟨hgvk, -⟩ | ⟨-, hne, -⟩
          · exact hgvk
          · exact absurd hkc hne
        · intro hgvk
          obtain ⟨rest, hlist, -⟩ := hroles₃.roles
          refine ⟨{ gvkKind := .forGVKKind }, ?_, rfl⟩
          unfold Inv.isGVKMatch
          rw [hlist, Keyed.lookup_cons, if_pos hgvk.symm]
      · rcases hroles₃.isGVKMatch hwild hmatch with ⟨-, rfl⟩ | ⟨-, -, hkind⟩
        · cases hown
        · exact hkind hown
      · unfold validateGVKRef at hvalid
        split_ifs at hvalid with hempty
        exact not_or.mp hempty
      · exact Option.isSome_iff_ne_none.mpr fun hnone => hupd (by rw [hnone]; rfl)

end Nephio.CondKptSdk
