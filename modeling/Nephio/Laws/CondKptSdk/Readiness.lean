import Nephio.Laws.CondKptSdk.Run

/-!
# Laws.CondKptSdk.Readiness: what a Root function makes of the conditions

The last step of a Root function's Run sets the condition of the specializer from the conditions of
the for-instances. It finds these by the beginning of their type, so a kind whose name extends that
of the for kind counts as well, and it asks that none is False, so Unknown passes. `root_ready_iff`
says when neither shows.
-/

namespace Nephio.CondKptSdk

variable {V : Type}

/-- The condition type of a resource of a GVK. -/
def OfGVK (gvk : ObjectReference) (t : String) : Prop :=
  ∃ ref : ObjectReference, ref.gvk = gvk ∧ ref.name ≠ "" ∧ t = getConditionType ref

/-- A condition type that begins like those of a GVK, and is not one of them. -/
def ExtendsGVK (gvk : ObjectReference) (t : String) : Prop :=
  (getConditionType gvk).toList <+: t.toList ∧ ¬ OfGVK gvk t

theorem prefix_writePart (sb part : String) : sb.toList <+: (writePart sb part).toList := by
  unfold writePart
  split_ifs
  · simp only [String.toList_append, List.append_assoc]
    exact List.prefix_append _ _
  · rw [String.toList_append]
    exact List.prefix_append _ _
  · exact List.prefix_refl _

/-- The condition types that begin like those of a GVK. -/
theorem prefix_iff {gvk : ObjectReference} {t : String} :
    (getConditionType gvk).toList <+: t.toList ↔ OfGVK gvk t ∨ ExtendsGVK gvk t := by
  constructor
  · intro h
    by_cases hof : OfGVK gvk t
    · exact Or.inl hof
    · exact Or.inr ⟨h, hof⟩
  · rintro (⟨ref, rfl, -, rfl⟩ | h)
    · rw [← writePart_gvk]
      exact prefix_writePart _ _
    · exact h.1

/-- What a condition type has after the text of a GVK. -/
def nameUnder (gvk : ObjectReference) (t : String) : String :=
  String.ofList (t.toList.drop
    (if getConditionType gvk = "" then 0 else (getConditionType gvk).toList.length + 1))

theorem nameUnder_getConditionType (ref : ObjectReference) (hname : ref.name ≠ "") :
    nameUnder ref.gvk (getConditionType ref) = ref.name := by
  rw [nameUnder, ← writePart_gvk ref, writePart, if_pos hname]
  by_cases hgvk : getConditionType ref.gvk = ""
  · simp only [hgvk, ne_eq, not_true_eq_false, if_false, if_true, List.drop_zero, String.empty_append,
      String.ofList_toList]
  · simp only [hgvk, ne_eq, not_false_eq_true, if_true, if_false, String.toList_append]
    rw [List.drop_left' (by simp), String.ofList_toList]

instance (gvk : ObjectReference) (t : String) : Decidable (OfGVK gvk t) :=
  decidable_of_iff (gvk.name = "" ∧ nameUnder gvk t ≠ "" ∧
      t = getConditionType { gvk with name := nameUnder gvk t }) <| by
    constructor
    · rintro ⟨hgvk, hname, ht⟩
      refine ⟨{ gvk with name := nameUnder gvk t }, ?_, hname, ht⟩
      simp only [ObjectReference.gvk, ← hgvk]
    · rintro ⟨ref, rfl, hname, rfl⟩
      rw [nameUnder_getConditionType ref hname]
      exact ⟨rfl, hname, rfl⟩

instance (gvk : ObjectReference) (t : String) : Decidable (ExtendsGVK gvk t) :=
  inferInstanceAs (Decidable (_ ∧ _))

theorem isReady_iff {k : KptFile} {ctPrefix : String} :
    k.isReady ctPrefix ↔ (∃ c ∈ k.conditions, ctPrefix.toList <+: c.type.toList) ∧
      ∀ c ∈ k.conditions, ctPrefix.toList <+: c.type.toList → c.status ≠ .conditionFalse := by
  simp only [KptFile.isReady, Bool.and_eq_true, Bool.not_eq_true', List.isEmpty_eq_false_iff,
    ne_eq, List.filter_eq_nil_iff, List.isPrefixOf_iff_prefix, not_forall, not_not, exists_prop,
    List.all_eq_true, List.mem_filter, decide_eq_true_eq, and_imp]

namespace Sdk

/-- The condition of the specializer is True. -/
def SpecializerReady (r : Sdk V) : Prop :=
  ∃ c, r.kptfile.getCondition specializationConditionType = some c ∧ c.status = .conditionTrue

/-- There is a condition of a resource of the for GVK, and all of these are True. -/
def ForsDone (cfg : Config V) (r : Sdk V) : Prop :=
  (∃ c ∈ r.kptfile.conditions, OfGVK cfg.forRef.gvk c.type) ∧
    ∀ c ∈ r.kptfile.conditions, OfGVK cfg.forRef.gvk c.type → c.status = .conditionTrue

/-- Some condition of another kind that begins like the for GVK is False. -/
def HeldBack (cfg : Config V) (r : Sdk V) : Prop :=
  ∃ c ∈ r.kptfile.conditions, ExtendsGVK cfg.forRef.gvk c.type ∧ c.status = .conditionFalse

/-- The Kptfiles whose readiness is judged right. -/
structure JudgedRight (cfg : Config V) (r : Sdk V) : Prop where
  /-- Without a for condition, no other kind stands in for it. -/
  absent : (∀ c ∈ r.kptfile.conditions, ¬ OfGVK cfg.forRef.gvk c.type) →
    (∃ c ∈ r.kptfile.conditions, ExtendsGVK cfg.forRef.gvk c.type) → r.HeldBack cfg
  /-- An Unknown for condition passes, unless a False one is seen as well. -/
  unknown : (∃ c ∈ r.kptfile.conditions, OfGVK cfg.forRef.gvk c.type ∧
      c.status = .conditionUnknown) →
    (∀ c ∈ r.kptfile.conditions, OfGVK cfg.forRef.gvk c.type → c.status ≠ .conditionFalse) →
    r.HeldBack cfg
  /-- With all for conditions True, no other kind stands in the way. -/
  done : r.ForsDone cfg → ¬ r.HeldBack cfg

/-- The last step reads the conditions and sets that of the specializer. -/
theorem specializerReady_runReadiness {cfg : Config V} (hroot : cfg.root = true) {r : Sdk V}
    (hready : r.inv.ready = true) :
    (r.runReadiness cfg).SpecializerReady ↔
      r.kptfile.isReady (getConditionType cfg.forRef.gvk) := by
  have hget : (r.runReadiness cfg).kptfile.getCondition specializationConditionType =
      some (if r.kptfile.isReady (getConditionType cfg.forRef.gvk) then readyCondition
        else notReadyCondition) := by
    simp only [runReadiness, hroot, hready, Bool.and_self, if_true]
    change Keyed.lookup Condition.type _ (Keyed.upsert Condition.type _ _) = _
    rw [Keyed.lookup_upsert, if_pos]
    split_ifs <;> rfl
  simp only [SpecializerReady, hget, Option.some.injEq, exists_eq_left']
  split_ifs with hr
  · exact iff_of_true rfl hr
  · exact iff_of_false (by decide) hr

/-- **Root readiness**: which Kptfiles are judged right. -/
theorem root_ready_iff {cfg : Config V} (hroot : cfg.root = true) {r : Sdk V}
    (hready : r.inv.ready = true) :
    ((r.runReadiness cfg).SpecializerReady ↔ r.ForsDone cfg) ↔ r.JudgedRight cfg := by
  rw [specializerReady_runReadiness hroot hready, isReady_iff]
  have hpre_iff : ∀ t : String, (getConditionType cfg.forRef.gvk).toList <+: t.toList ↔
      OfGVK cfg.forRef.gvk t ∨ ExtendsGVK cfg.forRef.gvk t := fun t => prefix_iff
  have hapart : ∀ {t : String}, ExtendsGVK cfg.forRef.gvk t → ¬ OfGVK cfg.forRef.gvk t := And.right
  simp only [hpre_iff]
  constructor
  · intro h
    refine ⟨fun hnone ⟨c, hc, hext⟩ => ?_, fun ⟨c, hc, hof, hunknown⟩ hnot => ?_, fun hdone => ?_⟩
    · by_contra hheld
      obtain ⟨c', hc', hof⟩ := (h.mp ⟨⟨c, hc, Or.inr hext⟩, fun c' hc' hpre hfalse =>
        hheld ⟨c', hc', hpre.resolve_left (hnone c' hc'), hfalse⟩⟩).1
      exact hnone c' hc' hof
    · by_contra hheld
      have htrue := (h.mp ⟨⟨c, hc, Or.inl hof⟩, fun c' hc' hpre hfalse => hpre.elim
        (fun hof' => hnot c' hc' hof' hfalse) fun hext => hheld ⟨c', hc', hext, hfalse⟩⟩).2 c hc hof
      rw [hunknown] at htrue
      cases htrue
    · rintro ⟨c, hc, hext, hfalse⟩
      exact (h.mpr hdone).2 c hc (Or.inr hext) hfalse
  · intro h
    constructor
    · rintro ⟨⟨c, hc, hpre⟩, hnot⟩
      have hheld : ¬ r.HeldBack cfg := fun ⟨c', hc', hext, hfalse⟩ =>
        hnot c' hc' (Or.inr hext) hfalse
      have hsome : ∃ c ∈ r.kptfile.conditions, OfGVK cfg.forRef.gvk c.type := by
        by_contra hnone
        simp only [not_exists, not_and] at hnone
        exact hheld (h.absent hnone ⟨c, hc, hpre.resolve_left (hnone c hc)⟩)
      refine ⟨hsome, fun c' hc' hof => ?_⟩
      cases hstatus : c'.status with
      | conditionTrue => rfl
      | conditionFalse => exact absurd hstatus (hnot c' hc' (Or.inl hof))
      | conditionUnknown =>
        exact absurd (h.unknown ⟨c', hc', hof, hstatus⟩ fun c'' hc'' hof' =>
          hnot c'' hc'' (Or.inl hof')) hheld
    · intro hdone
      obtain ⟨⟨c, hc, hof⟩, htrue⟩ := hdone
      refine ⟨⟨c, hc, Or.inl hof⟩, fun c' hc' hpre hfalse => ?_⟩
      rcases hpre with hof' | hext
      · rw [htrue c' hc' hof'] at hfalse
        cases hfalse
      · exact h.done ⟨⟨c, hc, hof⟩, htrue⟩ ⟨c', hc', hext, hfalse⟩

section Decide

variable {cfg : Config V} {r : Sdk V}

instance : Decidable (r.ForsDone cfg) := inferInstanceAs (Decidable (_ ∧ _))

instance : Decidable (r.HeldBack cfg) :=
  inferInstanceAs (Decidable (∃ c ∈ r.kptfile.conditions, _))

instance : Decidable (r.JudgedRight cfg) :=
  decidable_of_iff
    (((∀ c ∈ r.kptfile.conditions, ¬ OfGVK cfg.forRef.gvk c.type) →
        (∃ c ∈ r.kptfile.conditions, ExtendsGVK cfg.forRef.gvk c.type) → r.HeldBack cfg) ∧
      ((∃ c ∈ r.kptfile.conditions, OfGVK cfg.forRef.gvk c.type ∧ c.status = .conditionUnknown) →
        (∀ c ∈ r.kptfile.conditions, OfGVK cfg.forRef.gvk c.type → c.status ≠ .conditionFalse) →
        r.HeldBack cfg) ∧
      (r.ForsDone cfg → ¬ r.HeldBack cfg))
    ⟨fun h => ⟨h.1, h.2.1, h.2.2⟩, fun h => ⟨h.absent, h.unknown, h.done⟩⟩

instance : Decidable r.SpecializerReady :=
  decidable_of_iff ((r.kptfile.getCondition specializationConditionType).any
      fun c => c.status = .conditionTrue) <| by
    simp only [SpecializerReady, Option.any_eq_true, decide_eq_true_eq]

end Decide

/-- A Root function for Interfaces. -/
def rootConfig : Config Nat where
  root := true
  forRef := interfaceRef ""
  updateResourceFn := some fun _ o _ => .ok o.toList

def rootPackage (conditions : List Condition) : Sdk Nat where
  items := []
  kptfile := { conditions := conditions }
  inv := { gvkResources := [(interfaceRef "", { gvkKind := .forGVKKind })] }

/-- The type of a condition of a kind whose name begins like that of Interfaces. -/
def bundleType : String := "req.nephio.org/v1alpha1.InterfaceBundle.b1"

theorem root_ready_interface :
    ((rootPackage [forCondition (interfaceRef "n3") "" .conditionTrue]).runReadiness
        rootConfig).SpecializerReady ↔
      (rootPackage [forCondition (interfaceRef "n3") "" .conditionTrue]).ForsDone rootConfig :=
  (root_ready_iff rfl rfl).mpr (by decide +kernel)

/-- A package without Interfaces passes with a condition of another kind or with an Unknown one, and
one whose only Interface is done does not, because of the condition of another kind. -/
theorem other_kinds_and_unknown_count :
    newInventory rootConfig = .ok (rootPackage []).inv ∧
      (∃ r', (rootPackage [{ type := bundleType, status := .conditionTrue }]).run rootConfig
          .insertion = .ok r' ∧ r'.SpecializerReady ∧ ¬ r'.ForsDone rootConfig) ∧
      (∃ r', (rootPackage [forCondition (interfaceRef "n3") "" .conditionUnknown]).run rootConfig
          .insertion = .ok r' ∧ r'.SpecializerReady ∧ ¬ r'.ForsDone rootConfig) ∧
      ∃ r', (rootPackage [forCondition (interfaceRef "n3") "" .conditionTrue,
          { type := bundleType, status := .conditionFalse }]).run rootConfig .insertion = .ok r' ∧
        ¬ r'.SpecializerReady ∧ r'.ForsDone rootConfig := by
  have hrun : ∀ {p : Sdk Nat → Prop} [DecidablePred p] {cs : List Condition},
      Fallible.okAnd (fun r' => decide (p r')) ((rootPackage cs).run rootConfig .insertion) = true →
        ∃ r', (rootPackage cs).run rootConfig .insertion = .ok r' ∧ p r' := by
    intro p _ cs h
    obtain ⟨r', hr', hp⟩ := Fallible.exists_of_okAnd h
    exact ⟨r', hr', of_decide_eq_true hp⟩
  exact ⟨rfl, hrun (by decide +kernel), hrun (by decide +kernel), hrun (by decide +kernel)⟩

end Sdk

end Nephio.CondKptSdk
