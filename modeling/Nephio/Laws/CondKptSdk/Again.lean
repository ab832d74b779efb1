import Nephio.Laws.CondKptSdk.Outcome

/-!
# Laws.CondKptSdk.Again: one child in a second pass

What a second pass of stage 1 sees of a child is what the first one left (`SeenAgain`). Its condition
is a fixed point of `outcome`, whatever the kind of the child and whatever was to be done: a child
that is being deleted has its condition removed and set again, and a child of a remote condition is
created in every pass. The exception is a wanted object that carries the delete annotation itself: it
is created in the first pass, and taken for one to unmark in the second (`outcome_again`). What is
written for the child is a fixed point in any case (`outcomeItem_again`).
-/

namespace Nephio.CondKptSdk

variable {V : Type}

/-- The last element of a kind after an upsert of one of them: the new one, or the last one before. -/
theorem getLast?_filter_upsert {α κ : Type} [DecidableEq κ] {key : α → κ} {q : α → Bool} {x : α}
    (hx : q x = true) (l : List α) :
    ((Keyed.upsert key x l).filter q).getLast? = some x ∨
      ((l.filter q).getLast?.isSome ∧
        ((Keyed.upsert key x l).filter q).getLast? = (l.filter q).getLast?) := by
  induction l with
  | nil =>
    left
    simp only [Keyed.upsert, List.filter_cons_of_pos hx, List.filter_nil, List.getLast?_singleton]
  | cons y l ih =>
    rw [Keyed.upsert]
    split_ifs with hkey
    · rw [List.filter_cons_of_pos hx, List.filter_cons]
      cases hl : l.filter q with
      | nil => exact Or.inl rfl
      | cons z zs =>
        right
        split_ifs <;> simp only [List.getLast?_cons_cons, List.getLast?_isSome, ne_eq,
          reduceCtorEq, not_false_eq_true, and_self]
    · have hmem : x ∈ (Keyed.upsert key x l).filter q :=
        List.mem_filter.mpr ⟨Keyed.mem_upsert_self key x l, hx⟩
      obtain ⟨z, zs, hz⟩ := List.exists_cons_of_ne_nil (List.ne_nil_of_mem hmem)
      rw [List.filter_cons, List.filter_cons]
      split_ifs with hy
      · rw [hz, List.getLast?_cons_cons, ← hz]
        rcases ih with h | ⟨hsome, h⟩
        · exact Or.inl h
        · right
          obtain ⟨w, ws, hw⟩ := List.exists_cons_of_ne_nil (List.getLast?_isSome.mp hsome)
          rw [hw, List.getLast?_cons_cons, ← hw]
          exact ⟨hsome, h⟩
      · exact ih

theorem mark_mark (o : KubeObject V) : mark (mark o) = mark o := by
  unfold mark KubeObject.setAnnotation
  simp only [Keyed.upsert_upsert_self]

section Outcome

variable [DecidableEq V]

theorem specsDiffer_self (s : Option V) : specsDiffer s s = false := by
  cases s with
  | none => rfl
  | some a => exact decide_eq_false fun h => h rfl

/-- A wanted object that was created as it is, delete annotation and all. -/
def createdMarked (res : ResourceCtx V) : Prop :=
  res.existingResource = none ∧ writtenKind res.ownKind ∧
    ∃ new, res.newResource = some new ∧ new.spec.isSome ∧ new.marked

instance (res : ResourceCtx V) : Decidable (createdMarked res) :=
  decidable_of_iff (res.existingResource.isNone ∧ writtenKind res.ownKind ∧
      ∃ new ∈ res.newResource.toList, new.spec.isSome ∧ new.marked) <| by
    simp only [createdMarked, Option.isNone_iff_eq_none, Option.mem_toList]

/-- What a second pass sees of a child: wanted as before, with the condition the first pass gave it,
and with the object it wrote. An object that was there can still be the last one filed. -/
structure SeenAgain (item : Option (KubeObject V)) (ended : Option Condition)
    (res res' : ResourceCtx V) : Prop where
  newResource : res'.newResource = res.newResource
  ownKind : res'.ownKind = res.ownKind
  existingResource : res'.existingResource = item.or res.existingResource ∨
    (res.existingResource.isSome ∧ res'.existingResource = res.existingResource)
  existingCondition : res'.existingCondition = ended

variable {F ref : ObjectReference} {res res' : ResourceCtx V} {held : Option Condition}

/-- The flags of a second pass over a child that was written: only an annotation of the wanted object
itself is still seen. -/
theorem flags_written {new : KubeObject V} (hnew : res'.newResource = some new)
    (hexisting : res'.existingResource = some new) :
    specChanged res' = false ∧
      unmarks res' = (res'.ownKind ≠ some .childRemoteCondition && new.spec.isSome && new.marked) := by
  constructor
  · simp only [specChanged, hnew, hexisting, specsDiffer_self, Bool.and_false]
  · simp only [unmarks, hnew, hexisting, Bool.and_assoc, Bool.and_self_left]

theorem flags_congr (hnew : res'.newResource = res.newResource) (hkind : res'.ownKind = res.ownKind)
    (hexisting : res'.existingResource = res.existingResource) :
    specChanged res' = specChanged res ∧ unmarks res' = unmarks res := by
  simp only [specChanged, unmarks, hnew, hkind, hexisting, and_self]

/-- The first pass leaves something at a wanted child, or at one that is there. -/
theorem outcome_of_unwanted_kept (hnew : res.newResource = none) (hkept : keptKind res.ownKind = true)
    (hheld : ∀ c, res.existingCondition = some c → held = some c) :
    ∃ c, outcome F ref res held = some c := by
  cases hcond : res.existingCondition with
  | none =>
    refine ⟨ownCondition F ref (Sdk.createMsg res.ownKind) (Sdk.createStatus res.ownKind), ?_⟩
    simp [outcome, hnew, hkept, hcond]
  | some c => exact ⟨c, by simp [outcome, hnew, hkept, hcond, hheld c hcond]⟩

theorem outcome_of_unwanted (hnew : res.newResource = none) (hkept : keptKind res.ownKind = false)
    (hexisting : res.existingResource.isSome) :
    outcome F ref res held = some (ownCondition F ref "delete resource" .conditionFalse) := by
  simp [outcome, hnew, hkept, hexisting]

theorem outcome_of_new {new : KubeObject V} (hnew : res.newResource = some new)
    (hexisting : res.existingResource = none) :
    outcome F ref res held =
      some (ownCondition F ref "create initial resource" (Sdk.createStatus res.ownKind)) := by
  simp [outcome, hnew, hexisting]

theorem outcome_of_changed {new : KubeObject V} (hnew : res.newResource = some new)
    (hexisting : res.existingResource.isSome) (hflags : (specChanged res || unmarks res) = true) :
    outcome F ref res held = some (ownCondition F ref "update resource" .conditionFalse) := by
  obtain ⟨o, ho⟩ := Option.isSome_iff_exists.mp hexisting
  simp only [outcome, hnew, ho, Option.isNone_some, Bool.false_eq_true, if_false, hflags, if_true]

theorem outcome_of_unchanged {new : KubeObject V} (hnew : res.newResource = some new)
    (hexisting : res.existingResource.isSome) (hflags : (specChanged res || unmarks res) = false) :
    outcome F ref res held =
      if res.existingCondition.isNone then
        some (ownCondition F ref (Sdk.createMsg res.ownKind) (Sdk.createStatus res.ownKind))
      else held := by
  obtain ⟨o, ho⟩ := Option.isSome_iff_exists.mp hexisting
  simp only [outcome, hnew, ho, Option.isNone_some, Bool.false_eq_true, if_false, hflags]

/-- An unchanged child that has a condition keeps it. -/
theorem outcome_of_held {new : KubeObject V} {c : Condition} (hnew : res.newResource = some new)
    (hexisting : res.existingResource.isSome) (hflags : (specChanged res || unmarks res) = false)
    (hcond : res.existingCondition = some c) : outcome F ref res (some c) = some c := by
  rw [outcome_of_unchanged hnew hexisting hflags, hcond]
  rfl

theorem item_of_new {new x : KubeObject V} (hnew : res.newResource = some new)
    (hitem : outcomeItem res = some x) : x = new := by
  simp only [outcomeItem, hnew] at hitem
  split_ifs at hitem
  exact (Option.some.inj hitem).symm

/-- **One child in a second pass**: its condition is a fixed point, unless it was created marked. -/
theorem outcome_again (hseen : SeenAgain (outcomeItem res) (outcome F ref res held) res res')
    (hheld : ∀ c, res.existingCondition = some c → held = some c)
    (hchild : res.newResource.isSome ∨ res.existingResource.isSome) :
    outcome F ref res' (outcome F ref res held) = outcome F ref res held ↔ ¬ createdMarked res := by
  have hcond := hseen.existingCondition
  have hkind := hseen.ownKind
  cases hnew : res.newResource with
  | none =>
    have hnew' := hseen.newResource.trans hnew
    have hexisting : res.existingResource.isSome := by
      rw [hnew] at hchild
      exact hchild.resolve_left Bool.false_ne_true
    obtain ⟨o, ho⟩ := Option.isSome_iff_exists.mp hexisting
    refine iff_of_true ?_ fun hmarked => by
      obtain ⟨-, -, new, hsome, -⟩ := hmarked
      rw [hnew] at hsome
      cases hsome
    cases hkept : keptKind res.ownKind with
    | true =>
      obtain ⟨c, hc⟩ := @outcome_of_unwanted_kept V _ F ref res held hnew hkept hheld
      rw [hc] at hcond ⊢
      simp [outcome, hnew', hkind, hkept, hcond]
    | false =>
      have hsome : res'.existingResource.isSome := by
        rcases hseen.existingResource with h | ⟨-, h⟩
        · rw [h, ho]
          cases outcomeItem res <;> rfl
        · rw [h, ho]
          rfl
      rw [outcome_of_unwanted hnew hkept hexisting,
        outcome_of_unwanted hnew' (by rw [hkind, hkept]) hsome]
  | some new =>
    have hnew' := hseen.newResource.trans hnew
    cases hexisting : res.existingResource with
    | none =>
      rw [outcome_of_new hnew hexisting] at hcond ⊢
      have hexisting' : res'.existingResource = outcomeItem res := by
        rcases hseen.existingResource with h | ⟨hsome, -⟩
        · rw [h, hexisting, Option.or_none]
        · rw [hexisting] at hsome
          cases hsome
      cases hwritten : writtenKind res.ownKind with
      | false =>
        have hitem : outcomeItem res = none := by simp [outcomeItem, hnew, hwritten]
        rw [hitem] at hexisting'
        rw [outcome_of_new hnew' hexisting', hkind]
        refine iff_of_true rfl fun hmarked => ?_
        have hkind := hmarked.2.1
        rw [hwritten] at hkind
        cases hkind
      | true =>
        have hitem : outcomeItem res = some new := by simp [outcomeItem, hnew, hwritten, hexisting]
        rw [hitem] at hexisting'
        obtain ⟨hspec, hunmarks⟩ := flags_written hnew' hexisting'
        have hremote : decide (res'.ownKind ≠ some .childRemoteCondition) = true := by
          rw [hkind]
          refine decide_eq_true fun heq => ?_
          rw [heq] at hwritten
          cases hwritten
        rw [hremote, Bool.true_and] at hunmarks
        have hsome : res'.existingResource.isSome := by rw [hexisting']; rfl
        cases hflag : new.spec.isSome && new.marked with
        | true =>
          rw [hflag] at hunmarks
          rw [outcome_of_changed hnew' hsome (by rw [hspec, hunmarks]; rfl)]
          refine iff_of_false (fun heq => ?_) (not_not.mpr ?_)
          · have hmsg := congrArg (Option.map Condition.message) heq
            have hmsg : "update resource" = "create initial resource" := Option.some.inj hmsg
            exact absurd hmsg (by decide)
          · rw [Bool.and_eq_true] at hflag
            exact ⟨hexisting, hwritten, new, hnew, hflag.1, hflag.2⟩
        | false =>
          rw [hflag] at hunmarks
          rw [outcome_of_held hnew' hsome (by rw [hspec, hunmarks]; rfl) hcond]
          refine iff_of_true rfl fun hmarked => ?_
          obtain ⟨-, -, new', hsome', hspec', hmarked'⟩ := hmarked
          obtain rfl := Option.some.inj (hnew.symm.trans hsome')
          rw [hspec', hmarked'] at hflag
          cases hflag
    | some o =>
      have hsome : res.existingResource.isSome := by rw [hexisting]; rfl
      refine iff_of_true ?_ fun hmarked => by
        rw [hmarked.1] at hexisting
        cases hexisting
      -- the last object filed is the new one, or the one that was there
      have hlast : res'.existingResource = some new ∨
          res'.existingResource = res.existingResource := by
        rcases hseen.existingResource with h | ⟨-, h⟩
        · cases hitem : outcomeItem res with
          | none => exact Or.inr (by rw [h, hitem, Option.none_or])
          | some x =>
            left
            rw [h, hitem, Option.some_or, item_of_new hnew hitem]
        · exact Or.inr h
      cases hflags : specChanged res || unmarks res with
      | true =>
        rw [outcome_of_changed hnew hsome hflags] at hcond ⊢
        have hsome' : res'.existingResource.isSome := by
          rcases hlast with h | h <;> rw [h]
          · rfl
          · exact hsome
        cases hflags' : specChanged res' || unmarks res' with
        | true => rw [outcome_of_changed hnew' hsome' hflags']
        | false => rw [outcome_of_held hnew' hsome' hflags' hcond]
      | false =>
        have hitem : outcomeItem res = none := by
          simp only [outcomeItem, hnew, hexisting, Option.isNone_some, Bool.false_or, hflags,
            Bool.and_false, Bool.false_eq_true, if_false]
        have hexisting' : res'.existingResource = res.existingResource := by
          rcases hseen.existingResource with h | ⟨-, h⟩
          · rw [h, hitem, Option.none_or]
          · exact h
        obtain ⟨hspec, hunmarks⟩ := flags_congr hseen.newResource hkind hexisting'
        have hflags' : (specChanged res' || unmarks res') = false := by rw [hspec, hunmarks, hflags]
        have hended : ∃ c, outcome F ref res held = some c := by
          rw [outcome_of_unchanged hnew hsome hflags]
          cases hc : res.existingCondition with
          | none => exact ⟨_, rfl⟩
          | some c => exact ⟨c, hheld c hc⟩
        obtain ⟨c, hc⟩ := hended
        rw [hc] at hcond ⊢
        exact outcome_of_held hnew' (by rw [hexisting']; exact hsome) hflags' hcond

/-- What a second pass writes for a child is what the first one wrote. -/
theorem outcomeItem_again {ended : Option Condition}
    (hseen : SeenAgain (outcomeItem res) ended res res') {x : KubeObject V}
    (hx : outcomeItem res' = some x) : outcomeItem res = some x := by
  have hkind := hseen.ownKind
  cases hnew : res.newResource with
  | none =>
    have hnew' := hseen.newResource.trans hnew
    simp only [outcomeItem, hnew', hkind] at hx
    split_ifs at hx with hkept
    obtain ⟨o', ho', rfl⟩ := Option.map_eq_some_iff.mp hx
    have hitem : outcomeItem res = res.existingResource.map mark := by
      simp only [outcomeItem, hnew, if_neg hkept]
    rcases hseen.existingResource with h | ⟨-, h⟩
    · rw [h, hitem] at ho'
      cases ho : res.existingResource with
      | none =>
        rw [ho] at ho'
        cases ho'
      | some o =>
        rw [ho] at ho' hitem
        obtain rfl := Option.some.inj ho'
        rw [mark_mark]
        exact hitem
    · rw [hitem, ← h, ho']
      rfl
  | some new =>
    have hnew' := hseen.newResource.trans hnew
    obtain rfl := item_of_new hnew' hx
    by_contra hnone
    have hitem : outcomeItem res = none := by
      cases hitem : outcomeItem res with
      | none => rfl
      | some y =>
        rw [item_of_new hnew hitem] at hitem
        exact absurd hitem hnone
    have hexisting' : res'.existingResource = res.existingResource := by
      rcases hseen.existingResource with h | ⟨-, h⟩
      · rw [h, hitem, Option.none_or]
      · exact h
    obtain ⟨hspec, hunmarks⟩ := flags_congr hseen.newResource hkind hexisting'
    simp only [outcomeItem, hnew, hnew', hkind, hexisting', hspec, hunmarks] at hx hitem
    rw [hitem] at hx
    cases hx

omit [DecidableEq V] in
theorem isSome_orphan_again
    (hexisting : res'.existingResource = (orphanItem res).or res.existingResource ∨
      (res.existingResource.isSome ∧ res'.existingResource = res.existingResource)) :
    res'.existingResource.isSome = res.existingResource.isSome := by
  rcases hexisting with h | ⟨-, h⟩
  · rw [h, orphanItem]
    cases res.existingResource <;> split_ifs <;> rfl
  · rw [h]

omit [DecidableEq V] in
/-- **One child without its for-instance in a second pass**: a fixed point. -/
theorem orphanOutcome_again {p : Condition → Bool} (hkind : res'.ownKind = res.ownKind)
    (hexisting : res'.existingResource.isSome = res.existingResource.isSome)
    (hcond : res.existingCondition = held.filter p)
    (hcond' : res'.existingCondition = (orphanOutcome F ref res held).filter p) :
    orphanOutcome F ref res' (orphanOutcome F ref res held) = orphanOutcome F ref res held := by
  by_cases hdelete : (res.existingResource.isSome && res.ownKind ≠ some .childInitial) = true
  · have hended : orphanOutcome F ref res held =
        some (ownCondition F ref "delete resource" .conditionFalse) := if_pos hdelete
    rw [hended]
    exact if_pos (by rw [hexisting, hkind]; exact hdelete)
  · have hended : orphanOutcome F ref res held =
        if res.existingCondition.isSome then none else held := if_neg hdelete
    rw [orphanOutcome, if_neg (by rw [hexisting, hkind]; exact hdelete), hcond', hended]
    by_cases hsome : res.existingCondition.isSome
    · rw [if_pos hsome, Option.filter_none]
      rfl
    · rw [if_neg hsome, ← hcond, if_neg hsome]

omit [DecidableEq V] in
theorem orphanItem_again (hkind : res'.ownKind = res.ownKind)
    (hexisting : res'.existingResource = (orphanItem res).or res.existingResource ∨
      (res.existingResource.isSome ∧ res'.existingResource = res.existingResource))
    {x : KubeObject V} (hx : orphanItem res' = some x) : orphanItem res = some x := by
  rw [orphanItem, hkind] at hx
  split_ifs at hx with hinitial
  obtain ⟨o', ho', rfl⟩ := Option.map_eq_some_iff.mp hx
  have hitem : orphanItem res = res.existingResource.map mark := if_neg hinitial
  rcases hexisting with h | ⟨-, h⟩
  · rw [h, hitem] at ho'
    cases ho : res.existingResource with
    | none =>
      rw [ho] at ho'
      cases ho'
    | some o =>
      rw [ho] at ho' hitem
      obtain rfl := Option.some.inj ho'
      rw [mark_mark]
      exact hitem
  · rw [hitem, ← h, ho']
    rfl

/-- A child ends stage 1 with the condition it had, or with one that names its for-instance. -/
theorem childOutcome_cases {forRes : ResourceCtx V} {c : Condition}
    (h : childOutcome F ref forRes res held = some c) :
    held = some c ∨ c.reason = getConditionType F := by
  unfold childOutcome outcome orphanOutcome at h
  split at h
  · simp only at h
    split at h <;> split_ifs at h
    all_goals
      first
      | exact Or.inl h
      | exact Or.inr (by rw [← Option.some.inj h]; rfl)
  · split_ifs at h
    · exact Or.inr (by rw [← Option.some.inj h]; rfl)
    · exact Or.inl h

/-- Where its for-instance is there, a child ends stage 1 with a condition that names it. -/
theorem outcome_named {P : Condition → Prop}
    (hheld : ∀ c, res.existingCondition = some c → held = some c ∧ P c)
    (hown : ∀ msg status, P (ownCondition F ref msg status)) {c : Condition}
    (h : outcome F ref res held = some c) : P c := by
  have hkept : ¬ res.existingCondition.isNone = true → held = some c → P c := by
    intro hsome hc
    cases hcond : res.existingCondition with
    | none => exact absurd (by rw [hcond]; rfl) hsome
    | some c' =>
      obtain ⟨hheld', hP⟩ := hheld c' hcond
      rwa [← Option.some.inj (hheld'.symm.trans hc)]
  unfold outcome at h
  simp only at h
  split at h <;> split_ifs at h with h₁ h₂ h₃ <;>
    first
    | exact hkept ‹_› h
    | exact Option.some.inj h ▸ hown _ _

/-- What is written for a child is the wanted object, or the one that was there, marked. -/
theorem childItem_cases {forRes : ResourceCtx V} {x : KubeObject V}
    (h : childItem forRes res = some x) :
    res.newResource = some x ∨ ∃ o, res.existingResource = some o ∧ x = mark o := by
  unfold childItem at h
  split_ifs at h
  · cases hnew : res.newResource with
    | none =>
      simp only [outcomeItem, hnew] at h
      split_ifs at h
      obtain ⟨o, ho, rfl⟩ := Option.map_eq_some_iff.mp h
      exact Or.inr ⟨o, ho, rfl⟩
    | some new => exact Or.inl (by rw [item_of_new hnew h])
  · rw [orphanItem] at h
    split_ifs at h
    obtain ⟨o, ho, rfl⟩ := Option.map_eq_some_iff.mp h
    exact Or.inr ⟨o, ho, rfl⟩

/-- The steps for a child write its item, and nothing else. -/
theorem written_present {fc : Option Condition} {o : KubeObject V}
    (h : o ∈ (presentDelta true fc ref res).steps.flatMap fun s => s.2.written) :
    outcomeItem res = some o := by
  have habout := about_presentDelta true fc ref res
  simp only [InventoryDiff.steps, sortByRef_of_sublist habout.createConditions,
    sortByRef_of_sublist habout.createObjs, sortByRef_of_sublist habout.updateObjs] at h
  cases hnr : res.newResource with
  | none =>
    have hspec := specChanged_eq_false (Or.inr hnr)
    have hunmarks := unmarks_eq_false (Or.inr hnr)
    cases her : res.existingResource <;> cases hec : res.existingCondition <;>
      cases hkept : keptKind res.ownKind <;>
      simp [presentDelta, ChildStep.written, hnr, her, hec, hkept, hspec, hunmarks] at h <;>
      simp [outcomeItem, hnr, her, hkept, h]
  | some new =>
    cases her : res.existingResource with
    | none =>
      have hspec := specChanged_eq_false (Or.inl her)
      have hunmarks := unmarks_eq_false (Or.inl her)
      cases hec : res.existingCondition <;> cases hkind : writtenKind res.ownKind <;>
        simp [presentDelta, ChildStep.written, hnr, her, hec, hspec, hunmarks, hkind] at h <;>
        simp [outcomeItem, hnr, her, hkind, h]
    | some existing =>
      cases hec : res.existingCondition <;> cases hspec : specChanged res <;>
        cases hunmarks : unmarks res <;> cases hkind : writtenKind res.ownKind <;>
        simp [presentDelta, ChildStep.written, hnr, her, hec, hspec, hunmarks, hkind] at h <;>
        simp [outcomeItem, hnr, her, hspec, hunmarks, hkind, h]

/-- A child that needs nothing in the first pass needs nothing in the second. -/
theorem changed_again (hseen : SeenAgain (outcomeItem res) (outcome F ref res held) res res')
    (hheld : ∀ c, res.existingCondition = some c → held = some c) (hchanged : changed res = false) :
    changed res' = false := by
  simp only [changed, Bool.or_eq_false_iff, Bool.not_eq_false', Bool.and_eq_true,
    bne_eq_false_iff_eq] at hchanged
  obtain ⟨⟨⟨⟨hnew, hcond⟩, hexisting⟩, hspec⟩, hunmarks⟩ := hchanged
  obtain ⟨new, hnew⟩ := Option.isSome_iff_exists.mp hnew
  obtain ⟨c, hcond⟩ := Option.isSome_iff_exists.mp hcond
  have hsome : res.existingResource.isSome := by rw [hexisting, hnew]; rfl
  obtain ⟨o, ho⟩ := Option.isSome_iff_exists.mp hsome
  have hitem : outcomeItem res = none := by
    simp only [outcomeItem, hnew, ho, hspec, hunmarks, Option.isNone_some, Bool.or_self,
      Bool.and_false, Bool.false_eq_true, if_false]
  have hexisting' : res'.existingResource = res.existingResource := by
    rcases hseen.existingResource with h | ⟨-, h⟩
    · rw [h, hitem, Option.none_or]
    · exact h
  obtain ⟨hspec', hunmarks'⟩ := flags_congr hseen.newResource hseen.ownKind hexisting'
  have hcond' : res'.existingCondition = some c := by
    rw [hseen.existingCondition, hheld c hcond,
      outcome_of_held hnew hsome (by rw [hspec, hunmarks]; rfl) hcond]
  simp only [changed, hseen.newResource, hnew, hcond', hexisting', ho, hspec', hunmarks', hspec,
    hunmarks, Option.isSome_some, Bool.and_self, Bool.not_true, bne_self_eq_false, Bool.or_self]

end Outcome

end Nephio.CondKptSdk
