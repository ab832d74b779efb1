import Nephio.Laws.CondKptSdk.FailSafe
import Nephio.Laws.CondKptSdk.Reasons
import Nephio.Laws.CondKptSdk.Returned

/-!
# Laws.CondKptSdk.Ends: the conditions at the end of a Run

Every condition of the Kptfile after a Run is known from the package before it. For a for-instance
and for a child the value is a closed form, up to the message (`ends`, `endsOwn`), for a child that
stage 2 finishes it is True, and the rest is as it was. Where a watch fails the for-instances keep
their conditions or fail, and the children are withdrawn.
-/

namespace Nephio.CondKptSdk

variable {V : Type}

/-- A condition without its message: the status, and the owner. -/
def standing (c : Condition) : ConditionStatus × String := (c.status, c.reason)

/-- Edits that put something True leave something True, if there are any. -/
theorem foldl_put_true {es : List ConditionEdit}
    (hes : ∀ e ∈ es, ∃ c, e = .put c ∧ c.status = .conditionTrue) (held : Option Condition) :
    (es = [] ∧ es.foldl (fun held e => e.act held) held = held) ∨
      ∃ c, es.foldl (fun held e => e.act held) held = some c ∧ c.status = .conditionTrue := by
  induction es generalizing held with
  | nil => exact Or.inl ⟨rfl, rfl⟩
  | cons e es ih =>
    obtain ⟨c, rfl, hc⟩ := hes e List.mem_cons_self
    rcases ih (fun e he => hes e (List.mem_cons_of_mem _ he)) (some c) with ⟨-, hkept⟩ | hput
    · exact Or.inr ⟨c, hkept, hc⟩
    · exact Or.inr hput

/-- Edits of `SetConditionRefFailed` keep an empty reason. -/
theorem unowned_foldl_failEdit {es : List ConditionEdit}
    (hes : ∀ e ∈ es, ∃ F msg, e = failEdit F msg) {held : Option Condition}
    (hheld : ∀ c, held = some c → c.reason = "") {c : Condition}
    (h : es.foldl (fun held e => e.act held) held = some c) : c.reason = "" := by
  induction es generalizing held with
  | nil => exact hheld c h
  | cons e es ih =>
    obtain ⟨F, msg, rfl⟩ := hes e List.mem_cons_self
    refine ih (fun e he => hes e (List.mem_cons_of_mem _ he)) (fun c' hc' => ?_) h
    rw [← Option.some.inj hc']
    cases held with
    | none => rfl
    | some c => exact hheld c rfl

/-- Edits of `SetConditionRefFailed` leave the condition False, if there are any. -/
theorem standing_foldl_failEdit {F : ObjectReference} {es : List ConditionEdit}
    (hes : ∀ e ∈ es, ∃ msg, e = failEdit F msg) (held : Option Condition) :
    (es.foldl (fun held e => e.act held) held).map standing =
      if es = [] then held.map standing
      else some (.conditionFalse, (held.map Condition.reason).getD "") := by
  induction es generalizing held with
  | nil => rfl
  | cons e es ih =>
    obtain ⟨msg, rfl⟩ := hes e List.mem_cons_self
    rw [List.foldl_cons, ih fun e he => hes e (List.mem_cons_of_mem _ he), if_neg (List.cons_ne_nil _ _)]
    cases held <;> cases es <;> rfl

/-- A resource without a name does not have the condition type of one in the documented form. -/
theorem type_ne_unnamed {F G ref : ObjectReference} (hFdoc : F.Documented) (hgvk : G.gvk = F.gvk)
    (hname : G.name = "") (href : ref.Documented) : getConditionType ref ≠ getConditionType G := by
  intro heq
  have hempty := decode_unnamed hFdoc hgvk hname
  rw [← heq, href.decode] at hempty
  exact ne_empty_of_named href.named hempty

namespace Sdk

/-- Only a Root function has the condition of the specializer to look after. -/
theorem getCondition_ensured_of {cfg : Config V} {r : Sdk V} {t : String}
    (ht : cfg.root → specializationConditionType ≠ t) :
    (r.ensured cfg).kptfile.getCondition t = r.kptfile.getCondition t := by
  by_cases hroot : cfg.root = true
  · exact getCondition_ensured (ht hroot)
  · rw [ensured, if_neg hroot]

theorem getCondition_readiness {cfg : Config V} {r : Sdk V} {t : String}
    (ht : cfg.root → specializationConditionType ≠ t) :
    (r.runReadiness cfg).kptfile.getCondition t = r.kptfile.getCondition t := by
  by_cases hroot : cfg.root = true
  · exact getCondition_runReadiness (ht hroot)
  · simp only [runReadiness, hroot, Bool.false_and, Bool.false_eq_true, if_false]

/-- A for-instance has children in the package. -/
def HasChildren (r : Sdk V) (F : ObjectReference) : Prop := ∃ ref, r.Owns F ref

instance {r : Sdk V} {F : ObjectReference} : Decidable (r.HasChildren F) :=
  decidable_of_iff (∃ e ∈ resourcesOf r.kptfile.conditions r.items, r.Owns F e.1)
    ⟨fun ⟨e, _, hown⟩ => ⟨e.1, hown⟩, fun ⟨ref, hown⟩ => ⟨(ref, F), hown.2.2, hown⟩⟩

variable [DecidableEq V]

/-! ## Stage 2 away from the for-instances -/

section Stage2

variable {cfg : Config V} {ord : Order} {r r₁ r₂ : Sdk V} (hfresh : r.inv.Fresh cfg)
  (hdoc : r.Documented cfg) (h : (r.filed cfg).stage1 cfg ord = .ok r₁)
  {updateFn : UpdateResourceFn V}

/-- `UpdateResourceFn` returns an own object of the given condition type for a for-instance that the
inventory holds no condition of. -/
def Returns (updateFn : UpdateResourceFn V) (ord : Order) (inv : Inv V) (G : ObjectReference)
    (t : String) : Prop :=
  G.Named ∧ (inv.readyCtxOf G).forCondition = none ∧
    ∃ objs, reply updateFn ord G (inv.readyCtxOf G) = some (.ok objs) ∧
      ∃ obj ∈ objs, inv.role obj.ref = some .ownGVKKind ∧ obj.ref.Named ∧ getConditionType obj.ref = t

include hfresh hdoc h

/-- What stage 2 writes: the condition of a for-instance, or that of a returned object. -/
theorem mem_stage2_conditions {e : ConditionEdit}
    (he : e ∈ (stage2Script updateFn ord r₁.inv).conditions) :
    ∃ G, r.ForInstance cfg G ∧
      ((∃ err, e = failEdit G err) ∨ (G.Named ∧ e.target = getConditionType G) ∨
        ∃ c, e = .put c ∧ c.status = .conditionTrue ∧ Returns updateFn ord r₁.inv G c.type) := by
  obtain ⟨⟨G, ctx⟩, hctx, he⟩ := List.mem_flatMap.mp he
  have hmem : (G, ctx) ∈ r₁.inv.getReadyMap := (ord.perm _ _).mem_iff.mp hctx
  obtain ⟨hG, -⟩ := target_updateFor hfresh h hmem he
  obtain ⟨-, rfl⟩ := (mem_getReadyMap_iff (keysNodup_of_stage1 hfresh h)).mp hmem
  refine ⟨G, hG, ?_⟩
  rcases mem_conditions_updateForScript he with ⟨err, rfl⟩ | ⟨obj, hobj, he⟩
  · exact Or.inl ⟨err, rfl⟩
  · obtain ⟨objs, hreply, hobj⟩ := mem_returnedObjs.mp hobj
    obtain ⟨hnamed, ⟨c, hc, htarget⟩ | ⟨-, -, htarget⟩ | ⟨hnone, hrole, hobjnamed, htarget⟩⟩ :=
      target_updateResourceScript he
    · rw [type_of_forCondition hfresh h hdoc hG hc] at htarget
      exact Or.inr (Or.inl ⟨hnamed, htarget⟩)
    · exact Or.inr (Or.inl ⟨hnamed, htarget⟩)
    · rw [hnone] at he
      simp only [updateResourceScript, hrole, hnamed, hobjnamed, and_self, if_true, doneCondition,
        List.mem_singleton] at he
      exact Or.inr (Or.inr
        ⟨_, he, rfl, hnamed, hnone, objs, hreply, obj, hobj, hrole, hobjnamed, rfl⟩)

omit hdoc in
/-- An own object that is returned has its edit. -/
theorem exists_stage2_of_returns {G : ObjectReference} {t : String} (hG : r.ForInstance cfg G)
    (hreturns : Returns updateFn ord r₁.inv G t) :
    ∃ e ∈ (stage2Script updateFn ord r₁.inv).conditions, e.target = t := by
  obtain ⟨hnamed, hnone, objs, hreply, obj, hobj, hrole, hobjnamed, rfl⟩ := hreturns
  have hsome : (r₁.inv.resources.find (forPath G)).isSome :=
    (isSome_of_stage1 hfresh h _).mpr ((isSome_stage1_for hfresh).mpr hG)
  have hctx := (mem_getReadyMap_iff (keysNodup_of_stage1 hfresh h)).mpr ⟨hsome, rfl⟩
  refine ⟨.put (ownCondition G obj.ref "update done" .conditionTrue), ?_, rfl⟩
  rw [stage2Script, Script.conditions_flatMap]
  refine List.mem_flatMap.mpr ⟨_, (ord.perm _ _).mem_iff.mpr hctx, ?_⟩
  rw [conditions_updateForScript, hreply]
  refine List.mem_flatMap.mpr ⟨obj, hobj, ?_⟩
  simp only [updateResourceScript, hrole, hnamed, hobjnamed, and_self, if_true, hnone,
    doneCondition, List.mem_singleton]

/-- **A condition that is not of a for-instance** after stage 2: True, if an object of it is returned,
and as stage 1 left it, if not. -/
theorem lookup_stage2_not_for (hwrites : Writes (stage2Script updateFn ord r₁.inv) r₁ r₂)
    {t : String} (ht : ∀ G, r.ForInstance cfg G → getConditionType G ≠ t) :
    ((∃ G, r.ForInstance cfg G ∧ Returns updateFn ord r₁.inv G t) →
      ∃ c, r₂.kptfile.getCondition t = some c ∧ c.status = .conditionTrue) ∧
    ((∀ G, r.ForInstance cfg G → ¬ Returns updateFn ord r₁.inv G t) →
      r₂.kptfile.getCondition t = r₁.kptfile.getCondition t) := by
  have hlookup : r₂.kptfile.getCondition t = ((stage2Script updateFn ord r₁.inv).conditions.filter
      fun e => e.target = t).foldl (fun held e => e.act held) (r₁.kptfile.getCondition t) := by
    show Keyed.lookup Condition.type t r₂.kptfile.conditions = _
    rw [hwrites.conditions, Keyed.lookup_applyAll]
    rfl
  have hedits : ∀ e ∈ (stage2Script updateFn ord r₁.inv).conditions, e.target = t →
      ∃ G c, r.ForInstance cfg G ∧ e = .put c ∧ c.status = .conditionTrue ∧
        Returns updateFn ord r₁.inv G t := by
    intro e he htarget
    obtain ⟨G, hG, ⟨err, rfl⟩ | ⟨-, hfor⟩ | ⟨c, rfl, hc, hreturns⟩⟩ :=
      mem_stage2_conditions hfresh hdoc h he
    · exact absurd htarget (ht G hG)
    · exact absurd (hfor.symm.trans htarget) (ht G hG)
    · obtain rfl : c.type = t := htarget
      exact ⟨G, c, hG, rfl, hc, hreturns⟩
  constructor
  · rintro ⟨G, hG, hreturns⟩
    obtain ⟨e, he, htarget⟩ := exists_stage2_of_returns hfresh h hG hreturns
    rw [hlookup]
    refine (foldl_put_true (fun e he => ?_) _).resolve_left fun hnil => ?_
    · obtain ⟨he, htarget⟩ := List.mem_filter.mp he
      obtain ⟨-, c, -, rfl, hc, -⟩ := hedits e he (of_decide_eq_true htarget)
      exact ⟨c, rfl, hc⟩
    · exact List.filter_eq_nil_iff.mp hnil.1 e he (decide_eq_true htarget)
  · intro hnot
    rw [hlookup, List.filter_eq_nil_iff.mpr]
    · rfl
    · intro e he
      rw [decide_eq_true_eq]
      intro htarget
      obtain ⟨G, -, hG, -, -, hreturns⟩ := hedits e he htarget
      exact hnot G hG hreturns

end Stage2

/-! ## A Run whose watches succeed -/

/-- Stage 2 finishes the child of a condition type: `UpdateResourceFn` returns its object, for a
for-instance that has no condition. -/
def Finishes (cfg : Config V) (ord : Order) (r : Sdk V) (t : String) : Prop :=
  ∃ G objs, G.Documented ∧ r.settledEntry cfg G = none ∧ r.answer cfg ord G = some (.ok objs) ∧
    ∃ obj ∈ objs, r.inv.role obj.ref = some .ownGVKKind ∧ obj.ref.Named ∧ getConditionType obj.ref = t

section Ready

variable {cfg : Config V} {ord : Order} {r r₁ r' : Sdk V} (hfresh : r.inv.Fresh cfg)
  (hdoc : r.Documented cfg) (hwatches : (r.ensured cfg).WatchesSucceed cfg ord)

include hfresh hwatches in
/-- A Run whose watches succeed is stage 1, stage 2 and the sum of the conditions. -/
theorem run_ready (h : r.run cfg ord = .ok r') :
    ∃ r₁ r₂ updateFn, ((r.ensured cfg).filed cfg).stage1 cfg ord = .ok r₁ ∧
      r₁.inv.ready = true ∧ cfg.updateResourceFn = some updateFn ∧
      Writes (stage2Script updateFn ord r₁.inv) r₁ r₂ ∧ r₂.runReadiness cfg = r' := by
  have hs := fresh_ensured hfresh
  obtain ⟨r₁, r₂, h₁, h₂, rfl⟩ := run_eq_ok.mp h
  rw [runWatches_of_succeed hwatches] at h₁
  have hready : r₁.inv.ready = true := by
    rw [inv_of_stage1 hs h₁]
    exact hs.ready
  obtain ⟨updateFn, hfn⟩ := Option.isSome_iff_exists.mp hfresh.updates
  obtain ⟨r₂', hr₂', hwrites⟩ := updateResources_writes hfn ord hready
  obtain rfl : r₂' = r₂ := Except.ok.inj (hr₂'.symm.trans h₂)
  exact ⟨r₁, r₂', updateFn, h₁, hready, hfn, hwrites, rfl⟩

include hwatches in
theorem answer_eq (h₁ : ((r.ensured cfg).filed cfg).stage1 cfg ord = .ok r₁)
    (hready : r₁.inv.ready = true) {updateFn : UpdateResourceFn V}
    (hfn : cfg.updateResourceFn = some updateFn) (G : ObjectReference) :
    r.answer cfg ord G = if (r₁.inv.resources.find (forPath G)).isSome then
      reply updateFn ord G (r₁.inv.readyCtxOf G) else none := by
  rw [← runWatches_of_succeed hwatches] at h₁
  simp only [answer, h₁, hfn, hready, true_and]

include hfresh hdoc hwatches

theorem finishes_iff (h₁ : ((r.ensured cfg).filed cfg).stage1 cfg ord = .ok r₁)
    (hready : r₁.inv.ready = true) {updateFn : UpdateResourceFn V}
    (hfn : cfg.updateResourceFn = some updateFn) {t : String} :
    r.Finishes cfg ord t ↔
      ∃ G, (r.ensured cfg).ForInstance cfg G ∧ Returns updateFn ord r₁.inv G t := by
  have hs := fresh_ensured hfresh
  have hsdoc := documented_ensured hfresh hdoc
  have hroles : r₁.inv.role = r.inv.role := by
    rw [inv_of_stage1 hs h₁, ← @inv_ensured V cfg r]
    rfl
  have hsome : ∀ G, (r₁.inv.resources.find (forPath G)).isSome ↔
      (r.ensured cfg).ForInstance cfg G := fun G =>
    (isSome_of_stage1 hs h₁ _).trans (isSome_stage1_for hs)
  have hentry : ∀ G, (r.ensured cfg).ForInstance cfg G → G.Documented →
      (r₁.inv.readyCtxOf G).forCondition = r.settledEntry cfg G := by
    intro G hG hGdoc
    rw [← (settled_ensured hfresh hGdoc).2, ← (settled_of_stage1 hs hsdoc h₁ hG hGdoc).2]
    rfl
  constructor
  · rintro ⟨G, objs, hGdoc, hnone, hanswer, obj, hobj, hrole, hnamed, ht⟩
    rw [answer_eq hwatches h₁ hready hfn] at hanswer
    split_ifs at hanswer with hG
    have hG := (hsome G).mp hG
    exact ⟨G, hG, hGdoc.named, (hentry G hG hGdoc).trans hnone, objs, hanswer, obj, hobj,
      by rw [hroles]; exact hrole, hnamed, ht⟩
  · rintro ⟨G, hG, hGnamed, hnone, objs, hreply, obj, hobj, hrole, hnamed, ht⟩
    have hGdoc := (hsdoc.forInstance hs hG).resolve_right hGnamed.2.2
    refine ⟨G, objs, hGdoc, (hentry G hG hGdoc).symm.trans hnone, ?_, obj, hobj,
      by rw [← hroles]; exact hrole, hnamed, ht⟩
    rw [answer_eq hwatches h₁ hready hfn, if_pos ((hsome G).mpr hG), hreply]

variable (h : r.run cfg ord = .ok r')

include h

/-- **A condition that is not of a for-instance** at the end of the Run. -/
theorem getCondition_run_not_for {t : String}
    (hspec : cfg.root → specializationConditionType ≠ t)
    (ht : ∀ G, (r.ensured cfg).ForInstance cfg G → getConditionType G ≠ t) :
    ∃ r₁, ((r.ensured cfg).filed cfg).stage1 cfg ord = .ok r₁ ∧
      (r.Finishes cfg ord t →
        ∃ c, r'.kptfile.getCondition t = some c ∧ c.status = .conditionTrue) ∧
      (¬ r.Finishes cfg ord t → r'.kptfile.getCondition t = r₁.kptfile.getCondition t) := by
  obtain ⟨r₁, r₂, updateFn, h₁, hready, hfn, hwrites, rfl⟩ := run_ready hfresh hwatches h
  obtain ⟨hfinished, hkept⟩ := lookup_stage2_not_for (fresh_ensured hfresh)
    (documented_ensured hfresh hdoc) h₁ hwrites ht
  refine ⟨r₁, h₁, ?_⟩
  rw [getCondition_readiness hspec, finishes_iff hfresh hdoc hwatches h₁ hready hfn]
  exact ⟨hfinished, fun hnot => hkept fun G hG hreturns => hnot ⟨G, hG, hreturns⟩⟩

/-- **The condition of a child** at the end of the Run. -/
theorem getCondition_run_own {F ref : ObjectReference} (hown : r.Owns F ref ∨ r.Wants cfg F ref)
    (honly : r.Only cfg F ref) :
    (r.Finishes cfg ord (getConditionType ref) →
      ∃ c, r'.kptfile.getCondition (getConditionType ref) = some c ∧ c.status = .conditionTrue) ∧
    (¬ r.Finishes cfg ord (getConditionType ref) →
      r'.kptfile.getCondition (getConditionType ref) =
        childOutcome F ref (r.forCtx cfg F) (r.childCtx cfg F ref)
          (r.kptfile.getCondition (getConditionType ref))) := by
  have hs := fresh_ensured hfresh
  have hsdoc := documented_ensured hfresh hdoc
  obtain ⟨hFdoc, hrefdoc⟩ := hdoc.child hown
  have hF := ne_empty_of_named hFdoc.named
  have hfamily : ∀ {G}, (r.ensured cfg).Owns G ref ∨ (r.ensured cfg).Wants cfg G ref ↔
      r.Owns G ref ∨ r.Wants cfg G ref := or_congr (owns_ensured hfresh) wants_ensured
  have hsown := hfamily.mpr hown
  obtain ⟨r₁, h₁, hfinished, hkept⟩ := getCondition_run_not_for hfresh hdoc hwatches h
    (fun _ => specialization_ne hrefdoc) fun G hG =>
      type_ne_of_own hs hsdoc (forInstance_of_own hs hsown) hFdoc hG
        (hsown.elim (fun hown => hown.1) fun hwants => hwants.1) hrefdoc
  refine ⟨hfinished, fun hnot => (hkept hnot).trans ?_⟩
  refine (lookup_stage1_own hs hsdoc h₁ (fun G hG => honly G (hfamily.mp hG)) hsown).trans ?_
  rw [forCtx_ensured hF, childCtx_ensured hF]
  exact congrArg (childOutcome F ref _ _) (getCondition_ensured (specialization_ne hrefdoc))

/-- **Any other condition** at the end of the Run. -/
theorem getCondition_run_other {t : String}
    (hspec : cfg.root → specializationConditionType ≠ t)
    (hfor : ∀ G, (r.ensured cfg).ForInstance cfg G → getConditionType G ≠ t)
    (hown : ∀ F ref, r.Owns F ref ∨ r.Wants cfg F ref → getConditionType ref ≠ t) :
    (r.Finishes cfg ord t →
      ∃ c, r'.kptfile.getCondition t = some c ∧ c.status = .conditionTrue) ∧
    (¬ r.Finishes cfg ord t → r'.kptfile.getCondition t = r.kptfile.getCondition t) := by
  have hs := fresh_ensured hfresh
  have hsdoc := documented_ensured hfresh hdoc
  obtain ⟨r₁, h₁, hfinished, hkept⟩ := getCondition_run_not_for hfresh hdoc hwatches h hspec hfor
  refine ⟨hfinished, fun hnot => (hkept hnot).trans ?_⟩
  refine (lookup_stage1_other hs hsdoc h₁ (fun G hG _ => hfor G hG) fun F ref hsown =>
    hown F ref (hsown.imp (owns_ensured hfresh).mp wants_ensured.mp)).trans ?_
  exact getCondition_ensured_of hspec

/-- The condition of a for-instance without a name, which only a failure of stage 2 writes, names no
owner. -/
theorem unowned_ready_unnamed
    (hret : ∀ obj ∈ r.returned cfg ord, r.inv.role obj.ref = some .ownGVKKind →
      obj.ref.Documented)
    {F G : ObjectReference} (hFdoc : F.Documented) (hgvk : G.gvk = F.gvk) (hname : G.name = "")
    (hspec : cfg.root → specializationConditionType ≠ getConditionType G)
    (hnone : r.kptfile.getCondition (getConditionType G) = none) {c : Condition}
    (hc : r'.kptfile.getCondition (getConditionType G) = some c) : c.reason = "" := by
  have hs := fresh_ensured hfresh
  have hsdoc := documented_ensured hfresh hdoc
  have hne := fun ref href => @type_ne_unnamed F G ref hFdoc hgvk hname href
  obtain ⟨r₁, r₂, updateFn, h₁, hready, hfn, hwrites, rfl⟩ := run_ready hfresh hwatches h
  have hstage1 : r₁.kptfile.getCondition (getConditionType G) = none := by
    refine (lookup_stage1_other hs hsdoc h₁ (fun F' _ hF'doc => hne F' hF'doc) fun F' ref hown =>
      hne ref (hsdoc.child hown).2).trans ?_
    exact (getCondition_ensured_of hspec).trans hnone
  rw [getCondition_readiness hspec] at hc
  have hc : Keyed.lookup Condition.type (getConditionType G) r₂.kptfile.conditions = some c := hc
  rw [hwrites.conditions, Keyed.lookup_applyAll] at hc
  refine unowned_foldl_failEdit (fun e he => ?_) (fun c' hc' => ?_) hc
  · obtain ⟨he, htarget⟩ := List.mem_filter.mp he
    have htarget := of_decide_eq_true htarget
    obtain ⟨G', hG', ⟨err, rfl⟩ | ⟨hnamed, hfor⟩ | ⟨c', rfl, -, hreturns⟩⟩ :=
      mem_stage2_conditions hs hsdoc h₁ he
    · exact ⟨G', err, rfl⟩
    · have hG'doc := (hsdoc.forInstance hs hG').resolve_right hnamed.2.2
      exact absurd (hfor.symm.trans htarget) (hne G' hG'doc)
    · obtain ⟨-, -, objs, hreply, obj, hobj, hrole, -, htype⟩ := hreturns
      have hsome : (r₁.inv.resources.find (forPath G')).isSome :=
        (isSome_of_stage1 hs h₁ _).mpr ((isSome_stage1_for hs).mpr hG')
      have hctx := (mem_getReadyMap_iff (keysNodup_of_stage1 hs h₁)).mpr ⟨hsome, rfl⟩
      have hroles : r₁.inv.role = r.inv.role := by
        rw [inv_of_stage1 hs h₁, ← @inv_ensured V cfg r]
        rfl
      rw [← runWatches_of_succeed hwatches] at h₁
      rw [hroles] at hrole
      have hobjdoc := hret obj (mem_returned h₁ hready hfn hctx
        (mem_returnedObjs.mpr ⟨objs, hreply, hobj⟩)) hrole
      exact absurd (htype.trans htarget) (hne obj.ref hobjdoc)
  · have hc' : r₁.kptfile.getCondition (getConditionType G) = some c' := hc'
    rw [hstage1] at hc'
    cases hc'

end Ready

/-! ## A Run whose watches fail -/

section Idle

variable {cfg : Config V} {ord : Order} {r r' : Sdk V} (hfresh : r.inv.Fresh cfg)
  (hdoc : r.Documented cfg)

/-- The diff removes the condition of a for-instance that is gone and has children. -/
theorem deleteForCondition_idle (hfresh : r.inv.Fresh cfg) {F : ObjectReference} (hF : F ≠ {}) :
    (forDelta ord (r.idleInv cfg) F (r.forCtx cfg.mute F)).deleteForCondition ↔
      r.forObj F = none ∧ r.HasChildren F := by
  have hchildren : ∀ ref res, (ref, res) ∈ diffChildren ord (r.idleInv cfg) F ↔
      r.Owns F ref ∧ res = r.childCtx cfg.mute F ref := fun ref res =>
    (mem_diffChildren (keysNodup_idleInv hfresh) hF).trans (find_idle_own hfresh)
  constructor
  · intro hflag
    have habsent : r.forObj F = none := absent_of_deleteForCondition hflag
    simp only [forDelta_eq, InventoryDiff.join, List.any_map, List.any_eq_true] at hflag
    obtain ⟨⟨ref, res⟩, hres, -⟩ := hflag
    exact ⟨habsent, ref, ((hchildren ref res).mp hres).1⟩
  · rintro ⟨habsent, ref, hown⟩
    simp only [forDelta_eq, InventoryDiff.join, List.any_map, List.any_eq_true]
    refine ⟨(ref, _), (hchildren ref _).mpr ⟨hown, rfl⟩, ?_⟩
    have hfor : (r.forCtx cfg.mute F).existingResource = none := habsent
    simp only [Function.comp_apply, childDelta_absent hfor, diffOrphan]

omit [DecidableEq V] in
/-- What a failed watch makes of the condition of a for-instance. -/
theorem foldl_watchEdits (hfresh : r.inv.Fresh cfg) (hdoc : r.Documented cfg) (err : String)
    {F : ObjectReference} (hF : r.inv.role F = some .forGVKKind) (hFdoc : F.Documented)
    (held : Option Condition) :
    (((r.watchEdits cfg err).filter fun e => e.target = getConditionType F).foldl
        (fun held e => e.act held) held).map standing =
      if cfg.root = false ∧ (r.forObj F).isSome then
        some (.conditionFalse, (held.map Condition.reason).getD "")
      else held.map standing := by
  have hedits : ∀ e ∈ (r.watchEdits cfg err).filter fun e => e.target = getConditionType F,
      cfg.root = false ∧ (r.forObj F).isSome ∧ e = failEdit F err := by
    intro e he
    obtain ⟨he, htarget⟩ := List.mem_filter.mp he
    have htarget := of_decide_eq_true htarget
    rcases target_watchEdits hfresh he with ⟨-, hspecialization⟩ | ⟨G, hG, hGinstance, rfl⟩
    · exact absurd (hspecialization.symm.trans htarget) (specialization_ne hFdoc)
    · obtain ⟨o, ho⟩ := Option.isSome_iff_exists.mp hG
      have hGF := (hdoc.forObj ho (hGinstance.role hfresh)).injective hFdoc htarget
      refine ⟨?_, hGF ▸ hG, by rw [hGF]⟩
      cases hroot : cfg.root with
      | false => rfl
      | true =>
        simp only [watchEdits, hroot, if_true, List.mem_singleton] at he
        rw [he] at htarget
        exact absurd htarget (specialization_ne hFdoc)
  rw [standing_foldl_failEdit fun e he => ⟨err, (hedits e he).2.2⟩]
  by_cases hfails : cfg.root = false ∧ (r.forObj F).isSome
  · obtain ⟨o, ho⟩ := Option.isSome_iff_exists.mp hfails.2
    obtain ⟨hmem, rfl⟩ := mem_of_forObj ho
    have hedit : failEdit o.ref err ∈ (r.watchEdits cfg err).filter
        fun e => e.target = getConditionType o.ref := by
      refine List.mem_filter.mpr ⟨?_, decide_eq_true rfl⟩
      simp only [watchEdits, hfails.1, Bool.false_eq_true, if_false]
      exact List.mem_map_of_mem
        (List.mem_filter.mpr ⟨hmem, decide_eq_true ((hfresh.role_for _).mp hF)⟩)
    rw [if_pos hfails, if_neg (List.ne_nil_of_mem hedit)]
  · rw [if_neg hfails, if_pos]
    exact List.eq_nil_iff_forall_not_mem.mpr fun e he =>
      hfails ⟨(hedits e he).1, (hedits e he).2.1⟩

include hfresh hdoc

/-- The conditions at the end of a Run whose watches fail. -/
theorem run_idle (hfail : ¬ (r.ensured cfg).WatchesSucceed cfg ord)
    (h : r.run cfg ord = .ok r') :
    ∃ err, r'.kptfile.conditions =
      Keyed.applyAll (idleScript ord ((r.ensured cfg).idleInv cfg)).conditions
        (Keyed.applyAll ((r.ensured cfg).watchEdits cfg err) (r.ensured cfg).kptfile.conditions) := by
  obtain ⟨r₁, r₂, h₁, h₂, rfl⟩ := run_eq_ok.mp h
  obtain ⟨err, r₁', h₁', hconditions, -, hinv⟩ := stage1_idle (fresh_ensured hfresh)
    (documented_ensured hfresh hdoc) hfail
  obtain rfl : r₁' = r₁ := Except.ok.inj (h₁'.symm.trans h₁)
  have hready : r₁'.inv.ready = false := by
    rw [hinv]
    rfl
  obtain ⟨hkptfile, hinv₂⟩ := updateResources_notReady hready h₂
  refine ⟨err, ?_⟩
  rw [runReadiness, hinv₂, hready, Bool.and_false, if_neg Bool.false_ne_true, hkptfile, hconditions]

variable (hfail : ¬ (r.ensured cfg).WatchesSucceed cfg ord) (h : r.run cfg ord = .ok r')

include hfail h

/-- **The condition of a for-instance** after a Run whose watches fail. -/
theorem getCondition_idle_for {F : ObjectReference} (hF : (r.ensured cfg).ForInstance cfg F)
    (hFdoc : F.Documented) :
    (r'.kptfile.getCondition (getConditionType F)).map standing =
      if (r.forObj F).isSome then
        if cfg.root then (r.kptfile.getCondition (getConditionType F)).map standing
        else some (.conditionFalse,
          ((r.kptfile.getCondition (getConditionType F)).map Condition.reason).getD "")
      else if r.HasChildren F then none
      else (r.kptfile.getCondition (getConditionType F)).map standing := by
  have hs := fresh_ensured hfresh
  have hsdoc := documented_ensured hfresh hdoc
  obtain ⟨err, hconditions⟩ := run_idle hfresh hdoc hfail h
  have hwatch := foldl_watchEdits hs hsdoc err (hF.role hs) hFdoc
    ((r.ensured cfg).kptfile.getCondition (getConditionType F))
  have hchildren : (r.ensured cfg).HasChildren F ↔ r.HasChildren F :=
    exists_congr fun ref => owns_ensured hfresh
  have hdelete := @deleteForCondition_idle V _ cfg ord _ hs F (ne_empty_of_named hFdoc.named)
  rw [forObj_ensured, hchildren] at hdelete
  have hlookup : r'.kptfile.getCondition (getConditionType F) =
      ((idleScript ord ((r.ensured cfg).idleInv cfg)).conditions.filter
          fun e => e.target = getConditionType F).foldl (fun held e => e.act held)
        ((((r.ensured cfg).watchEdits cfg err).filter
          fun e => e.target = getConditionType F).foldl (fun held e => e.act held)
            ((r.ensured cfg).kptfile.getCondition (getConditionType F))) := by
    show Keyed.lookup Condition.type (getConditionType F) r'.kptfile.conditions = _
    rw [hconditions, Keyed.lookup_applyAll, Keyed.lookup_applyAll]
    rfl
  rw [idle_conditions_at_for (documented_idleInv hs hsdoc)
    ((find_idle_for hs hsdoc).mpr ⟨hF, rfl⟩) hFdoc.named] at hlookup
  rw [forObj_ensured, getCondition_ensured (specialization_ne hFdoc)] at hwatch
  rw [getCondition_ensured (specialization_ne hFdoc)] at hlookup
  rw [hlookup]
  by_cases hobj : (r.forObj F).isSome
  · have hkeep : ¬ (r.forObj F = none ∧ r.HasChildren F) := fun hgone => by
      rw [hgone.1] at hobj
      cases hobj
    rw [if_neg (mt hdelete.mp hkeep), List.foldl_nil, hwatch, if_pos hobj]
    cases cfg.root with
    | true => rfl
    | false => rw [if_pos ⟨rfl, hobj⟩, if_neg Bool.false_ne_true]
  · rw [if_neg fun hboth => hobj hboth.2] at hwatch
    rw [if_neg hobj]
    by_cases hchild : r.HasChildren F
    · rw [if_pos (hdelete.mpr ⟨Option.not_isSome_iff_eq_none.mp hobj, hchild⟩), if_pos hchild]
      rfl
    · rw [if_neg (mt hdelete.mp fun hboth => hchild hboth.2), List.foldl_nil, hwatch, if_neg hchild]

/-- **The condition of a child** after a Run whose watches fail. -/
theorem getCondition_idle_own {F ref : ObjectReference} (hown : r.Owns F ref)
    (honly : ∀ G, r.Owns G ref → G = F) :
    (r'.kptfile.getCondition (getConditionType ref)).map standing =
      if ∃ o ∈ r.ownedItem F ref, r.Withdraws o then some (.conditionFalse, getConditionType F)
      else (r.kptfile.getCondition (getConditionType ref)).map standing := by
  have hs := fresh_ensured hfresh
  have hsdoc := documented_ensured hfresh hdoc
  have hsown : (r.ensured cfg).Owns F ref := (owns_ensured hfresh).mpr hown
  obtain ⟨err, hconditions⟩ := run_idle hfresh hdoc hfail h
  have hlookup : r'.kptfile.getCondition (getConditionType ref) =
      ((childDelta false ((r.ensured cfg).forCtx cfg.mute F) ref
          ((r.ensured cfg).childCtx cfg.mute F ref)).deleteObjs.map fun _ =>
            (.put (ownCondition F ref "not ready" .conditionFalse) : ConditionEdit)).foldl
        (fun held e => e.act held) (r.kptfile.getCondition (getConditionType ref)) := by
    show Keyed.lookup Condition.type (getConditionType ref) r'.kptfile.conditions = _
    rw [hconditions, Keyed.lookup_applyAll, lookup_watch_own hs hsdoc hsown,
      idle_conditions_at_own (documented_idleInv hs hsdoc)
        (fun G res hres _ => honly G ((owns_ensured hfresh).mp ((find_idle_own hs).mp hres).1))
        ((find_idle_for hs hsdoc).mpr ⟨forInstance_of_own hs (Or.inl hsown), rfl⟩)
        ((find_idle_own hs).mpr ⟨hsown, rfl⟩),
      ← getCondition_ensured (specialization_ne (hdoc.child (Or.inl hown)).2)]
    rfl
  rw [hlookup]
  cases hitem : r.ownedItem F ref with
  | none =>
    have hnil : (childDelta false ((r.ensured cfg).forCtx cfg.mute F) ref
        ((r.ensured cfg).childCtx cfg.mute F ref)).deleteObjs = [] := by
      refine List.eq_nil_iff_forall_not_mem.mpr fun x hx => ?_
      have hx : (r.ensured cfg).ownedItem F ref = some x.obj := objs_childDelta.2 x hx
      rw [ownedItem_ensured, hitem] at hx
      cases hx
    rw [hnil, if_neg fun ⟨o, ho, _⟩ => nomatch ho]
    rfl
  | some o =>
    have hitem' : (r.ensured cfg).ownedItem F ref = some o := by rw [ownedItem_ensured, hitem]
    obtain rfl : o.ref = ref := (mem_of_ownedItem hitem).2.1
    have hwithdraws : (r.ensured cfg).Withdraws o ↔ r.Withdraws o := by
      unfold Withdraws
      rw [inv_ensured, forObj_ensured]
    rw [deleteObjs_withdrawn hitem' hsown.1 hsown.2.1]
    by_cases hw : r.Withdraws o
    · rw [if_pos (hwithdraws.mpr hw), if_pos ⟨o, rfl, hw⟩]
      rfl
    · rw [if_neg (mt hwithdraws.mp hw), if_neg]
      · rfl
      · rintro ⟨o', ho', hw'⟩
        rw [← Option.some.inj ho'] at hw'
        exact hw hw'

/-- **Any other condition** after a Run whose watches fail. -/
theorem getCondition_idle_other {t : String}
    (hspec : cfg.root → specializationConditionType ≠ t)
    (hfor : ∀ G, (r.ensured cfg).ForInstance cfg G → G.Documented → getConditionType G ≠ t)
    (hown : ∀ F ref, r.Owns F ref → getConditionType ref ≠ t) :
    r'.kptfile.getCondition t = r.kptfile.getCondition t := by
  have hs := fresh_ensured hfresh
  have hsdoc := documented_ensured hfresh hdoc
  obtain ⟨err, hconditions⟩ := run_idle hfresh hdoc hfail h
  show Keyed.lookup Condition.type t r'.kptfile.conditions = _
  rw [hconditions, Keyed.lookup_applyAll_of_forall_ne, Keyed.lookup_applyAll_of_forall_ne]
  · exact getCondition_ensured_of hspec
  · intro e he
    rcases target_watchEdits hs he with ⟨hroot, htarget⟩ | ⟨G, hobj, hG, rfl⟩
    · rw [htarget]
      exact hspec hroot
    · obtain ⟨o, ho⟩ := Option.isSome_iff_exists.mp hobj
      exact hfor G hG (hsdoc.forObj ho (hG.role hs))
  · intro e he
    rcases target_idleScript (keysNodup_idleInv hs) he with
      ⟨G, forRes, hG, hnamed, -, rfl⟩ | ⟨G, ref, res, hres, -, rfl⟩
    · obtain ⟨hG, -⟩ := (find_idle_for hs hsdoc).mp hG
      exact hfor G hG ((hsdoc.forInstance hs hG).resolve_right hnamed.2.2)
    · exact hown G ref ((owns_ensured hfresh).mp ((find_idle_own hs).mp hres).1)

end Idle

/-! ## The closed form -/

/-- The condition of a for-instance at the end of a Run, without its message. -/
def ends (cfg : Config V) (ord : Order) (r : Sdk V) (F : ObjectReference) :
    Option (ConditionStatus × String) :=
  if (r.ensured cfg).WatchesSucceed cfg ord then
    (concluded r.inv F (r.settledEntry cfg F) (r.settled cfg F) (r.answer cfg ord F)).map standing
  else if (r.forObj F).isSome then
    if cfg.root then (r.kptfile.getCondition (getConditionType F)).map standing
    else some (.conditionFalse,
      ((r.kptfile.getCondition (getConditionType F)).map Condition.reason).getD "")
  else if r.HasChildren F then none
  else (r.kptfile.getCondition (getConditionType F)).map standing

/-- The condition of a child that stage 2 does not finish. -/
def endsOwn (cfg : Config V) (ord : Order) (r : Sdk V) (F ref : ObjectReference) :
    Option (ConditionStatus × String) :=
  if (r.ensured cfg).WatchesSucceed cfg ord then
    (childOutcome F ref (r.forCtx cfg F) (r.childCtx cfg F ref)
      (r.kptfile.getCondition (getConditionType ref))).map standing
  else if ∃ o ∈ r.ownedItem F ref, r.Withdraws o then some (.conditionFalse, getConditionType F)
  else (r.kptfile.getCondition (getConditionType ref)).map standing

section Ends

variable {cfg : Config V} {ord : Order} {r r' : Sdk V} (hfresh : r.inv.Fresh cfg)
  (hdoc : r.Documented cfg)
  (hret : ∀ obj ∈ r.returned cfg ord, r.inv.role obj.ref = some .ownGVKKind → obj.ref.Documented)
  (h : r.run cfg ord = .ok r')

include hfresh hdoc in
/-- The condition types stay distinct. -/
theorem nodup_run (h : r.run cfg ord = .ok r') :
    (Keyed.keys Condition.type r'.kptfile.conditions).Nodup := by
  have hs := fresh_ensured hfresh
  have hsdoc := documented_ensured hfresh hdoc
  by_cases hwatches : (r.ensured cfg).WatchesSucceed cfg ord
  · obtain ⟨r₁, r₂, updateFn, h₁, -, -, hwrites, rfl⟩ := run_ready hfresh hwatches h
    have hnodup := hwrites.nodup ((writes_of_stage1 hs hsdoc h₁).nodup hsdoc.types)
    unfold runReadiness
    split_ifs
    · exact Keyed.nodup_keys_upsert _ hnodup _
    · exact hnodup
  · obtain ⟨err, hconditions⟩ := run_idle hfresh hdoc hwatches h
    rw [hconditions]
    exact Keyed.nodup_keys_applyAll (Keyed.nodup_keys_applyAll hsdoc.types _) _

include hfresh hdoc in
/-- The condition of the specializer, which a Root function writes at the end, names no owner. -/
theorem unowned_specialization (h : r.run cfg ord = .ok r') (hroot : cfg.root = true)
    {c : Condition} (hc : r'.kptfile.getCondition specializationConditionType = some c) :
    getGVKNFromConditionType c.reason = {} := by
  have hs := fresh_ensured hfresh
  have hsdoc := documented_ensured hfresh hdoc
  by_cases hwatches : (r.ensured cfg).WatchesSucceed cfg ord
  · obtain ⟨r₁, r₂, updateFn, h₁, hready, -, hwrites, rfl⟩ := run_ready hfresh hwatches h
    have hready₂ : r₂.inv.ready = true := by
      rw [hwrites.inv]
      exact hready
    have hc : Keyed.lookup Condition.type specializationConditionType
        (r₂.runReadiness cfg).kptfile.conditions = some c := hc
    simp only [runReadiness, hroot, hready₂, Bool.and_self, if_true, KptFile.setConditions,
      List.foldl_cons, List.foldl_nil] at hc
    split_ifs at hc
    · rw [Keyed.lookup_upsert, if_pos (by rfl)] at hc
      rw [← Option.some.inj hc]
      decide +kernel
    · rw [Keyed.lookup_upsert, if_pos (by rfl)] at hc
      rw [← Option.some.inj hc]
      decide +kernel
  · obtain ⟨err, hconditions⟩ := run_idle hfresh hdoc hwatches h
    have hc : Keyed.lookup Condition.type specializationConditionType r'.kptfile.conditions =
      some c := hc
    rw [hconditions, Keyed.lookup_applyAll_of_forall_ne] at hc
    · simp only [watchEdits, hroot, if_true, Keyed.applyAll_cons, Keyed.applyAll_nil] at hc
      rw [Keyed.lookup_apply, if_pos (by rfl)] at hc
      rw [← Option.some.inj hc]
      exact (by decide +kernel : getGVKNFromConditionType "Failed" = {})
    · intro e he
      rcases target_idleScript (keysNodup_idleInv hs) he with
        ⟨G, forRes, hG, hnamed, -, rfl⟩ | ⟨G, ref, res, hres, -, rfl⟩
      · obtain ⟨hG, -⟩ := (find_idle_for hs hsdoc).mp hG
        exact (specialization_ne ((hsdoc.forInstance hs hG).resolve_right hnamed.2.2)).symm
      · have hown := ((find_idle_own hs).mp hres).1
        exact (specialization_ne (hsdoc.child (Or.inl hown)).2).symm

omit [DecidableEq V] in
theorem wanted_of_absent {F : ObjectReference} (hF : r.forObj F = none) : r.wanted cfg F = .ok [] := by
  unfold wanted
  rw [hF]
  cases cfg.populating.populateOwnResourcesFn <;> rfl

/-- A resource that no condition and no item speaks of has no condition at the end. -/
theorem ends_absent {F : ObjectReference} (hF : r.forObj F = none)
    (hchildren : ¬ r.HasChildren F)
    (hheld : r.kptfile.getCondition (getConditionType F) = none)
    (hanswer : r.answer cfg ord F = none) : r.ends cfg ord F = none := by
  have hresets : ¬ r.Resets cfg F := fun hresets => by
    rw [Resets, hF] at hresets
    cases hresets.1
  have hsettled : r.settled cfg F = none := by
    rw [settled, if_neg hresets, populateEdits, wanted_of_absent hF]
    exact hheld
  unfold ends
  rw [hsettled, hanswer, hheld, hF, if_neg hchildren]
  exact ite_self none

include hfresh

/-- Where `UpdateResourceFn` is called for a for-instance. -/
theorem of_answer {G : ObjectReference} {answer : Except String (List (KubeObject V))}
    (hanswer : r.answer cfg ord G = some answer) :
    (r.ensured cfg).WatchesSucceed cfg ord ∧ (r.ensured cfg).ForInstance cfg G ∧
      ∀ objs, answer = .ok objs → ∀ obj ∈ objs, obj ∈ r.returned cfg ord := by
  have hs := fresh_ensured hfresh
  unfold Sdk.answer at hanswer
  cases h₁ : (((r.ensured cfg).filed cfg).runWatches cfg ord).stage1 cfg ord with
  | error panic =>
    rw [h₁] at hanswer
    cases hanswer
  | ok r₁ =>
    cases hfn : cfg.updateResourceFn with
    | none =>
      rw [h₁, hfn] at hanswer
      cases hanswer
    | some updateFn =>
      rw [h₁, hfn] at hanswer
      simp only at hanswer
      split_ifs at hanswer with hfound
      have hwatches := succeed_of_ready h₁ hfound.1
      have hstage := h₁
      rw [runWatches_of_succeed hwatches] at hstage
      refine ⟨hwatches, (isSome_stage1_for hs).mp ((isSome_of_stage1 hs hstage _).mp hfound.2), ?_⟩
      rintro objs rfl obj hobj
      have hctx := (mem_getReadyMap_iff (keysNodup_of_stage1 hs hstage)).mpr ⟨hfound.2, rfl⟩
      exact mem_returned h₁ hfound.1 hfn hctx (mem_returnedObjs.mpr ⟨objs, hanswer, hobj⟩)

include hret in
/-- Stage 2 finishes children only, and only where the watches succeed. -/
theorem of_finishes {t : String} (hfinishes : r.Finishes cfg ord t) :
    (r.ensured cfg).WatchesSucceed cfg ord ∧
      ∃ ref : ObjectReference, ref.Documented ∧ r.inv.role ref = some .ownGVKKind ∧
        getConditionType ref = t := by
  obtain ⟨G, objs, -, -, hanswer, obj, hobj, hrole, -, ht⟩ := hfinishes
  obtain ⟨hwatches, -, hmem⟩ := of_answer hfresh hanswer
  exact ⟨hwatches, obj.ref, hret obj (hmem objs rfl obj hobj) hrole, hrole, ht⟩

include hdoc hret h

/-- **A condition that is neither of a for-instance nor of a child** at the end of the Run. -/
theorem getCondition_rest {t : String} (hspec : cfg.root → specializationConditionType ≠ t)
    (hfor : ∀ G, (r.ensured cfg).ForInstance cfg G → getConditionType G ≠ t)
    (hown : ∀ F ref, r.Owns F ref ∨ r.Wants cfg F ref → getConditionType ref ≠ t) :
    (r.Finishes cfg ord t →
      ∃ c, r'.kptfile.getCondition t = some c ∧ c.status = .conditionTrue) ∧
    (¬ r.Finishes cfg ord t → r'.kptfile.getCondition t = r.kptfile.getCondition t) := by
  by_cases hwatches : (r.ensured cfg).WatchesSucceed cfg ord
  · exact getCondition_run_other hfresh hdoc hwatches h hspec hfor hown
  · refine ⟨fun hfinishes => absurd (of_finishes hfresh hret hfinishes).1 hwatches, fun _ => ?_⟩
    exact getCondition_idle_other hfresh hdoc hwatches h hspec (fun G hG _ => hfor G hG)
      fun F ref howns => hown F ref (Or.inl howns)

theorem unowned_unnamed {F G : ObjectReference} (hFdoc : F.Documented) (hgvk : G.gvk = F.gvk)
    (hname : G.name = "") (hspec : cfg.root → specializationConditionType ≠ getConditionType G)
    (hnone : r.kptfile.getCondition (getConditionType G) = none) {c : Condition}
    (hc : r'.kptfile.getCondition (getConditionType G) = some c) : c.reason = "" := by
  by_cases hwatches : (r.ensured cfg).WatchesSucceed cfg ord
  · exact unowned_ready_unnamed hfresh hdoc hwatches h hret hFdoc hgvk hname hspec hnone hc
  · have hne := fun ref href => @type_ne_unnamed F G ref hFdoc hgvk hname href
    rw [getCondition_idle_other hfresh hdoc hwatches h hspec (fun G' _ hG' => hne G' hG')
      fun F' ref hown => hne ref (hdoc.child (Or.inl hown)).2, hnone] at hc
    cases hc

/-- **The condition of a for-instance at the end of a Run.** -/
theorem ends_eq {F : ObjectReference} (hF : r.inv.role F = some .forGVKKind) (hFdoc : F.Documented) :
    (r'.kptfile.getCondition (getConditionType F)).map standing = r.ends cfg ord F := by
  have hs := fresh_ensured hfresh
  by_cases hinstance : (r.ensured cfg).ForInstance cfg F
  · unfold ends
    split_ifs with hwatches hobj hroot hchildren
    · rw [getCondition_run_for hfresh hdoc hwatches hret h hinstance hFdoc]
    · rw [getCondition_idle_for hfresh hdoc hwatches h hinstance hFdoc, if_pos hobj, if_pos hroot]
    · rw [getCondition_idle_for hfresh hdoc hwatches h hinstance hFdoc, if_pos hobj, if_neg hroot]
    · rw [getCondition_idle_for hfresh hdoc hwatches h hinstance hFdoc, if_neg hobj,
        if_pos hchildren]
    · rw [getCondition_idle_for hfresh hdoc hwatches h hinstance hFdoc, if_neg hobj,
        if_neg hchildren]
  · -- no condition and no item speaks of it, and nothing is written
    have hheld : r.kptfile.getCondition (getConditionType F) = none := by
      by_contra hsome
      obtain ⟨c, hc⟩ := Option.ne_none_iff_exists'.mp hsome
      exact hinstance (forInstance_ensured hfresh hF hFdoc hc)
    have hobj : r.forObj F = none := by
      by_contra hsome
      obtain ⟨o, ho⟩ := Option.ne_none_iff_exists'.mp hsome
      rw [← @forObj_ensured V cfg] at ho
      exact hinstance (forInstance_of_forObj hs ho (by rw [inv_ensured]; exact hF))
    have hchildren : ¬ r.HasChildren F := fun ⟨ref, hown⟩ =>
      hinstance (forInstance_of_own hs (Or.inl ((owns_ensured hfresh).mpr hown)))
    have hanswer : r.answer cfg ord F = none := by
      by_contra hsome
      obtain ⟨answer, ha⟩ := Option.ne_none_iff_exists'.mp hsome
      exact hinstance (of_answer hfresh ha).2.1
    have hown : ∀ ref : ObjectReference, ref.Documented → r.inv.role ref = some .ownGVKKind →
        getConditionType ref ≠ getConditionType F := by
      intro ref hrefdoc hrole heq
      rw [hrefdoc.injective hFdoc heq, hF] at hrole
      cases hrole
    have hrest := (getCondition_rest hfresh hdoc hret h (fun _ => specialization_ne hFdoc)
      (fun G hG heq => hinstance ?_) fun G ref hchild => ?_).2 fun hfinishes => ?_
    · rw [ends_absent hobj hchildren hheld hanswer, hrest, hheld]
      rfl
    · have hGrole := hG.role hs
      rw [inv_ensured] at hGrole
      rw [← hfresh.eq_of_for hGrole hF heq]
      exact hG
    · exact hown ref (hdoc.child hchild).2 (hchild.elim (fun hown => hown.1) fun hwants => hwants.1)
    · obtain ⟨-, ref, hrefdoc, hrole, heq⟩ := of_finishes hfresh hret hfinishes
      exact hown ref hrefdoc hrole heq

/-- **The condition of a child at the end of a Run.** -/
theorem endsOwn_eq {F ref : ObjectReference} (hown : r.Owns F ref ∨ r.Wants cfg F ref)
    (honly : r.Only cfg F ref) :
    (r.Finishes cfg ord (getConditionType ref) →
      ∃ c, r'.kptfile.getCondition (getConditionType ref) = some c ∧ c.status = .conditionTrue) ∧
    (¬ r.Finishes cfg ord (getConditionType ref) →
      (r'.kptfile.getCondition (getConditionType ref)).map standing = r.endsOwn cfg ord F ref) := by
  unfold endsOwn
  by_cases hwatches : (r.ensured cfg).WatchesSucceed cfg ord
  · obtain ⟨hfinished, hkept⟩ := getCondition_run_own hfresh hdoc hwatches h hown honly
    refine ⟨hfinished, fun hnot => ?_⟩
    rw [if_pos hwatches, hkept hnot]
  · refine ⟨fun hfinishes => absurd (of_finishes hfresh hret hfinishes).1 hwatches, fun _ => ?_⟩
    rw [if_neg hwatches]
    by_cases howns : r.Owns F ref
    · exact getCondition_idle_own hfresh hdoc hwatches h howns fun G hG => honly G (Or.inl hG)
    · -- a child that is only wanted is not looked at
      obtain ⟨-, hrefdoc⟩ := hdoc.child hown
      have hroles := hown.elim (fun hown => And.intro hown.1 hown.2.1) fun hwants =>
        ⟨hwants.1, hwants.2.1⟩
      rw [if_neg, getCondition_idle_other hfresh hdoc hwatches h fun _ => specialization_ne hrefdoc]
      · intro G hG hGdoc heq
        have hGrole := hG.role (fresh_ensured hfresh)
        rw [inv_ensured, hGdoc.injective hrefdoc heq, hroles.1] at hGrole
        cases hGrole
      · intro G ref' hG heq
        have href := (hdoc.child (Or.inl hG)).2.injective hrefdoc heq
        rw [href] at hG
        exact howns (honly G (Or.inl hG) ▸ hG)
      · rintro ⟨o, ho, -⟩
        obtain ⟨hmem, href, howner⟩ := mem_of_ownedItem ho
        exact howns ⟨hroles.1, hroles.2, mem_resourcesOf.mpr (Or.inr ⟨o, hmem, href, howner⟩)⟩

end Ends

end Sdk

end Nephio.CondKptSdk
