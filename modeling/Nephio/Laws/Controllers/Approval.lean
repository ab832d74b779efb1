import Nephio.Controllers.Approval

/-!
# Laws.Controllers.Approval: what the approval controller may do

A Reconcile changes at most one lifecycle, by one step, and only where every guard holds in the store
that it reads (`reconcile_moves`). Others may change the store at will between two Reconciles. While
they keep what is published, a package that has a published revision has one for ever, so that the
`initial` policy publishes one revision of it (`approval_safe`).
-/

namespace Nephio.Controllers.Approval

/-- The owner reference of a PackageVariant that controls the revision. -/
def OwnerReference.isPackageVariant (owner : OwnerReference) : Prop :=
  owner.controller = some true ∧ owner.apiVersion = "config.porch.kpt.dev/v1alpha1" ∧
    owner.kind = "PackageVariant"

/-- The Ready condition of a PackageVariant is True. -/
def PackageVariant.Ready (pv : PackageVariant) : Prop :=
  ∃ cond, pv.conditions.find? (fun cond => cond.type = "Ready") = some cond ∧ cond.status = "True"

/-- The package of a repository has a published revision. -/
def Store.HasPublished (s : Store) (package : String × String) : Prop :=
  ∃ pr ∈ s.revisions, pr.lifecycle.isPublished ∧ (pr.repositoryName, pr.packageName) = package

/-- The guards of the controller. -/
structure Approvable (env : Env) (now : Int) (s : Store) (pr : PackageRevision) : Prop where
  policy : pr.getAnnotations policyAnnotationName = some initialPolicyAnnotationValue ∨
    pr.getAnnotations policyAnnotationName = some alwaysPolicyAnnotationValue
  variant : ∀ owner ∈ pr.ownerReferences, owner.isPackageVariant →
    ∃ pv, s.getVariant ⟨pr.key.namespace, owner.name⟩ = some pv ∧ pv.Ready
  gates : packageRevisionIsReady pr.readinessGates pr.conditions
  delay : ∀ delay, pr.getAnnotations delayAnnotationName = some delay →
    ∃ d, env.parseDuration delay = .ok d ∧ 0 ≤ d ∧ (0 < d → d < now - pr.creationTimestamp)
  initial : pr.getAnnotations policyAnnotationName = some initialPolicyAnnotationValue →
    ¬ s.HasPublished (pr.repositoryName, pr.packageName)

/-- The transitions of a lifecycle. -/
inductive Lifecycle.Next : Lifecycle → Lifecycle → Prop
  | propose : Next draft proposed
  | publish : Next proposed published

theorem Lifecycle.Next.not_published {lifecycle next : Lifecycle} (h : lifecycle.Next next) :
    lifecycle.isPublished = false := by
  cases h with
  | propose => rfl
  | publish => rfl

/-- A Reconcile leaves the store, or moves the lifecycle of its revision by one step. -/
def Moves (env : Env) (call : Call) (s s' : Store) : Prop :=
  s' = s ∨ ∃ pr lifecycle, s.getRevision call.req = some pr ∧ Approvable env call.now s pr ∧
    pr.lifecycle.Next lifecycle ∧ s' = s.update { pr with lifecycle := lifecycle }

section Guards

variable {env : Env} {call : Call} {s : Store} {pr : PackageRevision}

theorem getPV_eq_ok {name : String} {pv : PackageVariant} (h : getPV call s pr name = .ok pv) :
    s.getVariant ⟨pr.key.namespace, name⟩ = some pv := by
  unfold getPV at h
  split at h
  · cases h
  · split at h
    next pv' hpv' =>
      rw [hpv', Except.ok.inj h]
    next => cases h

/-- Owner references that are no controllers do not count. -/
theorem packageVariantReady_of_no_controller {owners : List OwnerReference} (owned : Bool)
    (h : ∀ owner ∈ owners, owner.controller ≠ some true) :
    packageVariantReady (getPV call s pr) owned owners = .ok !owned := by
  induction owners with
  | nil => rfl
  | cons owner owners ih =>
    rw [packageVariantReady, if_pos (h owner List.mem_cons_self)]
    exact ih fun o ho => h o (List.mem_cons_of_mem _ ho)

/-- Where `PackageVariantReady` is true, the PackageVariant of the one controller is Ready. -/
theorem ready_of_packageVariantReady {owners : List OwnerReference}
    (hone : (owners.filter fun owner => owner.controller = some true).length ≤ 1)
    (h : packageVariantReady (getPV call s pr) false owners = .ok true) :
    ∀ owner ∈ owners, owner.isPackageVariant →
      ∃ pv, s.getVariant ⟨pr.key.namespace, owner.name⟩ = some pv ∧ pv.Ready := by
  induction owners with
  | nil => exact nofun
  | cons first owners ih =>
    intro owner howner hpv
    by_cases hfirst : first.isPackageVariant
    · -- no other owner is a controller, so it is this one
      have hrest : ∀ other ∈ owners, other.controller ≠ some true := by
        simp only [List.filter_cons, hfirst.1, decide_true, if_true, List.length_cons] at hone
        have hnil : (owners.filter fun owner => owner.controller = some true) = [] :=
          List.length_eq_zero_iff.mp (by omega)
        intro other hother
        simpa only [decide_eq_true_eq] using List.filter_eq_nil_iff.mp hnil other hother
      rcases List.mem_cons.mp howner with rfl | howner
      · rw [packageVariantReady, if_neg (not_not.mpr hfirst.1),
          if_neg (not_not.mpr hfirst.2.1.symm), if_neg (not_not.mpr hfirst.2.2)] at h
        split at h
        next => cases h
        next pv hget =>
          split at h
          next cond hcond =>
            exact ⟨pv, getPV_eq_ok hget, cond, hcond, of_decide_eq_true (Except.ok.inj h)⟩
          next =>
            rw [packageVariantReady_of_no_controller true hrest] at h
            cases h
      · exact absurd hpv.1 (hrest owner howner)
    · have hskip : packageVariantReady (getPV call s pr) false owners = .ok true := by
        rw [packageVariantReady] at h
        split_ifs at h with h₁ h₂ h₃
        · exact h
        · exact h
        · exact h
        · exact absurd ⟨not_not.mp h₁, (not_not.mp h₂).symm, not_not.mp h₃⟩ hfirst
      rcases List.mem_cons.mp howner with rfl | howner
      · exact absurd hpv hfirst
      · refine ih ?_ hskip owner howner hpv
        exact le_trans (List.Sublist.length_le ((List.sublist_cons_self _ _).filter _)) hone

theorem delay_of_manageDelay {now requeue : Int} (h : manageDelay env now pr = .ok requeue)
    (hrequeue : ¬ requeue > 0) {delay : String}
    (hdelay : pr.getAnnotations delayAnnotationName = some delay) :
    ∃ d, env.parseDuration delay = .ok d ∧ 0 ≤ d ∧ (0 < d → d < now - pr.creationTimestamp) := by
  unfold manageDelay at h
  simp only [hdelay] at h
  cases hparse : env.parseDuration delay with
  | error err =>
    rw [hparse] at h
    cases h
  | ok d =>
    simp only [hparse] at h
    split_ifs at h with hneg hsince
    · refine ⟨d, rfl, by omega, fun _ => ?_⟩
      unfold since at hsince
      omega
    · obtain rfl : d = requeue := Except.ok.inj h
      exact ⟨d, rfl, by omega, fun hpos => absurd hpos hrequeue⟩

theorem not_hasPublished_of_policyInitial (h : policyInitial s call pr = .ok true) :
    ¬ s.HasPublished (pr.repositoryName, pr.packageName) := by
  rintro ⟨pr2, hmem, hpublished, hpackage⟩
  obtain ⟨hrepository, hname⟩ := Prod.mk.inj hpackage
  unfold policyInitial at h
  split at h
  · cases h
  · have hnone := Except.ok.inj h
    rw [Bool.not_eq_true', List.any_eq_false] at hnone
    refine hnone pr2 hmem ?_
    rw [hpublished, hrepository, hname]
    simp only [decide_true, Bool.and_self]

/-- What `approve` does to the store. -/
theorem store_approve (hget : s.getRevision pr.key = some pr) :
    (approve call s pr).store = s ∨ ∃ lifecycle, pr.lifecycle.Next lifecycle ∧
      (approve call s pr).store = s.update { pr with lifecycle := lifecycle } := by
  unfold approve
  simp only
  by_cases hdraft : pr.lifecycle = .draft
  · rw [if_pos hdraft]
    cases happlied : call.update.applied with
    | false => exact Or.inl rfl
    | true => exact Or.inr ⟨.proposed, hdraft ▸ .propose, rfl⟩
  · rw [if_neg hdraft]
    unfold updatePackageRevisionApproval
    simp only [hget]
    cases call.getApproval with
    | some err => exact Or.inl rfl
    | none =>
      by_cases hproposed : pr.lifecycle = .proposed
      · simp only [if_pos hproposed]
        cases happlied : call.putApproval.applied with
        | false => exact Or.inl rfl
        | true => exact Or.inr ⟨.published, hproposed ▸ .publish, rfl⟩
      · simp only [if_neg hproposed]
        split_ifs <;> exact Or.inl rfl

/-- `evaluate` moves a lifecycle only where the policy is met and the delay is over. -/
theorem store_evaluate {policy : String} (hget : s.getRevision call.req = some pr)
    (hpolicy : pr.getAnnotations policyAnnotationName = some policy)
    (hvariant : ∀ owner ∈ pr.ownerReferences, owner.isPackageVariant →
      ∃ pv, s.getVariant ⟨pr.key.namespace, owner.name⟩ = some pv ∧ pv.Ready)
    (hgates : packageRevisionIsReady pr.readinessGates pr.conditions) :
    Moves env call s (evaluate env call s policy pr).store := by
  unfold evaluate
  simp only
  split
  next => exact Or.inl rfl
  next => exact Or.inl rfl
  next => exact Or.inl rfl
  next happroved =>
    split
    next => exact Or.inl rfl
    next requeue hrequeue =>
      split_ifs with hwait
      · exact Or.inl rfl
      have hallowed : (policy = initialPolicyAnnotationValue ∨
          policy = alwaysPolicyAnnotationValue) ∧ (policy = initialPolicyAnnotationValue →
            ¬ s.HasPublished (pr.repositoryName, pr.packageName)) := by
        split_ifs at happroved with hinitial halways
        · exact ⟨Or.inl hinitial, fun _ =>
            not_hasPublished_of_policyInitial (Option.some.inj happroved)⟩
        · exact ⟨Or.inr halways, fun h => absurd h hinitial⟩
      have happrovable : Approvable env call.now s pr :=
        { policy := by simpa only [hpolicy, Option.some.injEq] using hallowed.1
          variant := hvariant
          gates := hgates
          delay := fun _ hdelay => delay_of_manageDelay hrequeue hwait hdelay
          initial := fun h => hallowed.2 (Option.some.inj (hpolicy.symm.trans h)) }
      have hkey : pr.key = call.req := Keyed.key_of_lookup PackageRevision.key hget
      rcases @store_approve call s pr (hkey ▸ hget) with hsame | ⟨lifecycle, hnext, hmoved⟩
      · exact Or.inl hsame
      · exact Or.inr ⟨pr, lifecycle, hget, happrovable, hnext, hmoved⟩

/-- **One Reconcile.** -/
theorem reconcile_moves (env : Env) (call : Call) (s : Store) :
    Moves env call s (reconcile env call s).store := by
  unfold reconcile
  split
  next => exact Or.inl rfl
  next =>
    split
    next => exact Or.inl rfl
    next pr hget =>
      by_cases hprocess : (!(shouldProcess pr).2) = true
      · rw [if_pos hprocess]
        exact Or.inl rfl
      rw [if_neg hprocess]
      have hpolicy : pr.getAnnotations policyAnnotationName = some (shouldProcess pr).1 := by
        unfold shouldProcess at hprocess ⊢
        cases h : pr.getAnnotations policyAnnotationName with
        | some policy => rfl
        | none =>
          rw [h] at hprocess
          simp only [Option.isSome_none, Bool.and_false, Bool.not_false, not_true] at hprocess
      split
      next => exact Or.inl rfl
      next => exact Or.inl rfl
      next hready =>
        split_ifs with hgates
        · exact Or.inl rfl
        · refine store_evaluate hget hpolicy (ready_of_packageVariantReady pr.one_controller hready) ?_
          rwa [Bool.not_eq_true', Bool.not_eq_false] at hgates

end Guards

/-! ## Runs -/

/-- What happens to the store: a Reconcile, or a change by others. -/
inductive Action where
  | reconcile (call : Call)
  | others (change : Store → Store)

def step (env : Env) (s : Store) : Action → Store
  | .reconcile call => (reconcile env call s).store
  | .others change => change s

/-- Every published revision stays published, in its repository and package. -/
def KeepsPublished (s s' : Store) : Prop :=
  ∀ pr ∈ s.revisions, pr.lifecycle.isPublished → ∃ pr' ∈ s'.revisions,
    pr'.key = pr.key ∧ pr'.lifecycle.isPublished ∧
      pr'.repositoryName = pr.repositoryName ∧ pr'.packageName = pr.packageName

/-- An action that publishes a revision of a package under the `initial` policy. -/
def PublishesInitial (env : Env) (package : String × String) (e : Store × Action) : Prop :=
  ∃ call pr pr', e.2 = .reconcile call ∧ e.1.getRevision call.req = some pr ∧
    pr.getAnnotations policyAnnotationName = some initialPolicyAnnotationValue ∧
    (pr.repositoryName, pr.packageName) = package ∧ ¬ pr.lifecycle.isPublished ∧
    (step env e.1 e.2).getRevision call.req = some pr' ∧ pr'.lifecycle.isPublished

section Runs

variable {env : Env} {s : Store}

theorem getRevision_update (pr : PackageRevision) :
    (s.update pr).getRevision pr.key = some pr := by
  show Keyed.lookup PackageRevision.key pr.key (Keyed.upsert PackageRevision.key pr s.revisions) = _
  rw [Keyed.lookup_upsert, if_pos rfl]

/-- A move keeps what is published: the revision that it changes is not. -/
theorem keepsPublished_of_moves {call : Call} {s' : Store} (h : Moves env call s s') :
    KeepsPublished s s' := by
  intro pr hmem hpublished
  rcases h with rfl | ⟨pr₀, lifecycle, hget, -, hnext, rfl⟩
  · exact ⟨pr, hmem, rfl, hpublished, rfl, rfl⟩
  · refine ⟨pr, ?_, rfl, hpublished, rfl, rfl⟩
    refine (Keyed.mem_upsert_of_ne PackageRevision.key fun hkey => ?_).mpr hmem
    have hkey₀ : pr₀.key = call.req := Keyed.key_of_lookup PackageRevision.key hget
    have hsame : pr = pr₀ := by
      have hlookup := Keyed.lookup_of_mem PackageRevision.key s.nodup hmem
      rw [show pr.key = pr₀.key from hkey, hkey₀] at hlookup
      exact Option.some.inj (hlookup.symm.trans hget)
    rw [hsame, hnext.not_published] at hpublished
    cases hpublished

theorem hasPublished_of_keeps {s' : Store} (h : KeepsPublished s s') {package : String × String}
    (hs : s.HasPublished package) : s'.HasPublished package := by
  obtain ⟨pr, hmem, hpublished, hpackage⟩ := hs
  obtain ⟨pr', hmem', -, hpublished', hrepository, hname⟩ := h pr hmem hpublished
  exact ⟨pr', hmem', hpublished', by rw [hrepository, hname, hpackage]⟩

/-- Before it publishes under `initial` the package has no published revision; afterwards it has. -/
theorem hasPublished_of_publishesInitial {package : String × String} {e : Store × Action}
    (h : PublishesInitial env package e) :
    ¬ e.1.HasPublished package ∧ (step env e.1 e.2).HasPublished package := by
  obtain ⟨call, pr, pr', haction, hget, hpolicy, rfl, hbefore, hafter, hpublished⟩ := h
  rw [haction] at hafter ⊢
  rcases reconcile_moves env call e.1 with hsame | ⟨pr₀, lifecycle, hget₀, happrovable, -, hmoved⟩
  · rw [step, hsame, hget] at hafter
    rw [Option.some.inj hafter] at hbefore
    exact absurd hpublished hbefore
  · obtain rfl : pr = pr₀ := Option.some.inj (hget.symm.trans hget₀)
    refine ⟨happrovable.initial hpolicy, pr', Keyed.mem_of_lookup _ hafter, hpublished, ?_⟩
    have hkey : pr.key = call.req := Keyed.key_of_lookup PackageRevision.key hget
    have hupdated := @getRevision_update e.1 { pr with lifecycle := lifecycle }
    rw [step, hmoved, ← hkey] at hafter
    rw [← Option.some.inj (hupdated.symm.trans hafter)]

/-- **Approval safety.** In every run each Reconcile leaves the store, or moves one lifecycle by one
step while all guards hold. Where others keep what is published, no two of its Reconciles publish a
revision of one package under the `initial` policy. -/
theorem approval_safe (env : Env) (s : Store) (actions : List Action) :
    (∀ e ∈ Runs.history (step env) s actions, ∀ call, e.2 = .reconcile call →
      Moves env call e.1 (step env e.1 e.2)) ∧
    ((∀ e ∈ Runs.history (step env) s actions, ∀ change, e.2 = .others change →
        KeepsPublished e.1 (change e.1)) →
      (Runs.history (step env) s actions).Pairwise fun e e' => ∀ package,
        PublishesInitial env package e → ¬ PublishesInitial env package e') := by
  have hmoves : ∀ e ∈ Runs.history (step env) s actions, ∀ call, e.2 = .reconcile call →
      Moves env call e.1 (step env e.1 e.2) := by
    intro e _ call haction
    rw [haction]
    exact reconcile_moves env call e.1
  refine ⟨hmoves, fun hothers => ?_⟩
  refine @Runs.pairwise_history _ _ (step env) _ (fun package s => s.HasPublished package) _ _ _
    (fun e _ package h => (hasPublished_of_publishesInitial h).2)
    (fun e _ package h => (hasPublished_of_publishesInitial h).1) fun e he package hs => ?_
  cases haction : e.2 with
  | reconcile call =>
    have hmove := hmoves e he call haction
    rw [haction] at hmove
    exact hasPublished_of_keeps (keepsPublished_of_moves hmove) hs
  | others change => exact hasPublished_of_keeps (hothers e he change haction) hs

/-- Two drafts of one package: both are proposed, and the first that is reconciled again is
published. -/
example :
    let pr (name : String) : PackageRevision :=
      { key := ⟨"default", name⟩, repositoryName := "edge", packageName := "upf"
        lifecycle := .draft, creationTimestamp := 0
        annotations := [(policyAnnotationName, initialPolicyAnnotationValue)] }
    let env : Env := ⟨0, fun _ => .error "invalid duration", id⟩
    let reconcile (name : String) : Action := .reconcile { req := ⟨"default", name⟩, now := 0 }
    (Runs.run (step env) { revisions := [pr "a", pr "b"], nodup := by decide }
      [reconcile "a", reconcile "b", reconcile "b", reconcile "a"]).revisions.map
        PackageRevision.lifecycle = [.proposed, .published] := by
  decide

end Runs

end Nephio.Controllers.Approval
