import Nephio.ConfigInject.Function
import Nephio.Data.Latest

/-!
# The revisions that a Dependency is resolved to

The loop over the package revisions is a map of the latest, one entry for each deployment repository
(`mem_latestOf_iff`), if all their repositories are listed, and an error otherwise. It looks at the
repository of a revision of any package.
-/

namespace Nephio.ConfigInject

open Keyed Loops

/-- The repository of a revision is listed. -/
def Listed (repos : List Repository) (pr : PackageRevision) : Prop :=
  ∃ repo ∈ repos, repo.name = pr.repositoryName

instance (repos : List Repository) (pr : PackageRevision) : Decidable (Listed repos pr) :=
  inferInstanceAs (Decidable (∃ repo ∈ repos, _))

/-- The repository of a name, the last one listed where there are several, is for deployment. -/
def deploys (repos : List Repository) (r : String) : Bool :=
  (repos.filter (·.name = r)).getLast?.any (·.deployment)

/-- A published revision of a package. -/
def candidate (pkg : String) (pr : PackageRevision) : Bool :=
  pr.packageName = pkg && (pr.lifecycle.isPublished && 0 < pr.revision)

/-- The published revisions of a package in a repository. -/
def candidatesOf (prs : List PackageRevision) (pkg r : String) : List PackageRevision :=
  prs.filter fun pr => candidate pkg pr && pr.repositoryName = r

/-- What the loop enters in the map. -/
def chosen (prs : List PackageRevision) (repos : List Repository) (pkg : String) :
    List PackageRevision :=
  prs.filter fun pr => candidate pkg pr && deploys repos pr.repositoryName

/-- The entry of a revision. -/
def PackageRevision.turn (pr : PackageRevision) : Edit (Prod.fst : String × PackageRevision → _) :=
  .keep PackageRevision.revision pr.prName pr

/-- The map that the loop builds. -/
def latestOf (prs : List PackageRevision) (repos : List Repository) (pkg : String) :
    List (String × PackageRevision) :=
  applyAll ((chosen prs repos pkg).map PackageRevision.turn) []

variable {prs : List PackageRevision} {repos : List Repository} {pkg : String}

/-! ## The loop -/

theorem lookup_repoMap (repos : List Repository) (r : String) :
    lookup Prod.fst r (repoMap repos) =
      (repos.filter (·.name = r)).getLast?.map fun repo => (repo.name, repo) := by
  have hmap : repoMap repos = upsertAll Prod.fst (repos.map fun repo => (repo.name, repo)) [] := by
    rw [upsertAll, List.foldl_map]
    rfl
  rw [hmap, lookup_upsertAll, List.filter_map, List.getLast?_map, lookup_nil, Option.or_none]
  rfl

theorem getLast?_of_listed {pr : PackageRevision} (h : Listed repos pr) :
    ∃ repo, (repos.filter (·.name = pr.repositoryName)).getLast? = some repo := by
  obtain ⟨repo, hrepo, hname⟩ := h
  have hmem : repo ∈ repos.filter (·.name = pr.repositoryName) :=
    List.mem_filter.mpr ⟨hrepo, decide_eq_true hname⟩
  exact ⟨_, List.getLast?_eq_some_getLast (List.ne_nil_of_mem hmem)⟩

theorem addRevision_of_not_listed {pr : PackageRevision} (h : ¬ Listed repos pr)
    (prmap : List (String × PackageRevision)) :
    addRevision (repoMap repos) pkg prmap pr =
      .error ("configinject repo name not found: " ++ pr.repositoryName) := by
  have hnone : repos.filter (·.name = pr.repositoryName) = [] := by
    apply List.filter_eq_nil_iff.mpr
    intro repo hrepo hname
    exact h ⟨repo, hrepo, of_decide_eq_true hname⟩
  rw [addRevision, lookup_repoMap, hnone]
  rfl

theorem turn_apply (pr : PackageRevision) (prmap : List (String × PackageRevision)) :
    pr.turn.apply prmap =
      match lookup Prod.fst pr.prName prmap with
      | some (_, latestPR) =>
        if pr.revision > latestPR.revision then upsert Prod.fst (pr.prName, pr) prmap else prmap
      | none => upsert Prod.fst (pr.prName, pr) prmap := by
  unfold PackageRevision.turn
  rw [keep_apply]
  cases lookup Prod.fst pr.prName prmap <;> rfl

theorem addRevision_of_listed {pr : PackageRevision} (h : Listed repos pr)
    (prmap : List (String × PackageRevision)) :
    addRevision (repoMap repos) pkg prmap pr =
      .ok (if candidate pkg pr && deploys repos pr.repositoryName then pr.turn.apply prmap
        else prmap) := by
  obtain ⟨repo, hlast⟩ := getLast?_of_listed h
  have hdeploys : deploys repos pr.repositoryName = repo.deployment := by
    rw [deploys, hlast]
    rfl
  rw [addRevision, lookup_repoMap, hlast, hdeploys, turn_apply, candidate]
  by_cases hpkg : pr.packageName = pkg <;> cases hdep : repo.deployment <;>
    cases pr.lifecycle.isPublished <;> by_cases hrev : 0 < pr.revision <;>
    simp only [hpkg, hdep, hrev, Option.map_some, gt_iff_lt, decide_true, decide_false,
      Bool.and_true, Bool.and_false, Bool.false_eq_true, and_true, and_false, if_true, if_false]
  -- What is left is a revision that is entered.
  cases lookup Prod.fst pr.prName prmap with
  | none => rfl
  | some held => exact (apply_ite _ _ _ _).symm

theorem foldlM_addRevision_of_listed (h : ∀ pr ∈ prs, Listed repos pr)
    (prmap : List (String × PackageRevision)) :
    prs.foldlM (addRevision (repoMap repos) pkg) prmap =
      .ok (applyAll ((chosen prs repos pkg).map PackageRevision.turn) prmap) := by
  induction prs generalizing prmap with
  | nil => rfl
  | cons pr prs ih =>
    rw [List.foldlM_cons, addRevision_of_listed (h pr List.mem_cons_self)]
    show prs.foldlM (addRevision (repoMap repos) pkg) _ = _
    rw [ih fun x hx => h x (List.mem_cons_of_mem _ hx), chosen, chosen, List.filter_cons]
    split <;> rfl

theorem foldlM_addRevision_of_not_listed (h : ¬ ∀ pr ∈ prs, Listed repos pr)
    (prmap : List (String × PackageRevision)) :
    ∃ r, prs.foldlM (addRevision (repoMap repos) pkg) prmap =
      .error ("configinject repo name not found: " ++ r) := by
  induction prs generalizing prmap with
  | nil => exact absurd (fun _ hpr => absurd hpr List.not_mem_nil) h
  | cons pr prs ih =>
    rw [List.foldlM_cons]
    by_cases hpr : Listed repos pr
    · rw [addRevision_of_listed hpr]
      exact ih (fun hall => h (List.forall_mem_cons.mpr ⟨hpr, hall⟩)) _
    · rw [addRevision_of_not_listed hpr]
      exact ⟨pr.repositoryName, rfl⟩

/-! ## The map -/

theorem candidate_iff {pr : PackageRevision} :
    candidate pkg pr = true ↔
      pr.packageName = pkg ∧ pr.lifecycle.isPublished = true ∧ 0 < pr.revision := by
  simp only [candidate, Bool.and_eq_true, decide_eq_true_eq]

theorem mem_candidatesOf_iff {r : String} {pr : PackageRevision} :
    pr ∈ candidatesOf prs pkg r ↔ pr ∈ prs ∧ candidate pkg pr = true ∧ pr.repositoryName = r := by
  simp only [candidatesOf, List.mem_filter, Bool.and_eq_true, decide_eq_true_eq]

theorem prName_inj {pr pr' : PackageRevision} (hpkg : pr.packageName = pr'.packageName) :
    pr.prName = pr'.prName ↔ pr.repositoryName = pr'.repositoryName := by
  refine ⟨fun h => ?_, fun h => by rw [PackageRevision.prName, h, hpkg]; rfl⟩
  rw [PackageRevision.prName, PackageRevision.prName, hpkg] at h
  have hlist := congrArg String.toList h
  simp only [String.toList_append] at hlist
  exact String.toList_inj.mp (List.append_cancel_right (List.append_cancel_right hlist))

/-- Of the revisions that are entered, those of one name are those of one repository. -/
theorem filter_chosen {pr : PackageRevision} (hpkg : pr.packageName = pkg)
    (hdeploys : deploys repos pr.repositoryName = true) :
    (chosen prs repos pkg).filter (·.prName = pr.prName) =
      candidatesOf prs pkg pr.repositoryName := by
  rw [chosen, candidatesOf, List.filter_filter]
  apply List.filter_congr
  intro x _
  cases hcandidate : candidate pkg x with
  | false => simp only [Bool.false_and, Bool.and_false]
  | true =>
    have hname : x.prName = pr.prName ↔ x.repositoryName = pr.repositoryName :=
      prName_inj ((candidate_iff.mp hcandidate).1.trans hpkg.symm)
    by_cases heq : x.repositoryName = pr.repositoryName
    · simp only [hname.mpr heq, heq, hdeploys, Bool.and_self, decide_true]
    · simp only [mt hname.mp heq, heq, decide_false, Bool.false_and, Bool.and_false]

theorem nodup_latestOf : (keys Prod.fst (latestOf prs repos pkg)).Nodup :=
  nodup_keys_applyAll (l := []) List.nodup_nil _

theorem value_latestOf (k : String) :
    value k (latestOf prs repos pkg) =
      latest PackageRevision.revision ((chosen prs repos pkg).filter (·.prName = k)) :=
  value_applyAll_keep PackageRevision.revision PackageRevision.prName (chosen prs repos pkg) k

theorem mem_latestOf_iff {k : String} {pr : PackageRevision} :
    (k, pr) ∈ latestOf prs repos pkg ↔
      k = pr.prName ∧ deploys repos pr.repositoryName = true ∧
        latest PackageRevision.revision (candidatesOf prs pkg pr.repositoryName) = some pr := by
  rw [← value_eq_some_iff nodup_latestOf, value_latestOf]
  refine ⟨fun h => ?_, fun ⟨hk, hdeploys, hlatest⟩ => ?_⟩
  · have hmem := List.mem_filter.mp (greatest_of_latest h).1
    have hk : pr.prName = k := of_decide_eq_true hmem.2
    have hchosen := (List.mem_filter.mp hmem.1).2
    rw [Bool.and_eq_true] at hchosen
    refine ⟨hk.symm, hchosen.2, ?_⟩
    rw [← filter_chosen (candidate_iff.mp hchosen.1).1 hchosen.2, hk]
    exact h
  · have hmem := mem_candidatesOf_iff.mp (greatest_of_latest hlatest).1
    rw [hk, filter_chosen (candidate_iff.mp hmem.2.1).1 hdeploys]
    exact hlatest

/-! ## The selection -/

/-- The revisions of the map, in some order. -/
structure Picked (prs : List PackageRevision) (repos : List Repository) (pkg : String)
    (selection : List PackageRevision) : Prop where
  nodup : (selection.map PackageRevision.repositoryName).Nodup
  mem_iff : ∀ pr, pr ∈ selection ↔ deploys repos pr.repositoryName = true ∧
    latest PackageRevision.revision (candidatesOf prs pkg pr.repositoryName) = some pr

theorem picked_of_perm {selection : List PackageRevision}
    (h : selection.Perm ((latestOf prs repos pkg).map Prod.snd)) :
    Picked prs repos pkg selection := by
  have hmem : ∀ pr, pr ∈ selection ↔ deploys repos pr.repositoryName = true ∧
      latest PackageRevision.revision (candidatesOf prs pkg pr.repositoryName) = some pr := by
    intro pr
    rw [h.mem_iff, List.mem_map]
    refine ⟨?_, fun hpr => ⟨(pr.prName, pr), mem_latestOf_iff.mpr ⟨rfl, hpr⟩, rfl⟩⟩
    rintro ⟨⟨k, pr⟩, hentry, rfl⟩
    exact (mem_latestOf_iff.mp hentry).2
  refine ⟨?_, hmem⟩
  have hsnd : ((latestOf prs repos pkg).map Prod.snd).Nodup := by
    apply List.Nodup.map_on ?_ (nodup_entries nodup_latestOf)
    intro x hx y hy heq
    exact Prod.ext ((mem_latestOf_iff.mp hx).1.trans (heq ▸ (mem_latestOf_iff.mp hy).1.symm)) heq
  apply List.Nodup.map_on ?_ (h.nodup_iff.mpr hsnd)
  intro x hx y hy heq
  have hx := ((hmem x).mp hx).2
  rw [heq] at hx
  exact Option.some.inj (hx.symm.trans ((hmem y).mp hy).2)

/-- One revision of each deployment repository that has a published one, of the highest revision
number there. -/
structure Selects (prs : List PackageRevision) (repos : List Repository) (pkg : String)
    (selection : List PackageRevision) : Prop where
  one : (selection.map PackageRevision.repositoryName).Nodup
  repositories : ∀ r, r ∈ selection.map PackageRevision.repositoryName ↔
    deploys repos r = true ∧ candidatesOf prs pkg r ≠ []
  greatest : ∀ pr ∈ selection,
    Greatest PackageRevision.revision (candidatesOf prs pkg pr.repositoryName) pr

theorem Picked.selects {selection : List PackageRevision} (h : Picked prs repos pkg selection) :
    Selects prs repos pkg selection := by
  refine ⟨h.nodup, fun r => ?_, fun pr hpr => greatest_of_latest ((h.mem_iff pr).mp hpr).2⟩
  rw [List.mem_map]
  refine ⟨?_, fun ⟨hdeploys, hne⟩ => ?_⟩
  · rintro ⟨pr, hpr, rfl⟩
    have ⟨hdeploys, hlatest⟩ := (h.mem_iff pr).mp hpr
    exact ⟨hdeploys, List.ne_nil_of_mem (greatest_of_latest hlatest).1⟩
  · obtain ⟨pr, hpr⟩ := @exists_latest _ _ _ PackageRevision.revision _ hne
    have hrepo : pr.repositoryName = r :=
      (mem_candidatesOf_iff.mp (greatest_of_latest hpr).1).2.2
    subst hrepo
    exact ⟨pr, (h.mem_iff pr).mpr ⟨hdeploys, hpr⟩, rfl⟩

end Nephio.ConfigInject
