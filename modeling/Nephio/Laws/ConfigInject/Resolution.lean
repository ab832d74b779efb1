import Nephio.Laws.ConfigInject.Selection
import Nephio.Laws.Controllers.Specializer

/-!
# The resolution of a Dependency

Where all repositories are listed, the revisions whose resources are read are the latest published
ones, one for each deployment repository. The order of the two lists is seen only where the
repositories of a name do not agree, or where several revisions of a repository have the highest
number. Revisions of other packages are not seen, as long as their repositories are listed too
(`resolution`).
-/

namespace Nephio.ConfigInject

open Keyed Loops ClaimFns Controllers

variable {V T : Type} {env : Env V T} {dep : DependencySpec} {forObj : KubeObject V}

/-! ## The children of a revision -/

theorem injectObject_append (pr : PackageRevision) (kf : KptFile) (resources : List (KubeObject V))
    (o : KubeObject V) :
    injectObject env forObj pr kf resources o =
      (resources ++ ·) <$> injectObject env forObj pr kf [] o := by
  unfold injectObject
  dsimp only
  cases kf.getCondition (getConditionType o.ref) with
  | none => rfl
  | some c =>
    dsimp only
    split_ifs
    · rfl
    · cases getConfigKubeObject env forObj o <;> rfl

theorem injectKind_append (pr : PackageRevision) (kf : KptFile) (items resources : List (KubeObject V))
    (ref : ObjectReference) :
    injectKind env forObj pr kf items resources ref =
      (resources ++ ·) <$> injectKind env forObj pr kf items [] ref := by
  unfold injectKind
  dsimp only
  split_ifs
  · rfl
  · exact Fallible.foldlM_append_of_forall (injectObject_append pr kf) _ resources

theorem injectRevision_append (pr : PackageRevision) (resources : List (KubeObject V)) :
    injectRevision env dep forObj pr resources =
      (resources ++ ·) <$> injectRevision env dep forObj pr [] := by
  unfold injectRevision
  cases env.get pr.key with
  | error err => rfl
  | ok prr =>
    dsimp only [bind, Except.bind]
    cases getResourceList env.yaml env.order prr with
    | error err => rfl
    | ok items =>
      dsimp only
      cases env.rootKptfile items with
      | none => rfl
      | some kf =>
        exact Fallible.foldlM_append_of_forall (injectKind_append pr kf items) _ resources

/-- What of a revision is looked at: its key and the names. -/
def PackageRevision.bare (pr : PackageRevision) : PackageRevision :=
  { pr with revision := 0, lifecycle := .draft }

theorem injectRevision_bare (pr : PackageRevision) :
    injectRevision env dep forObj pr.bare = injectRevision env dep forObj pr := rfl

/-- The Configs of a revision. -/
def configs (env : Env V T) (dep : DependencySpec) (forObj : KubeObject V) (pr : PackageRevision) :
    List (KubeObject V) :=
  (injectRevision env dep forObj pr []).toOption.getD []

/-- The resources of a revision are as the Dependency asks. -/
def Ready (env : Env V T) (dep : DependencySpec) (forObj : KubeObject V) (pr : PackageRevision) :
    Prop :=
  ∃ objs, injectRevision env dep forObj pr [] = .ok objs

theorem injectAll_keys (prs : List PackageRevision) (resources : List (KubeObject V)) :
    (injectAll env dep forObj prs resources).1 <+: prs.map PackageRevision.key := by
  induction prs generalizing resources with
  | nil => exact List.prefix_rfl
  | cons pr prs ih =>
    rw [injectAll, List.map_cons]
    cases injectRevision env dep forObj pr resources with
    | error err => exact List.cons_prefix_cons.mpr ⟨rfl, List.nil_prefix⟩
    | ok resources => exact List.cons_prefix_cons.mpr ⟨rfl, ih resources⟩

theorem injectAll_keys_ne_nil {prs : List PackageRevision} (h : prs ≠ [])
    (resources : List (KubeObject V)) : (injectAll env dep forObj prs resources).1 ≠ [] := by
  cases prs with
  | nil => exact absurd rfl h
  | cons pr prs =>
    rw [injectAll]
    cases injectRevision env dep forObj pr resources <;> exact List.cons_ne_nil _ _

theorem injectAll_eq_ok_iff {prs : List PackageRevision} {resources : List (KubeObject V)}
    {keys : List ObjectKey} {out : List (KubeObject V)} :
    injectAll env dep forObj prs resources = (keys, .ok out) ↔
      (∀ pr ∈ prs, Ready env dep forObj pr) ∧ keys = prs.map PackageRevision.key ∧
        out = resources ++ prs.flatMap (configs env dep forObj) := by
  induction prs generalizing resources keys with
  | nil =>
    rw [injectAll, Prod.mk.injEq, Except.ok.injEq]
    simp only [List.not_mem_nil, false_imp_iff, implies_true, true_and, List.map_nil,
      List.flatMap_nil, List.append_nil]
    exact and_congr eq_comm eq_comm
  | cons pr prs ih =>
    rw [injectAll, injectRevision_append]
    cases hpr : injectRevision env dep forObj pr [] with
    | error err =>
      refine iff_of_false (fun h => ?_) (fun h => ?_)
      · cases (Prod.mk.inj h).2
      · obtain ⟨objs, hobjs⟩ := h.1 pr List.mem_cons_self
        cases hpr.symm.trans hobjs
    | ok objs =>
      have hconfigs : configs env dep forObj pr = objs := by
        rw [configs, hpr]
        rfl
      have hready : Ready env dep forObj pr := ⟨objs, hpr⟩
      rw [List.forall_mem_cons, List.map_cons, List.flatMap_cons, hconfigs, ← List.append_assoc]
      show (pr.key :: (injectAll env dep forObj prs (resources ++ objs)).1,
        (injectAll env dep forObj prs (resources ++ objs)).2) = (keys, .ok out) ↔ _
      constructor
      · intro h
        obtain ⟨hkeys, hout⟩ := Prod.mk.inj h
        obtain ⟨hall, hrest, hout⟩ := ih.mp (Prod.ext rfl hout)
        exact ⟨⟨hready, hall⟩, hkeys.symm.trans (congrArg (pr.key :: ·) hrest), hout⟩
      · rintro ⟨⟨-, hall⟩, rfl, hout⟩
        rw [ih.mpr ⟨hall, rfl, hout⟩]

/-! ## The outcome -/

/-- The call in a package with a workload cluster, where both lists are answered. -/
def outcome (env : Env V T) (ord : Go.MapOrder Unit String) (wc : WorkloadClusterSpec)
    (prs : List PackageRevision) (repos : List Repository) (forObj : KubeObject V) :
    List ObjectKey × Except String (List (KubeObject V)) :=
  desiredOwnedResourceList env ord (some wc) (.ok prs) (.ok repos) forObj

variable {ord : Go.MapOrder Unit String} {wc : WorkloadClusterSpec} {prs prs' : List PackageRevision}
  {repos repos' : List Repository} {pkg : String}

/-- The revisions, in the order in which their resources are read. -/
def selection (ord : Go.MapOrder Unit String) (prs : List PackageRevision) (repos : List Repository)
    (pkg : String) : List PackageRevision :=
  (ord.range () (latestOf prs repos pkg)).map Prod.snd

theorem picked_selection : Picked prs repos pkg (selection ord prs repos pkg) :=
  picked_of_perm ((ord.perm () _).map _)

theorem latestOf_eq_nil_iff : latestOf prs repos pkg = [] ↔ selection ord prs repos pkg = [] := by
  rw [selection, List.map_eq_nil_iff]
  constructor
  · intro h
    exact (h ▸ ord.perm () _ : (ord.range () (latestOf prs repos pkg)).Perm []).eq_nil
  · intro h
    exact (h ▸ ord.perm () _ : [].Perm (latestOf prs repos pkg)).nil_eq.symm

section Outcome

variable (hdep : env.dependency forObj = .ok dep)
include hdep

theorem outcome_of_not_listed (h : ¬ ∀ pr ∈ prs, Listed repos pr) :
    ∃ r, outcome env ord wc prs repos forObj =
      ([], .error ("configinject repo name not found: " ++ r)) := by
  obtain ⟨r, hr⟩ := @foldlM_addRevision_of_not_listed _ _ dep.packageName h []
  refine ⟨r, ?_⟩
  unfold outcome desiredOwnedResourceList
  simp only [hdep, hr]

theorem outcome_of_listed (h : ∀ pr ∈ prs, Listed repos pr) :
    outcome env ord wc prs repos forObj =
      ((injectAll env dep forObj (selection ord prs repos dep.packageName) []).1, do
        let resources ← (injectAll env dep forObj (selection ord prs repos dep.packageName) []).2
        if (latestOf prs repos dep.packageName).isEmpty then
          .error ("dependency not ready: expecting at least 1 package " ++ dep.packageName ++
            " with the corresponding reference")
        else return resources) := by
  unfold outcome desiredOwnedResourceList
  simp only [hdep, foldlM_addRevision_of_listed h]
  rfl

theorem outcome_eq_ok_iff (h : ∀ pr ∈ prs, Listed repos pr) {keys : List ObjectKey}
    {children : List (KubeObject V)} :
    outcome env ord wc prs repos forObj = (keys, .ok children) ↔
      selection ord prs repos dep.packageName ≠ [] ∧
        (∀ pr ∈ selection ord prs repos dep.packageName, Ready env dep forObj pr) ∧
        keys = (selection ord prs repos dep.packageName).map PackageRevision.key ∧
        children = (selection ord prs repos dep.packageName).flatMap (configs env dep forObj) := by
  have hne : selection ord prs repos dep.packageName ≠ [] ↔
      latestOf prs repos dep.packageName ≠ [] := latestOf_eq_nil_iff.not.symm
  rw [outcome_of_listed hdep h, Prod.mk.injEq, Fallible.bind_eq_ok, hne]
  have hinject := fun keys out => @injectAll_eq_ok_iff _ _ env dep forObj
    (selection ord prs repos dep.packageName) [] keys out
  simp only [List.nil_append] at hinject
  cases hlatest : latestOf prs repos dep.packageName with
  | nil =>
    refine iff_of_false (fun ⟨_, _, _, hout⟩ => ?_) (fun h => h.1 rfl)
    cases hout
  | cons entry rest =>
    rw [and_iff_right (List.cons_ne_nil entry rest), ← hinject, Prod.ext_iff]
    refine and_congr_right fun _ => ⟨?_, fun hout => ⟨children, hout, rfl⟩⟩
    rintro ⟨out, hout, hchildren⟩
    rw [hout]
    exact hchildren

end Outcome

/-! ## Revisions of other packages -/

theorem chosen_filter (prs : List PackageRevision) (repos : List Repository) (pkg : String) :
    chosen (prs.filter (·.packageName = pkg)) repos pkg = chosen prs repos pkg := by
  rw [chosen, chosen, List.filter_filter]
  apply List.filter_congr
  intro pr _
  by_cases hpkg : pr.packageName = pkg
  · simp only [hpkg, decide_true, Bool.and_true]
  · simp only [candidate, hpkg, decide_false, Bool.false_and]

theorem outcome_eq_iff (hdep : env.dependency forObj = .ok dep)
    (h : ∀ pr ∈ prs, Listed repos pr)
    (hfilter : prs'.filter (·.packageName = dep.packageName) =
      prs.filter (·.packageName = dep.packageName)) :
    outcome env ord wc prs' repos forObj = outcome env ord wc prs repos forObj ↔
      ∀ pr ∈ prs', Listed repos pr := by
  have hlatest : latestOf prs' repos dep.packageName = latestOf prs repos dep.packageName := by
    rw [latestOf, latestOf, ← chosen_filter prs', hfilter, chosen_filter]
  constructor
  · intro heq
    by_contra hnot
    obtain ⟨r, hr⟩ := @outcome_of_not_listed _ _ env dep forObj ord wc _ _ hdep hnot
    rw [hr, outcome_of_listed hdep h] at heq
    obtain ⟨hkeys, hout⟩ := Prod.mk.inj heq
    have hnil : selection ord prs repos dep.packageName = [] := by
      by_contra hne
      exact injectAll_keys_ne_nil hne [] hkeys.symm
    -- Nothing is read, so that the error is the one that nothing is found, of another text.
    rw [hnil, latestOf_eq_nil_iff.mpr hnil] at hout
    have hlist := congrArg String.toList (Except.error.inj hout)
    simp only [String.toList_append] at hlist
    exact absurd (List.cons.inj hlist).1 (by decide)
  · intro h'
    rw [outcome_of_listed hdep h', outcome_of_listed hdep h, selection, selection, hlatest]

/-! ## The order of the lists -/

theorem candidatesOf_perm (h : prs'.Perm prs) (pkg r : String) :
    (candidatesOf prs' pkg r).Perm (candidatesOf prs pkg r) := h.filter _

theorem listed_of_perm {pr : PackageRevision} (h : repos'.Perm repos) :
    Listed repos' pr ↔ Listed repos pr := by
  simp only [Listed, h.mem_iff]

theorem exists_of_deploys {r : String} (h : deploys repos r = true) :
    ∃ repo ∈ repos, repo.name = r ∧ repo.deployment = true := by
  unfold deploys at h
  cases hlast : (repos.filter (·.name = r)).getLast? with
  | none =>
    rw [hlast] at h
    cases h
  | some repo =>
    rw [hlast] at h
    have hmem := List.mem_filter.mp (List.mem_of_getLast? hlast)
    exact ⟨repo, hmem.1, of_decide_eq_true hmem.2, h⟩

/-- The repositories of a name agree, as far as they have candidates, and so do the candidates of a
deployment repository that have the highest number, on the key. -/
structure Unambiguous (prs : List PackageRevision) (repos : List Repository) (pkg : String) :
    Prop where
  deployments : ∀ pr ∈ prs, candidate pkg pr = true → ∀ repo ∈ repos, ∀ repo' ∈ repos,
    repo.name = pr.repositoryName → repo'.name = pr.repositoryName →
      repo.deployment = repo'.deployment
  revisions : ∀ repo ∈ repos, repo.deployment = true → ∀ pr pr',
    Greatest PackageRevision.revision (candidatesOf prs pkg repo.name) pr →
      Greatest PackageRevision.revision (candidatesOf prs pkg repo.name) pr' → pr.key = pr'.key

theorem deploys_of_agree {r : String} {repo : Repository}
    (hagree : ∀ repo' ∈ repos, repo'.name = r → repo'.deployment = true) (hrepo : repo ∈ repos)
    (hname : repo.name = r) : deploys repos r = true := by
  have hmem : repo ∈ repos.filter (·.name = r) :=
    List.mem_filter.mpr ⟨hrepo, decide_eq_true hname⟩
  have hlast := List.getLast?_eq_some_getLast (List.ne_nil_of_mem hmem)
  have hin := List.mem_filter.mp (List.mem_of_getLast? hlast)
  rw [deploys, hlast]
  exact hagree _ hin.1 (of_decide_eq_true hin.2)

theorem Unambiguous.of_perm (h : Unambiguous prs repos pkg) (hprs : prs'.Perm prs)
    (hrepos : repos'.Perm repos) : Unambiguous prs' repos' pkg where
  deployments pr hpr hcandidate repo hrepo repo' hrepo' :=
    h.deployments pr (hprs.mem_iff.mp hpr) hcandidate repo (hrepos.mem_iff.mp hrepo) repo'
      (hrepos.mem_iff.mp hrepo')
  revisions repo hrepo hdeployment pr pr' hpr hpr' :=
    h.revisions repo (hrepos.mem_iff.mp hrepo) hdeployment pr pr'
      ((greatest_of_perm (candidatesOf_perm hprs pkg _)).mp hpr)
      ((greatest_of_perm (candidatesOf_perm hprs pkg _)).mp hpr')

theorem bare_mem_of_mem (h : Unambiguous prs repos pkg) (hprs : prs'.Perm prs)
    (hrepos : repos'.Perm repos) {selected selected' : List PackageRevision}
    (hpicked : Picked prs repos pkg selected) (hpicked' : Picked prs' repos' pkg selected')
    {pr : PackageRevision} (hpr : pr ∈ selected) :
    pr.bare ∈ selected'.map PackageRevision.bare := by
  obtain ⟨hdeploys, hlatest⟩ := (hpicked.mem_iff pr).mp hpr
  obtain ⟨repo, hrepo, hname, hdeployment⟩ := exists_of_deploys hdeploys
  have hgreatest := greatest_of_latest hlatest
  obtain ⟨hmem, hcandidate, -⟩ := mem_candidatesOf_iff.mp hgreatest.1
  have hcandidates := candidatesOf_perm hprs pkg pr.repositoryName
  obtain ⟨pr', hlatest'⟩ := @exists_latest _ _ _ PackageRevision.revision _
    (List.ne_nil_of_mem (hcandidates.mem_iff.mpr hgreatest.1))
  have hgreatest' := (greatest_of_perm hcandidates).mp (greatest_of_latest hlatest')
  obtain ⟨-, hcandidate', hrepo'⟩ := mem_candidatesOf_iff.mp hgreatest'.1
  have hpkg : pr'.packageName = pr.packageName :=
    (candidate_iff.mp hcandidate').1.trans (candidate_iff.mp hcandidate).1.symm
  rw [← hname] at hgreatest hgreatest'
  have hkey := h.revisions repo hrepo hdeployment pr' pr hgreatest' hgreatest
  have hdeploys' : deploys repos' pr.repositoryName = true := by
    apply deploys_of_agree (fun other hother hother' => ?_) (hrepos.mem_iff.mpr hrepo) hname
    rw [← hdeployment]
    exact h.deployments pr hmem hcandidate other (hrepos.mem_iff.mp hother) repo hrepo hother' hname
  refine List.mem_map.mpr ⟨pr', (hpicked'.mem_iff pr').mpr ?_, ?_⟩
  · rw [hrepo']
    exact ⟨hdeploys', hlatest'⟩
  · rw [PackageRevision.bare, hkey, hrepo', hpkg]
    rfl

theorem Picked.nodup_bare {selected : List PackageRevision} (h : Picked prs repos pkg selected) :
    (selected.map PackageRevision.bare).Nodup := by
  apply List.Nodup.of_map PackageRevision.repositoryName
  rw [List.map_map]
  exact h.nodup

/-- Where nothing is ambiguous, lists in another order have the same revisions read. -/
theorem perm_bare (h : Unambiguous prs repos pkg) (hprs : prs'.Perm prs)
    (hrepos : repos'.Perm repos) {selected selected' : List PackageRevision}
    (hpicked : Picked prs repos pkg selected) (hpicked' : Picked prs' repos' pkg selected') :
    (selected'.map PackageRevision.bare).Perm (selected.map PackageRevision.bare) := by
  rw [List.perm_ext_iff_of_nodup hpicked'.nodup_bare hpicked.nodup_bare]
  intro bare
  constructor
  · intro hbare
    obtain ⟨pr, hpr, rfl⟩ := List.mem_map.mp hbare
    exact bare_mem_of_mem (h.of_perm hprs hrepos) hprs.symm hrepos.symm hpicked' hpicked hpr
  · intro hbare
    obtain ⟨pr, hpr, rfl⟩ := List.mem_map.mp hbare
    exact bare_mem_of_mem h hprs hrepos hpicked hpicked' hpr

theorem outcome_of_perm (hdep : env.dependency forObj = .ok dep) (hlisted : ∀ pr ∈ prs, Listed repos pr)
    (h : Unambiguous prs repos dep.packageName) (hprs : prs'.Perm prs) (hrepos : repos'.Perm repos)
    {keys : List ObjectKey} {children : List (KubeObject V)}
    (hout : outcome env ord wc prs repos forObj = (keys, .ok children))
    (ord' : Go.MapOrder Unit String) :
    ∃ keys' children', outcome env ord' wc prs' repos' forObj = (keys', .ok children') ∧
      keys'.Perm keys ∧ children'.Perm children := by
  obtain ⟨hne, hready, rfl, rfl⟩ := (outcome_eq_ok_iff hdep hlisted).mp hout
  have hlisted' : ∀ pr ∈ prs', Listed repos' pr := fun pr hpr =>
    (listed_of_perm hrepos).mpr (hlisted pr (hprs.mem_iff.mp hpr))
  have hperm := perm_bare h hprs hrepos (@picked_selection ord prs repos dep.packageName)
    (@picked_selection ord' prs' repos' dep.packageName)
  refine ⟨_, _, (outcome_eq_ok_iff hdep hlisted').mpr ⟨?_, ?_, rfl, rfl⟩, ?_, ?_⟩
  · intro hnil
    rw [hnil] at hperm
    exact hne (List.map_eq_nil_iff.mp hperm.nil_eq.symm)
  · intro pr' hpr'
    obtain ⟨pr, hpr, hbare⟩ := List.mem_map.mp (hperm.mem_iff.mp (List.mem_map_of_mem hpr'))
    rw [Ready, ← injectRevision_bare, ← hbare]
    exact hready pr hpr
  · have hkeys := hperm.map PackageRevision.key
    rw [List.map_map, List.map_map] at hkeys
    exact hkeys
  · have hconfigs := hperm.flatMap_right (configs env dep forObj)
    rw [List.flatMap_map, List.flatMap_map] at hconfigs
    exact hconfigs

/-! ## What is ambiguous is seen -/

theorem deploys_concat (l : List Repository) (repo : Repository) :
    deploys (l ++ [repo]) repo.name = repo.deployment := by
  have hlast : [repo].filter (·.name = repo.name) = [repo] :=
    List.filter_cons_of_pos (decide_eq_true rfl)
  rw [deploys, List.filter_append, hlast, List.getLast?_concat]
  rfl

theorem mem_selection_of_greatest {pr : PackageRevision} {l : List PackageRevision}
    (hl : (pr :: l).Perm prs) (hdeploys : deploys repos pr.repositoryName = true)
    (hgreatest : Greatest PackageRevision.revision (candidatesOf prs pkg pr.repositoryName) pr) :
    pr ∈ selection ord (pr :: l) repos pkg := by
  refine (picked_selection.mem_iff pr).mpr ⟨hdeploys, ?_⟩
  have hcandidates := candidatesOf_perm hl pkg pr.repositoryName
  rw [← greatest_of_perm hcandidates] at hgreatest
  have hcons : candidatesOf (pr :: l) pkg pr.repositoryName =
      pr :: candidatesOf l pkg pr.repositoryName :=
    List.filter_cons_of_pos (List.mem_filter.mp hgreatest.1).2
  rw [hcons] at hgreatest ⊢
  exact latest_cons_of_greatest hgreatest

section Ambiguous

variable {keys : List ObjectKey}
  (hall : ∀ prs' repos', prs'.Perm prs → repos'.Perm repos →
    ((selection ord prs' repos' pkg).map PackageRevision.key).Perm keys)
include hall

/-- With the repository that is not for deployment last, one revision less is read. -/
theorem false_of_disagree {pr : PackageRevision} (hpr : pr ∈ prs) (hcandidate : candidate pkg pr = true)
    {repo repo' : Repository} (hrepo : repo ∈ repos) (hrepo' : repo' ∈ repos)
    (hname : repo.name = pr.repositoryName) (hname' : repo'.name = pr.repositoryName)
    (hdeployment : repo.deployment = true) (hdeployment' : repo'.deployment = false) : False := by
  obtain ⟨l, hl, hfilter⟩ := exists_perm_concat hrepo
  obtain ⟨l', hl', hfilter'⟩ := exists_perm_concat hrepo'
  have hselects := (@picked_selection ord prs (l ++ [repo]) pkg).selects
  have hselects' := (@picked_selection ord prs (l' ++ [repo']) pkg).selects
  have hdeploys : deploys (l ++ [repo]) pr.repositoryName = true := by
    rw [← hname, deploys_concat, hdeployment]
  have hdeploys' : deploys (l' ++ [repo']) pr.repositoryName = false := by
    rw [← hname', deploys_concat, hdeployment']
  have hother : ∀ r, r ≠ pr.repositoryName → deploys (l ++ [repo]) r = deploys (l' ++ [repo']) r := by
    intro r hr
    rw [deploys, deploys, hfilter _ (decide_eq_false (hname.trans_ne hr.symm)),
      hfilter' _ (decide_eq_false (hname'.trans_ne hr.symm))]
  have hnotMem : pr.repositoryName ∉
      (selection ord prs (l' ++ [repo']) pkg).map PackageRevision.repositoryName := by
    rw [hselects'.repositories, hdeploys']
    exact fun h => Bool.false_ne_true h.1
  have hsubset : pr.repositoryName ::
      (selection ord prs (l' ++ [repo']) pkg).map PackageRevision.repositoryName ⊆
      (selection ord prs (l ++ [repo]) pkg).map PackageRevision.repositoryName := by
    intro r hr
    rw [hselects.repositories]
    rcases List.mem_cons.mp hr with rfl | hr
    · exact ⟨hdeploys, List.ne_nil_of_mem (mem_candidatesOf_iff.mpr ⟨hpr, hcandidate, rfl⟩)⟩
    · rw [hother r fun heq => hnotMem (heq ▸ hr)]
      exact (hselects'.repositories r).mp hr
  have hlength := (List.subperm_of_subset (List.nodup_cons.mpr ⟨hnotMem, hselects'.one⟩)
    hsubset).length_le
  have hkeys := (hall prs _ (.refl _) hl).length_eq
  have hkeys' := (hall prs _ (.refl _) hl').length_eq
  simp only [List.length_cons, List.length_map] at hlength hkeys hkeys'
  omega

/-- Either of two revisions of the highest number is read, if it comes first. -/
theorem key_eq_of_greatest {pr pr' : PackageRevision} (hrepo : pr'.repositoryName = pr.repositoryName)
    (hdeploys : deploys repos pr.repositoryName = true)
    (hgreatest : Greatest PackageRevision.revision (candidatesOf prs pkg pr.repositoryName) pr)
    (hgreatest' : Greatest PackageRevision.revision (candidatesOf prs pkg pr.repositoryName) pr') :
    pr.key = pr'.key := by
  obtain ⟨l, hl, hfilter⟩ := exists_perm_cons (mem_candidatesOf_iff.mp hgreatest.1).1
  obtain ⟨l', hl', hfilter'⟩ := exists_perm_cons (mem_candidatesOf_iff.mp hgreatest'.1).1
  have hpicked := @picked_selection ord (pr :: l) repos pkg
  have hpicked' := @picked_selection ord (pr' :: l') repos pkg
  have hmem : pr ∈ selection ord (pr :: l) repos pkg :=
    mem_selection_of_greatest hl hdeploys hgreatest
  have hmem' : pr' ∈ selection ord (pr' :: l') repos pkg := by
    rw [← hrepo] at hdeploys hgreatest'
    exact mem_selection_of_greatest hl' hdeploys hgreatest'
  -- The revisions of the other repositories are the same.
  have hrest : (drop PackageRevision.repositoryName pr.repositoryName
      (selection ord (pr :: l) repos pkg)).Perm
      (drop PackageRevision.repositoryName pr.repositoryName
        (selection ord (pr' :: l') repos pkg)) := by
    apply (List.perm_ext_iff_of_nodup ((List.Nodup.of_map _ hpicked.nodup).filter _)
      ((List.Nodup.of_map _ hpicked'.nodup).filter _)).mpr
    intro x
    rw [List.mem_filter, List.mem_filter, hpicked.mem_iff, hpicked'.mem_iff]
    refine and_congr_left fun hx => and_congr_right fun _ => ?_
    have hne : x.repositoryName ≠ pr.repositoryName := of_decide_eq_true hx
    have hskip : (candidate pkg pr && decide (pr.repositoryName = x.repositoryName)) = false := by
      rw [decide_eq_false hne.symm, Bool.and_false]
    have hskip' : (candidate pkg pr' && decide (pr'.repositoryName = x.repositoryName)) = false := by
      rw [hrepo, decide_eq_false hne.symm, Bool.and_false]
    rw [candidatesOf, candidatesOf, hfilter _ hskip, hfilter' _ hskip']
  have hkeys := ((perm_cons_drop hpicked.nodup hmem).map PackageRevision.key).symm.trans
    (hall _ _ hl (.refl _))
  have hkeys' := ((perm_cons_drop hpicked'.nodup hmem').map PackageRevision.key).symm.trans
    (hall _ _ hl' (.refl _))
  rw [hrepo] at hkeys'
  have hperm := (hkeys.trans hkeys'.symm).trans ((hrest.symm.map PackageRevision.key).cons pr'.key)
  rw [List.map_cons, ← Multiset.coe_eq_coe, ← Multiset.cons_coe, ← Multiset.cons_coe,
    Multiset.cons_inj_left] at hperm
  exact hperm

theorem unambiguous_of_perm : Unambiguous prs repos pkg := by
  have hagree : ∀ pr ∈ prs, candidate pkg pr = true → ∀ repo ∈ repos, ∀ repo' ∈ repos,
      repo.name = pr.repositoryName → repo'.name = pr.repositoryName →
        repo.deployment = repo'.deployment := by
    intro pr hpr hcandidate repo hrepo repo' hrepo' hname hname'
    cases hdeployment : repo.deployment <;> cases hdeployment' : repo'.deployment
    · rfl
    · exact (false_of_disagree hall hpr hcandidate hrepo' hrepo hname' hname hdeployment'
        hdeployment).elim
    · exact (false_of_disagree hall hpr hcandidate hrepo hrepo' hname hname' hdeployment
        hdeployment').elim
    · rfl
  refine ⟨hagree, fun repo hrepo hdeployment pr pr' hgreatest hgreatest' => ?_⟩
  obtain ⟨hpr, hcandidate, hname⟩ := mem_candidatesOf_iff.mp hgreatest.1
  obtain ⟨-, -, hname'⟩ := mem_candidatesOf_iff.mp hgreatest'.1
  have hdeploys : deploys repos pr.repositoryName = true := by
    apply deploys_of_agree (fun other hother hother' => ?_) hrepo hname.symm
    rw [← hdeployment]
    exact hagree pr hpr hcandidate other hother repo hrepo hother' hname.symm
  rw [← hname] at hgreatest hgreatest'
  exact key_eq_of_greatest hall (hname'.trans hname.symm) hdeploys hgreatest hgreatest'

end Ambiguous

/-! ## The resolution -/

/-- A Dependency on the ConfigMaps of amf. -/
def onAmf : DependencySpec where
  packageName := "amf"
  injectors := [{ apiVersion := "v1", kind := "ConfigMap", name := "" }]

/-- A server where each package holds a Kptfile, a claim and a ConfigMap that is ready. -/
def packages : Env Unit (List (KubeObject Unit)) where
  dependency _ := .ok onAmf
  get _ := .ok Specializer.separate
  yaml := Specializer.documents
  order := .insertion
  rootKptfile items :=
    if items.any (·.kind = "Kptfile") then some ⟨[⟨"v1.ConfigMap.n3", .conditionTrue, "", ""⟩], []⟩
    else none
  newConfig name ns o :=
    .ok { apiVersion := "ref.nephio.org/v1alpha1", kind := "Config", name := name, ns := ns,
          rest := [("spec " ++ o.name, ())] }

def dependency : KubeObject Unit :=
  { apiVersion := "req.nephio.org/v1alpha1", kind := "Dependency", name := "amf" }

def cluster : WorkloadClusterSpec := { clusterName := "edge" }

/-- A published revision of a package in the default namespace. -/
def published (repo pkg name : String) (revision : Int) : PackageRevision where
  key := ⟨"default", name⟩
  repositoryName := repo
  packageName := pkg
  revision := revision
  lifecycle := .published

def amf1 : PackageRevision := published "edge" "amf" "edge.amf.v1" 1

def amf2 : PackageRevision := published "edge" "amf" "edge.amf.v2" 2

def smf1 : PackageRevision := published "core" "smf" "core.smf.v1" 1

end Nephio.ConfigInject
