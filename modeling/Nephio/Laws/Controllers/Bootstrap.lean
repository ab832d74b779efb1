import Nephio.Controllers.Bootstrap
import Nephio.Data.Search

/-!
# Laws.Controllers.Bootstrap: which cluster is reached

The reconcilers take the first kubeconfig whose name contains that of the cluster. The cluster that is
reached is the named one exactly where its kubeconfig leads, in the list of the Secrets, all whose
names contain the name (`named_clusters_iff`).
-/

namespace Nephio.Controllers.Bootstrap

/-- A Secret that the search for a cluster stops at. -/
def hit (clusterName : String) (secret : Secret) : Bool :=
  Go.contains secret.key.name clusterName && (getClusterClient secret).isSome

/-- The name of the cluster whose kubeconfig a Secret has. -/
def clusterOf (secret : Secret) : String := Go.trimSuffix secret.key.name kubeConfigSuffix

/-- The kubeconfig of the cluster leads all whose names contain the name of the cluster. -/
def Leads (clusterName : String) (secrets : List Secret) : Prop :=
  Search.Leads hit clusterOf clusterName secrets

theorem secret_of_getClusterClient {secret : Secret} {client : Capi}
    (h : getClusterClient secret = some client) : client = ⟨secret⟩ := by
  unfold getClusterClient at h
  split_ifs at h
  exact (Option.some.inj h).symm

theorem findClusterClient_eq (clusterName : String) (secrets : List Secret) :
    findClusterClient clusterName secrets = (secrets.find? (hit clusterName)).map Capi.mk := by
  induction secrets with
  | nil => rfl
  | cons secret secrets ih =>
    unfold findClusterClient
    cases hcontains : Go.contains secret.key.name clusterName with
    | false =>
      rw [List.find?_cons_of_neg (by rw [hit, hcontains]; exact Bool.false_ne_true)]
      exact ih
    | true =>
      cases hclient : getClusterClient secret with
      | none =>
        rw [List.find?_cons_of_neg (by rw [hit, hclient, Bool.and_comm]; exact Bool.false_ne_true)]
        exact ih
      | some client =>
        rw [List.find?_cons_of_pos (by rw [hit, hcontains, hclient]; rfl),
          secret_of_getClusterClient hclient]
        rfl

/-- A kubeconfig that is found would be found under the name of its own cluster. -/
theorem hit_clusterOf (clusterName : String) (secret : Secret) (h : hit clusterName secret = true) :
    hit (clusterOf secret) secret = true := by
  rw [hit, Bool.and_eq_true] at h ⊢
  exact ⟨Go.contains_trimSuffix _ _, h.2⟩

theorem exact_iff_leads {clusterName : String} {secrets : List Secret} :
    (∀ client, findClusterClient clusterName secrets = some client →
      client.getClusterName = clusterName) ↔ Leads clusterName secrets := by
  rw [Leads, ← Search.find_exact_iff, findClusterClient_eq]
  constructor
  · intro h secret hsecret
    exact h ⟨secret⟩ (by rw [hsecret]; rfl)
  · intro h client hclient
    obtain ⟨secret, hsecret, rfl⟩ := Option.map_eq_some_iff.mp hclient
    exact h secret hsecret

/-! ## The bootstrap-secret reconciler -/

/-- Whether there is a client for a cluster. -/
def found (secrets : List Secret) (clusterName : String) : Bool :=
  (findClusterClient clusterName secrets).isSome

/-- Every call succeeds, and every cluster is ready. -/
def working : Env where
  cluster _ := some [⟨"Ready", "True"⟩]
  restConfig _ := .ok ""
  hasNamespace _ _ := true

section Install

variable {env : Env} {secrets : List Secret} {cr : Secret}

/-- What a listed cluster comes to: `Apply` is called on the client that is found, and a Reconcile that
ends here is run again. -/
theorem install_cases (env : Env) (attempt : Attempt) (secrets : List Secret) (cr : Secret)
    (clusterName : String) :
    (∃ client, findClusterClient clusterName secrets = some client ∧
      install env attempt secrets cr clusterName = .ok ⟨client, remoteSecret cr clusterName⟩) ∨
    ∃ out, install env attempt secrets cr clusterName = .error out ∧ ¬ out.Finished ∧
      ∀ a ∈ out.applied, findClusterClient clusterName secrets = some a.client := by
  have herror : ∀ {out : Outcome Secret}, out.error ≠ none → ¬ out.Finished :=
    fun hne hfinished => hne hfinished.2
  have hrequeue : ∀ {out : Outcome Secret} (n : Int), n ≠ 0 →
      out.result = { requeueAfter := seconds n } → ¬ out.Finished := by
    intro out n hne hresult hfinished
    have hzero : seconds n = 0 := congrArg Result.requeueAfter (hresult.symm.trans hfinished.1)
    unfold seconds at hzero
    omega
  unfold install
  cases attempt.list with
  | some err => exact Or.inr ⟨_, rfl, herror (Option.some_ne_none _), fun a ha => nomatch ha⟩
  | none =>
    cases findClusterClient clusterName secrets with
    | none => exact Or.inr ⟨_, rfl, hrequeue 10 (by omega) rfl, fun a ha => nomatch ha⟩
    | some client =>
      simp only
      cases client.getClusterClient env attempt with
      | error err => exact Or.inr ⟨_, rfl, hrequeue 30 (by omega) rfl, fun a ha => nomatch ha⟩
      | ok server =>
        cases server with
        | none => exact Or.inr ⟨_, rfl, hrequeue 10 (by omega) rfl, fun a ha => nomatch ha⟩
        | some server =>
          cases attempt.getNamespace with
          | some err =>
            right
            refine ⟨_, rfl, ?_, ?_⟩
            · split_ifs
              · exact hrequeue 10 (by omega) rfl
              · exact hrequeue 30 (by omega) rfl
            · split_ifs <;> exact fun a ha => nomatch ha
          | none =>
            simp only
            split_ifs
            · exact Or.inr ⟨_, rfl, hrequeue 10 (by omega) rfl, fun a ha => nomatch ha⟩
            · cases attempt.apply with
              | none => exact Or.inl ⟨client, rfl, rfl⟩
              | some err =>
                refine Or.inr ⟨_, rfl, herror (Option.some_ne_none _), fun a ha => ?_⟩
                rw [List.mem_singleton.mp ha]

theorem install_working {clusterName : String} {client : Capi}
    (h : findClusterClient clusterName secrets = some client) :
    install working {} secrets cr clusterName = .ok ⟨client, remoteSecret cr clusterName⟩ := by
  simp only [install, h]
  rfl

/-- `Apply` is called for a cluster only where there was a client for all that are listed before. -/
theorem applied_installAll {names : List String} {attempts : Nat → Attempt} {a : Application Secret}
    (h : a ∈ (installAll env attempts secrets cr names).applied) :
    ∃ n ∈ names.takeWhile (found secrets), findClusterClient n secrets = some a.client := by
  induction names generalizing attempts with
  | nil => cases h
  | cons n names ih =>
    have hhead : ∀ {client}, findClusterClient n secrets = some client →
        (n :: names).takeWhile (found secrets) = n :: names.takeWhile (found secrets) :=
      fun hclient => List.takeWhile_cons_of_pos (by rw [found, hclient]; rfl)
    unfold installAll at h
    rcases install_cases env (attempts 0) secrets cr n with
      ⟨client, hclient, hinstall⟩ | ⟨out, hinstall, -, happlied⟩
    · simp only [hinstall] at h
      rw [hhead hclient]
      rcases List.mem_cons.mp h with rfl | h
      · exact ⟨n, List.mem_cons_self, hclient⟩
      · obtain ⟨n', hn', hclient'⟩ := ih h
        exact ⟨n', List.mem_cons_of_mem _ hn', hclient'⟩
    · simp only [hinstall] at h
      rw [hhead (happlied a h)]
      exact ⟨n, List.mem_cons_self, happlied a h⟩

/-- A Reconcile that is finished has called `Apply` for every listed cluster. -/
theorem finished_installAll {names : List String} {attempts : Nat → Attempt}
    (h : (installAll env attempts secrets cr names).Finished) :
    ∀ n ∈ names, ∃ a ∈ (installAll env attempts secrets cr names).applied,
      findClusterClient n secrets = some a.client := by
  induction names generalizing attempts with
  | nil => exact fun n hn => nomatch hn
  | cons n names ih =>
    unfold installAll at h ⊢
    rcases install_cases env (attempts 0) secrets cr n with
      ⟨client, hclient, hinstall⟩ | ⟨out, hinstall, hnot, -⟩
    · simp only [hinstall] at h ⊢
      intro n' hn'
      rcases List.mem_cons.mp hn' with rfl | hn'
      · exact ⟨_, List.mem_cons_self, hclient⟩
      · obtain ⟨a, ha, hclient'⟩ := ih h n' hn'
        exact ⟨a, List.mem_cons_of_mem _ ha, hclient'⟩
    · simp only [hinstall] at h
      exact absurd h hnot

/-- Where everything works `Apply` is called for every cluster up to the first without a client. -/
theorem applied_working {names : List String} :
    ∀ n ∈ names.takeWhile (found secrets),
      ∃ a ∈ (installAll working (fun _ => {}) secrets cr names).applied,
        findClusterClient n secrets = some a.client := by
  induction names with
  | nil => exact fun n hn => nomatch hn
  | cons n names ih =>
    intro n' hn'
    cases hclient : findClusterClient n secrets with
    | none =>
      rw [List.takeWhile_cons_of_neg (by rw [found, hclient]; exact Bool.false_ne_true)] at hn'
      cases hn'
    | some client =>
      rw [List.takeWhile_cons_of_pos (by rw [found, hclient]; rfl)] at hn'
      unfold installAll
      simp only [install_working hclient]
      rcases List.mem_cons.mp hn' with rfl | hn'
      · exact ⟨_, List.mem_cons_self, hclient⟩
      · obtain ⟨a, ha, hclient'⟩ := ih n' hn'
        exact ⟨a, List.mem_cons_of_mem _ ha, hclient'⟩

theorem finished_working {names : List String} (h : ∀ n ∈ names, found secrets n = true) :
    (installAll working (fun _ => {}) secrets cr names).Finished := by
  induction names with
  | nil => exact ⟨rfl, rfl⟩
  | cons n names ih =>
    obtain ⟨client, hclient⟩ := Option.isSome_iff_exists.mp (h n List.mem_cons_self)
    unfold installAll
    simp only [install_working hclient]
    exact ih fun n' hn' => h n' (List.mem_cons_of_mem _ hn')

end Install

/-- Every Reconcile of a Secret calls `Apply` only for clusters that it lists, and has done so for all
of them when it is finished. -/
def ReachesNamed (secrets : List Secret) (cr : Secret) : Prop :=
  ∀ (env : Env) (call : SecretCall), call.req = cr.key → call.get = none →
    (∀ a ∈ (reconcileSecret env call secrets).applied,
      a.client.getClusterName ∈ clusterNames cr) ∧
    ((reconcileSecret env call secrets).Finished → ∀ n ∈ clusterNames cr,
      ∃ a ∈ (reconcileSecret env call secrets).applied, a.client.getClusterName = n)

/-- The clients that are used have listed names; and where there is a client for every listed cluster,
each of their kubeconfigs leads. -/
structure Distinguished (secrets : List Secret) (names : List String) : Prop where
  listed : ∀ n ∈ names.takeWhile (found secrets), ∀ client,
    findClusterClient n secrets = some client → client.getClusterName ∈ names
  leads : (∀ n ∈ names, found secrets n = true) → ∀ n ∈ names, Leads n secrets

section Reach

variable {secrets : List Secret} {cr : Secret}

theorem reconcileSecret_eq (hget : Keyed.lookup Secret.key cr.key secrets = some cr)
    (hpresent : cr.deleting = false) (hremote : isRemote cr = true) {env : Env} {call : SecretCall}
    (hreq : call.req = cr.key) (hcall : call.get = none) :
    reconcileSecret env call secrets =
      installAll env call.attempts secrets cr (clusterNames cr) := by
  simp only [reconcileSecret, hcall, hreq, hget, hpresent, hremote, Bool.false_eq_true, if_false,
    if_true]

theorem reachesNamed_iff (hget : Keyed.lookup Secret.key cr.key secrets = some cr)
    (hpresent : cr.deleting = false) (hremote : isRemote cr = true) :
    ReachesNamed secrets cr ↔ Distinguished secrets (clusterNames cr) := by
  constructor
  · intro h
    have hworks := h working { req := cr.key } rfl rfl
    rw [reconcileSecret_eq hget hpresent hremote rfl rfl] at hworks
    refine ⟨fun n hn client hclient => ?_, fun hall => ?_⟩
    · obtain ⟨a, ha, hclient'⟩ := applied_working n hn
      rw [hclient] at hclient'
      rw [Option.some.inj hclient']
      exact hworks.1 a ha
    · have hcover : ∀ n, n ∈ clusterNames cr → ∃ n', n' ∈ clusterNames cr ∧
          ∃ secret, secrets.find? (hit n') = some secret ∧ clusterOf secret = n := by
        intro n hn
        obtain ⟨a, ha, hname⟩ := hworks.2 (finished_working hall) n hn
        obtain ⟨n', hn', hclient⟩ := applied_installAll ha
        rw [findClusterClient_eq] at hclient
        obtain ⟨secret, hsecret, hmk⟩ := Option.map_eq_some_iff.mp hclient
        refine ⟨n', List.takeWhile_subset _ hn', secret, hsecret, ?_⟩
        rw [← hname, ← hmk]
        rfl
      exact fun n hn => Search.find_exact_iff.mp (Search.exact_of_covered hit_clusterOf hcover n hn)
  · intro h env call hreq hcall
    rw [reconcileSecret_eq hget hpresent hremote hreq hcall]
    refine ⟨fun a ha => ?_, fun hfinished n hn => ?_⟩
    · obtain ⟨n, hn, hclient⟩ := applied_installAll ha
      exact h.listed n hn a.client hclient
    · have hall : ∀ n ∈ clusterNames cr, found secrets n = true := by
        intro n hn
        obtain ⟨a, -, hclient⟩ := finished_installAll hfinished n hn
        rw [found, hclient]
        rfl
      obtain ⟨a, ha, hclient⟩ := finished_installAll hfinished n hn
      exact ⟨a, ha, exact_iff_leads.mpr (h.leads hall n hn) a.client hclient⟩

end Reach

/-! ## The bootstrap-packages reconciler -/

theorem client_of_applyAll {apply : Nat → Option ApiError} {client : Capi}
    {resources : List Manifest} {a : Application Manifest}
    (h : a ∈ (applyAll apply client resources).applied) : a.client = client := by
  induction resources generalizing apply with
  | nil => cases h
  | cons resource resources ih =>
    unfold applyAll at h
    cases hreply : apply 0 with
    | some err =>
      simp only [hreply] at h
      rw [List.mem_singleton.mp h]
    | none =>
      simp only [hreply] at h
      rcases List.mem_cons.mp h with rfl | h
      · rfl
      · exact ih h

theorem applied_installPackage {env : Env} {call : PackageCall} {secrets : List Secret}
    {resources : List Manifest} {a : Application Manifest}
    (h : a ∈ (installPackage env call secrets resources).applied) :
    ∃ first rest clusterName, resources = first :: rest ∧
      first.annotations.get? clusterNameKey = some clusterName ∧
      getClusterClientFor call.listSecrets secrets clusterName = .ok (some a.client) := by
  unfold installPackage at h
  split at h
  next => cases h
  next first rest =>
    split at h
    next => cases h
    next clusterName hname =>
      split at h
      next => cases h
      next => cases h
      next client hclient =>
        split at h
        next => cases h
        next => cases h
        next => exact ⟨first, rest, clusterName, rfl, hname, client_of_applyAll h ▸ hclient⟩

/-- **Resources are installed** through the client for the cluster that the first of them names. -/
theorem applied_reconcilePackage {env : Env} {read : String → Except String (List Node)}
    {call : PackageCall} {w : Packages} {a : Application Manifest}
    (h : a ∈ (reconcilePackage env read call w).applied) :
    ∃ first resources clusterName, getPrResources read call w = .ok (first :: resources) ∧
      first.annotations.get? clusterNameKey = some clusterName ∧
      getClusterClientFor call.listSecrets w.secrets clusterName = .ok (some a.client) := by
  unfold reconcilePackage at h
  split at h
  next => cases h
  next =>
    split at h
    next => cases h
    next cr hget =>
      split at h
      next => cases h
      next =>
        split_ifs at h
        · split at h
          next => cases h
          next resources hresources =>
            obtain ⟨first, rest, clusterName, rfl, hname, hclient⟩ := applied_installPackage h
            exact ⟨first, rest, clusterName, hresources, hname, hclient⟩
        · cases h

/-- **Only the named cluster.** A Secret to be installed reaches the clusters that it lists, and only
them, exactly where their kubeconfigs can be told from the others by the order of the list; and the
client that a package is installed with is that of its cluster exactly where the kubeconfig of the
cluster leads all whose names contain the name of the cluster. -/
theorem named_clusters_iff (secrets : List Secret) (cr : Secret)
    (hget : Keyed.lookup Secret.key cr.key secrets = some cr) (hpresent : cr.deleting = false)
    (hremote : isRemote cr = true) :
    (ReachesNamed secrets cr ↔ Distinguished secrets (clusterNames cr)) ∧
      ∀ clusterName, (∀ list client,
        getClusterClientFor list secrets clusterName = .ok (some client) →
          client.getClusterName = clusterName) ↔ Leads clusterName secrets := by
  refine ⟨reachesNamed_iff hget hpresent hremote, fun clusterName => ?_⟩
  rw [← exact_iff_leads]
  constructor
  · intro h client hclient
    exact h none client (congrArg Except.ok hclient)
  · intro h list client hclient
    cases list with
    | some err => cases hclient
    | none => exact h client (Except.ok.inj hclient)

/-! ### Two clusters whose names begin alike -/

def kubeconfig (name : String) : Secret where
  key := ⟨"default", name ++ "-kubeconfig"⟩
  type := "cluster.x-k8s.io/secret"

/-- A Secret to be installed on one cluster. -/
def credentials : Secret where
  key := ⟨"default", "credentials"⟩
  annotations := [(nephioAppKey, syncApp), (clusterNameKey, "edge1")]

/-- With the kubeconfig of the cluster first, the Secret reaches it. -/
theorem edge1_reached :
    ReachesNamed [kubeconfig "edge1", kubeconfig "edge10", credentials] credentials := by
  have hclient : findClusterClient "edge1" [kubeconfig "edge1", kubeconfig "edge10", credentials] =
      some ⟨kubeconfig "edge1"⟩ := by decide +kernel
  have hnames : clusterNames credentials = ["edge1"] := by decide +kernel
  refine (named_clusters_iff _ credentials (by decide +kernel) rfl (by decide +kernel)).1.mpr ?_
  rw [hnames]
  have hexact : ∀ n ∈ ["edge1"], ∀ client,
      findClusterClient n [kubeconfig "edge1", kubeconfig "edge10", credentials] = some client →
        client.getClusterName = n := by
    intro n hn client h
    rw [List.mem_singleton.mp hn] at h ⊢
    rw [hclient] at h
    rw [← Option.some.inj h]
    decide +kernel
  refine ⟨fun n hn client h => ?_, fun _ n hn => exact_iff_leads.mp (hexact n hn)⟩
  have hn := List.takeWhile_subset _ hn
  rw [hexact n hn client h]
  exact hn

/-- With that of another first, it is finished with the other cluster only. A package for the cluster
would go there, too. -/
theorem edge10_gets_edge1 :
    isRemote credentials = true ∧ clusterNames credentials = ["edge1"] ∧
      (reconcileSecret working { req := credentials.key }
        [kubeconfig "edge10", kubeconfig "edge1", credentials]).Finished ∧
      (reconcileSecret working { req := credentials.key }
        [kubeconfig "edge10", kubeconfig "edge1", credentials]).applied.map
          (fun a => a.client.getClusterName) = ["edge10"] ∧
      getClusterClientFor none [kubeconfig "edge10", kubeconfig "edge1", credentials] "edge1" =
        .ok (some ⟨kubeconfig "edge10"⟩) := by
  unfold Outcome.Finished
  refine ⟨by decide +kernel, by decide +kernel, ⟨by decide +kernel, by decide +kernel⟩,
    by decide +kernel, ?_⟩
  exact congrArg Except.ok (by decide +kernel)

end Nephio.Controllers.Bootstrap
