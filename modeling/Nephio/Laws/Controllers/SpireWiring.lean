import Nephio.Controllers.SpireReconciler
import Nephio.Laws.Controllers.ClusterList

/-!
# Laws.Controllers.SpireWiring: what the SPIRE server knows of the clusters

A Reconcile writes the kubeconfig of a cluster first, then the list of clusters, then the cluster
itself, and any of its calls may fail or its answer be lost. In every state that some Reconciles
lead to, a cluster on the list has its kubeconfig, and only clusters on the list have been
configured (`spire_wired`). A kubeconfig is one that some Secret leads to whose name contains that of the
cluster; that need not be the Secret of the cluster (`edge_wired_to_edge1`).
-/

namespace Nephio.Controllers.SpireBootstrap

open Bootstrap (Secret Capi getClusterClient)

theorem kubeconfigKey_injective {name name' : String}
    (h : kubeconfigKey name = kubeconfigKey name') : name = name' := by
  have htoList := congrArg String.toList h
  simp only [kubeconfigKey, String.toList_append, List.append_cancel_left_eq] at htoList
  exact String.toList_inj.mp htoList

/-- The entry of a cluster in `kubeconfigs`. -/
def kubeconfigOf (w : World) (name : String) : Option String :=
  (Keyed.lookup Prod.fst (kubeconfigKey name) w.kubeconfigs).map Prod.snd

/-- The list of clusters has some names, each of them has a kubeconfig, only they have been
configured, and every kubeconfig has a property. -/
structure Wired (P : String → String → Prop) (names : List String) (w : World) : Prop where
  lists : Lists names w.clusters
  valid : ∀ name ∈ names, isDNS1123Subdomain name = true
  kubeconfigs : ∀ name ∈ names, (kubeconfigOf w name).isSome
  applied : ∀ a ∈ w.applied, a.clusterName ∈ names
  sources : ∀ name text, kubeconfigOf w name = some text → P name text

theorem kubeconfigOf_upsert (w : World) (name text other : String) :
    kubeconfigOf { w with
        kubeconfigs := Keyed.upsert Prod.fst (kubeconfigKey name, text) w.kubeconfigs } other =
      if name = other then some text else kubeconfigOf w other := by
  unfold kubeconfigOf
  rw [Keyed.lookup_upsert]
  by_cases hname : name = other
  · rw [if_pos hname, if_pos (congrArg kubeconfigKey hname)]
    rfl
  · rw [if_neg hname, if_neg fun h => hname (kubeconfigKey_injective h)]

section Steps

variable {P : String → String → Prop} {names : List String} {w : World} (hw : Wired P names w)

include hw

/-- A kubeconfig is written. -/
theorem Wired.putKubeconfig {name text : String} (hP : P name text) :
    Wired P names { w with
      kubeconfigs := Keyed.upsert Prod.fst (kubeconfigKey name, text) w.kubeconfigs } where
  lists := hw.lists
  valid := hw.valid
  kubeconfigs other hother := by
    rw [kubeconfigOf_upsert]
    split_ifs
    · rfl
    · exact hw.kubeconfigs other hother
  applied := hw.applied
  sources other text' h := by
    rw [kubeconfigOf_upsert] at h
    split_ifs at h with hname
    · rw [← hname, ← Option.some.inj h]
      exact hP
    · exact hw.sources other text' h

/-- A cluster that has its kubeconfig is listed. -/
theorem Wired.list {call : Call} (hname : isDNS1123Subdomain call.clusterName = true)
    (hkubeconfig : (kubeconfigOf w call.clusterName).isSome) {clusters : Data}
    (h : updateClusterListConfigMap w.clusters call = .ok clusters) :
    Wired P (Loops.addFirst id names call.clusterName) { w with clusters := clusters } := by
  obtain ⟨hlists, hvalid⟩ := hw.lists.addFirst hw.valid hname h
  refine ⟨hlists, hvalid, fun other hother => ?_, fun a ha => ?_, hw.sources⟩
  · rcases Loops.mem_addFirst_iff.mp hother with hother | ⟨-, rfl⟩
    · exact hw.kubeconfigs other hother
    · exact hkubeconfig
  · exact Loops.mem_addFirst_iff.mpr (Or.inl (hw.applied a ha))

/-- Only names of listed clusters are added to what has been applied. -/
theorem Wired.apply {a : Applied} (ha : a.clusterName ∈ names) :
    Wired P names { w with applied := w.applied ++ [a] } where
  lists := hw.lists
  valid := hw.valid
  kubeconfigs := hw.kubeconfigs
  applied b hb := by
    rcases List.mem_append.mp hb with hb | hb
    · exact hw.applied b hb
    · rwa [List.mem_singleton.mp hb]
  sources := hw.sources

omit hw in
theorem written_cases {reply : Reply} {I : World → Prop} {w' : World} (h : I w) (h' : I w') :
    I (written reply w w') := by
  unfold written
  split_ifs
  · exact h'
  · exact h

theorem Wired.applyConfigMap {reply : Reply} {a : Applied} {what : String}
    {next : World → World × Option Returned} (ha : a.clusterName ∈ names)
    (hnext : ∀ w, Wired P names w → Wired P names (next w).1) :
    Wired P names (applyConfigMap reply a what next w).1 := by
  unfold SpireBootstrap.applyConfigMap
  have hw' : Wired P names (written reply w { w with applied := w.applied ++ [a] }) :=
    written_cases hw (hw.apply ha)
  cases reply.error with
  | some err => exact hw'
  | none => exact hnext _ hw'

theorem Wired.applyAll {env : Env} {attempt : Attempt} {name server : String} {client : Capi}
    {bundle agent : ConfigMap} (hname : name ∈ names) :
    Wired P names (applyAll env attempt name server client bundle agent w).1 := by
  unfold SpireBootstrap.applyAll
  cases attempt.getNamespace with
  | some err =>
    simp only
    split_ifs <;> exact hw
  | none =>
    simp only
    split_ifs
    · exact hw
    · exact hw.applyConfigMap hname fun w hw => hw.applyConfigMap hname fun w hw => hw

end Steps

theorem of_createKubeconfigConfigMap {env : Env} {attempt : Attempt} {server name : String}
    {data data' : Data} (h : createKubeconfigConfigMap env attempt server name data = .ok data') :
    ∃ text, env.marshal (kubernetesConfig env name server) = .ok text ∧
      data' = Keyed.upsert Prod.fst (kubeconfigKey name, text) data := by
  unfold createKubeconfigConfigMap at h
  split at h <;> try cases h
  split at h
  · cases h
  · next text htext => exact ⟨text, htext, (Except.ok.inj h).symm⟩

theorem secret_of_getClusterClient {secret : Secret} {client : Capi}
    (h : getClusterClient secret = some client) : client.secret = secret := by
  unfold getClusterClient at h
  split_ifs at h
  cases h
  rfl

/-- The names after a Reconcile of a cluster: those before it, and perhaps its own. -/
def Extends (name : String) (names names' : List String) : Prop :=
  ∀ other ∈ names', other ∈ names ∨ other = name

theorem Extends.refl (name : String) (names : List String) : Extends name names names :=
  fun _ h => Or.inl h

theorem Extends.trans {name : String} {names₀ names₁ names₂ : List String}
    (h₁ : Extends name names₀ names₁) (h₂ : Extends name names₁ names₂) :
    Extends name names₀ names₂ :=
  fun other hother => (h₂ other hother).elim (h₁ other) Or.inr

section Reconcile

variable {P : String → String → Prop} {names : List String} {w : World} {name : String}
  (hname : isDNS1123Subdomain name = true)

include hname

/-- The list is updated, or its update fails, with or without an effect. -/
theorem Wired.updateList (hw : Wired P names w) (hkubeconfig : (kubeconfigOf w name).isSome)
    (attempt : Attempt) :
    ∃ names', Extends name names names' ∧ Wired P names' (updateList attempt name w).1 ∧
      ((updateList attempt name w).2 = none → name ∈ names') := by
  have hadd : Extends name names (Loops.addFirst id names name) := fun other hother =>
    (Loops.mem_addFirst_iff.mp hother).imp_right And.right
  have hmem : name ∈ Loops.addFirst id names name := by
    by_cases h : ∃ z ∈ names, z = name
    · obtain ⟨z, hz, rfl⟩ := h
      exact Loops.mem_addFirst_iff.mpr (Or.inl hz)
    · exact Loops.mem_addFirst_iff.mpr (Or.inr ⟨fun z hz heq => h ⟨z, hz, heq⟩, rfl⟩)
  unfold SpireBootstrap.updateList
  cases hlist : updateClusterListConfigMap w.clusters
      { clusterName := name, get := attempt.getList } with
  | error err =>
    refine ⟨names, .refl name names, ?_, fun h => ?_⟩
    · simp only [hlist]
      exact hw
    · simp only [hlist] at h
      cases h
  | ok clusters =>
    have hlisted := hw.list hname hkubeconfig hlist
    simp only [hlist]
    cases updateClusterListConfigMap w.clusters
        { clusterName := name, get := attempt.getList, update := attempt.updateList.error } with
    | ok _ => exact ⟨_, hadd, hlisted, fun _ => hmem⟩
    | error err =>
      simp only [written]
      split_ifs
      · exact ⟨_, hadd, hlisted, fun h => by cases h⟩
      · exact ⟨names, .refl name names, hw, fun h => by cases h⟩

theorem Wired.handleSecret (hw : Wired P names w) {env : Env} {attempt : Attempt}
    {bundle agent : ConfigMap} {client : Capi}
    (hP : ∀ server text, env.restConfig client.secret.value = .ok server →
      env.marshal (kubernetesConfig env name server) = .ok text → P name text) :
    ∃ names', Extends name names names' ∧
      Wired P names' (handleSecret env attempt name bundle agent client w).1 := by
  have hstay : ∃ names', Extends name names names' ∧ Wired P names' w :=
    ⟨names, .refl name names, hw⟩
  unfold SpireBootstrap.handleSecret
  cases client.getClusterClient env.toEnv attempt.toAttempt with
  | error err => exact hstay
  | ok ready =>
    cases ready with
    | none => exact hstay
    | some _ =>
      simp only
      cases hserver : env.restConfig client.secret.value with
      | error err => exact hstay
      | ok server =>
        simp only
        cases attempt.newClientset with
        | some err => exact hstay
        | none =>
          simp only
          cases hcreate : createKubeconfigConfigMap env attempt server name w.kubeconfigs with
          | error err => exact hstay
          | ok kubeconfigs =>
            obtain ⟨text, htext, rfl⟩ := of_createKubeconfigConfigMap hcreate
            have hput := hw.putKubeconfig (hP server text hserver htext)
            simp only
            cases hreply : attempt.updateKubeconfigs.error with
            | some err =>
              exact ⟨names, .refl name names, written_cases hw hput⟩
            | none =>
              simp only [written, Reply.applied_of_error hreply, if_true]
              obtain ⟨names', hextends, hw', hlisted⟩ := hput.updateList hname
                (by rw [kubeconfigOf_upsert, if_pos rfl]; rfl) attempt
              refine ⟨names', hextends, ?_⟩
              generalize SpireBootstrap.updateList attempt name _ = out at hw' hlisted ⊢
              obtain ⟨w', err⟩ := out
              cases err with
              | some err => exact hw'
              | none => exact hw'.applyAll (hlisted rfl)

/-- The loop over the Secrets. -/
theorem Wired.handleSecrets (hw : Wired P names w) {env : Env} {bundle agent : ConfigMap}
    {secrets : List Secret}
    (hP : ∀ secret ∈ secrets, Go.contains secret.key.name name →
      (getClusterClient secret).isSome → ∀ server text, env.restConfig secret.value = .ok server →
        env.marshal (kubernetesConfig env name server) = .ok text → P name text)
    (attempts : Nat → Attempt) :
    ∃ names', Extends name names names' ∧
      Wired P names' (handleSecrets env name bundle agent attempts secrets w).1 := by
  induction secrets generalizing names w attempts with
  | nil => exact ⟨names, .refl name names, hw⟩
  | cons secret secrets ih =>
    have hrest := fun {names w} (hw : Wired P names w) =>
      ih hw (fun s hs => hP s (List.mem_cons_of_mem _ hs)) fun i => attempts (i + 1)
    unfold SpireBootstrap.handleSecrets
    simp only
    split_ifs with hcontains
    · cases hclient : getClusterClient secret with
      | none => exact hrest hw
      | some client =>
        obtain rfl : client.secret = secret := secret_of_getClusterClient hclient
        have hstep : ∃ names₁, Extends name names names₁ ∧
            Wired P names₁
              (SpireBootstrap.handleSecret env (attempts 0) name bundle agent client w).1 :=
          hw.handleSecret hname fun server text => hP client.secret List.mem_cons_self hcontains
            (by rw [hclient]; rfl) server text
        obtain ⟨names₁, hextends₁, hw₁⟩ := hstep
        simp only
        generalize SpireBootstrap.handleSecret env (attempts 0) name bundle agent client w = out
          at hw₁ ⊢
        obtain ⟨w₁, returned⟩ := out
        cases returned with
        | some returned => exact ⟨names₁, hextends₁, hw₁⟩
        | none =>
          obtain ⟨names₂, hextends₂, hw₂⟩ := hrest hw₁
          exact ⟨names₂, hextends₁.trans hextends₂, hw₂⟩
    · exact hrest hw

end Reconcile

/-- Where the kubeconfig of a cluster can come from in a Reconcile: a Secret whose name contains
that of the cluster. -/
def LeadsTo (call : Reconciling) (name text : String) : Prop :=
  call.clusterName = name ∧ ∃ secret ∈ call.secrets, Go.contains secret.key.name name ∧
    (getClusterClient secret).isSome ∧ ∃ server, call.env.restConfig secret.value = .ok server ∧
      call.env.marshal (kubernetesConfig call.env name server) = .ok text

theorem Wired.reconcile {P : String → String → Prop} {names : List String} {w : World}
    (hw : Wired P names w) {call : Reconciling} (hname : isDNS1123Subdomain call.clusterName = true)
    (hP : ∀ name text, LeadsTo call name text → P name text) :
    ∃ names', Extends call.clusterName names names' ∧ Wired P names' (reconcile w call).1 := by
  have hstay : ∃ names', Extends call.clusterName names names' ∧ Wired P names' w :=
    ⟨names, .refl _ names, hw⟩
  unfold SpireBootstrap.reconcile
  split <;> try exact hstay
  exact hw.handleSecrets hname (fun secret hsecret hcontains hclient server text hserver htext =>
    hP _ _ ⟨rfl, secret, hsecret, hcontains, hclient, server, hserver, htext⟩) call.attempts

/-- A run of Reconciles. -/
theorem Wired.reconciles {P : String → String → Prop} {calls : List Reconciling}
    {names : List String} {w : World} (hw : Wired P names w)
    (hnames : ∀ call ∈ calls, isDNS1123Subdomain call.clusterName = true)
    (hP : ∀ call ∈ calls, ∀ name text, LeadsTo call name text → P name text) :
    ∃ names', (∀ name ∈ names', name ∈ names ∨ name ∈ calls.map Reconciling.clusterName) ∧
      Wired P names' (Runs.run (fun w call => (SpireBootstrap.reconcile w call).1) w calls) := by
  induction calls generalizing names w with
  | nil => exact ⟨names, fun _ h => Or.inl h, hw⟩
  | cons call calls ih =>
    obtain ⟨names₁, hextends₁, hw₁⟩ := hw.reconcile (hnames call List.mem_cons_self)
      (hP call List.mem_cons_self)
    obtain ⟨names₂, hextends₂, hw₂⟩ := ih hw₁ (fun c hc => hnames c (List.mem_cons_of_mem _ hc))
      fun c hc => hP c (List.mem_cons_of_mem _ hc)
    refine ⟨names₂, fun name hname => ?_, hw₂⟩
    rcases hextends₂ name hname with h | h
    · rcases hextends₁ name h with h | rfl
      · exact Or.inl h
      · exact Or.inr List.mem_cons_self
    · exact Or.inr (List.mem_cons_of_mem _ h)

/-- **The SPIRE server over any history.** From an empty list of clusters, for every sequence of
Reconciles, whatever they find, whichever of their calls fail and whichever answers are lost: the
list is well-formed and has only clusters that were reconciled, each of them has its kubeconfig, the
trust bundle and an agent's configuration have only been applied for clusters on the list, and a
kubeconfig was there at first or comes from a Secret whose name contains that of the cluster. -/
theorem spire_wired (calls : List Reconciling) (w : World)
    (habsent : Keyed.lookup Prod.fst clustersConfKey w.clusters = none) (hnone : w.applied = [])
    (hnames : ∀ call ∈ calls, isDNS1123Subdomain call.clusterName = true) :
    ∃ names, (∀ name ∈ names, name ∈ calls.map Reconciling.clusterName) ∧
      Wired (fun name text => kubeconfigOf w name = some text ∨ ∃ call ∈ calls, LeadsTo call name text)
        names (Runs.run (fun w call => (reconcile w call).1) w calls) := by
  have hstart : Wired (fun name text => kubeconfigOf w name = some text ∨
      ∃ call ∈ calls, LeadsTo call name text) [] w := by
    refine ⟨?_, fun _ h => absurd h List.not_mem_nil, fun _ h => absurd h List.not_mem_nil, ?_,
      fun name text h => Or.inl h⟩
    · unfold Lists
      rw [habsent]
    · rw [hnone]
      exact fun _ h => absurd h List.not_mem_nil
  obtain ⟨names, hmem, hw⟩ := hstart.reconciles hnames
    fun call hcall name text h => Or.inr ⟨call, hcall, h⟩
  exact ⟨names, fun name hname => (hmem name hname).resolve_left List.not_mem_nil, hw⟩

/-- Every cluster is ready, a kubeconfig is the name of its API server, and the token on it tells
which one it is. -/
def labelled : Env where
  cluster _ := some [⟨"Ready", "True"⟩]
  restConfig value := .ok value
  hasNamespace _ _ := true
  token server := "token of " ++ server
  caCert _ := ""
  url server := server
  encode s := s
  marshal config := .ok config.token

/-- Cluster `edge` is reconciled before its Secret is there, and the Secret of `edge-1` is. -/
def edgeCall : Reconciling where
  clusterName := "edge"
  env := labelled
  bundle := { key := ⟨"spire", "spire-bundle"⟩ }
  secrets := [{ key := ⟨"default", "edge-1-kubeconfig"⟩, type := "cluster.x-k8s.io/secret"
                value := "edge-1" }]

theorem edge_wired_to_edge1 :
    (∃ names, (∀ name ∈ names, name ∈ ["edge"]) ∧
      Wired (fun name text => kubeconfigOf {} name = some text ∨
        ∃ call ∈ [edgeCall], LeadsTo call name text) names
        (Runs.run (fun w call => (reconcile w call).1) {} [edgeCall])) ∧
      kubeconfigOf (Runs.run (fun w call => (reconcile w call).1) {} [edgeCall]) "edge" =
        some "token of edge-1" :=
  ⟨spire_wired [edgeCall] {} rfl rfl (by decide +kernel), by decide +kernel⟩

end Nephio.Controllers.SpireBootstrap
