import Nephio.Controllers.Focom

/-!
# Laws.Controllers.Focom: what a request leaves on a cloud

The operator finds the remote object of a request by the name in the status of the request, and this
name is written after the object was created. A request whose finalizer goes leaves no object exactly
where the status names every object that was created for it (`no_orphan_iff`). That is so as long as
every Reconcile that creates an object also gets its answer and writes the status.
-/

namespace Nephio.Controllers.Focom

variable {P : Type}

/-- What happens to the world: a Reconcile, what users do to requests, and what others do to the
objects of a cloud. -/
inductive Action (P : Type) where
  | reconcile (call : Call)
  | createRequest (key : ObjectKey) (named : key.name ≠ "") (spec : Spec) (finalizers : List String)
  | deleteRequest (key : ObjectKey)
  | createRemote (o : Remote P)
  | deleteRemote (cloud name : String)
  | setRemoteStatus (cloud name : String) (status : String × String)

/-- A request of a user. An API server numbers what is created, and a request with a finalizer is only
marked when it is deleted. -/
def World.createRequest (w : World P) (fpr : Request) : World P :=
  match w.get fpr.key with
  | some _ => w
  | none => { w.put { fpr with uid := w.nextUid } with nextUid := w.nextUid + 1 }

@[inherit_doc World.createRequest]
def World.deleteRequest (w : World P) (key : ObjectKey) : World P :=
  match w.get key with
  | none => w
  | some fpr => if fpr.finalizers.isEmpty then w.remove key else w.put { fpr with deleting := true }

def step (env : Env P) (w : World P) : Action P → World P
  | .reconcile call => (reconcile env call w).world
  | .createRequest key named spec finalizers =>
    w.createRequest { key := key, uid := 0, finalizers := finalizers, spec := spec, named := named }
  | .deleteRequest key => w.deleteRequest key
  | .createRemote o => (w.createRemote .done { o with creator := none }).2
  | .deleteRemote cloud name => (w.deleteRemote .done cloud name).2
  | .setRemoteStatus cloud name status =>
    { w with remotes := w.remotes.map fun o =>
        if o.key = (cloud, name) then { o with provisioningStatus := some status } else o }

/-- The cloud of a spec. -/
def Env.cloud (env : Env P) (spec : Spec) : Except String String :=
  buildRemoteClient env { req := ⟨"", ""⟩ } spec

/-- The status of a request names every object that was created for it. -/
def Linked (w : World P) (r : Request) : Prop :=
  ∀ o ∈ w.remotes, o.creator = some r.uid → r.status.remoteName = o.name

/-- A Reconcile takes the finalizer from a request. -/
def Releases (env : Env P) (call : Call) (w : World P) (r : Request) : Prop :=
  containsFinalizer r = true ∧
    ∀ r', (reconcile env call w).world.get call.req = some r' → containsFinalizer r' = false

/-- A Reconcile that creates an object gets the answer and writes the status. -/
def Records (env : Env P) (e : World P × Action P) : Prop :=
  ∀ call, e.2 = .reconcile call → (∃ o ∈ (step env e.1 e.2).remotes, o ∉ e.1.remotes) →
    call.createRemote = .done ∧ call.updateStatus.applied = true

/-! ## What a step does -/

/-- What a step does that creates no object for a request: requests keep their identity and, once it
is set, the remote name, and a new one is numbered afresh. -/
structure Quiet (w w' : World P) : Prop where
  next : w.nextUid ≤ w'.nextUid
  requests : ∀ r' ∈ w'.requests,
    (∃ r ∈ w.requests, r'.key = r.key ∧ r'.uid = r.uid ∧ r'.spec = r.spec ∧
      (r.status.remoteName ≠ "" → r'.status.remoteName = r.status.remoteName)) ∨
    r'.uid = w.nextUid ∧ w.nextUid < w'.nextUid ∧
      ∀ r'' ∈ w'.requests, r''.uid = w.nextUid → r'' = r'
  remotes : ∀ o' ∈ w'.remotes,
    (∃ o ∈ w.remotes, o'.key = o.key ∧ o'.creator = o.creator) ∨ o'.creator = none

section Server

variable {w : World P} {fpr : Request}

theorem key_of_get {key : ObjectKey} (h : w.get key = some fpr) : fpr.key = key :=
  Keyed.key_of_lookup Request.key h

theorem mem_of_get {key : ObjectKey} (h : w.get key = some fpr) : fpr ∈ w.requests :=
  Keyed.mem_of_lookup Request.key h

theorem get_put (fpr : Request) : (w.put fpr).get fpr.key = some fpr := by
  show Keyed.lookup Request.key fpr.key (Keyed.upsert Request.key fpr w.requests) = _
  rw [Keyed.lookup_upsert, if_pos rfl]

theorem mem_put {r : Request} (h : r ∈ (w.put fpr).requests) : r = fpr ∨ r ∈ w.requests :=
  Keyed.mem_of_mem_upsert Request.key h

theorem mem_remove {r : Request} {key : ObjectKey} (h : r ∈ (w.remove key).requests) :
    r ∈ w.requests := List.mem_of_mem_filter h

/-- An update of the status, of a request that the server has. -/
theorem updateStatus_eq (hget : w.get fpr.key = some fpr) (reply : Reply) (status : Status) :
    (w.updateStatus reply { fpr with status := status }).2 =
      if reply.applied then w.put { fpr with status := status } else w := by
  have hget' : w.get ({ fpr with status := status } : Request).key = some fpr := hget
  unfold World.updateStatus
  rw [hget']

theorem fail_eq (call : Call) (hget : w.get fpr.key = some fpr) (msg : String) :
    ∃ status : Status, status.remoteName = fpr.status.remoteName ∧
      (fail call fpr msg w = w ∨ fail call fpr msg w = w.put { fpr with status := status }) := by
  refine ⟨{ fpr.status with phase := "failed", message := msg, lastUpdated := some call.now }, rfl, ?_⟩
  have heq := @updateStatus_eq P w fpr hget call.updateStatus
    { fpr.status with phase := "failed", message := msg, lastUpdated := some call.now }
  cases happlied : call.updateStatus.applied with
  | false =>
    rw [happlied] at heq
    exact Or.inl heq
  | true =>
    rw [happlied] at heq
    exact Or.inr heq

/-- On success the cloud is that of the spec, whatever calls might have failed. -/
theorem cloud_of_build {env : Env P} {call : Call} {spec : Spec} {cloud : String}
    (h : buildRemoteClient env call spec = .ok cloud) : env.cloud spec = .ok cloud := by
  unfold buildRemoteClient at h
  split at h
  next => cases h
  next =>
    split at h
    next => cases h
    next secretRef hcloud =>
      simp only at h
      by_cases hempty : secretRef.name = "" ∨ secretRef.namespace = ""
      · rw [if_pos hempty] at h
        cases h
      rw [if_neg hempty] at h
      split at h
      next => cases h
      next => cases h
      next kubeconfig _ hconfig =>
        by_cases hmissing : kubeconfig = ""
        · rw [if_pos hmissing] at h
          cases h
        rw [if_neg hmissing] at h
        split at h
        next => cases h
        next cloud' hparse =>
          split at h
          next => cases h
          next =>
            unfold Env.cloud buildRemoteClient
            simp only [hcloud, if_neg hempty, hconfig, if_neg hmissing, hparse]
            exact h

end Server

section Quiet

variable {w w' : World P}

theorem quiet_refl (w : World P) : Quiet w w where
  next := le_refl _
  requests r' hr' := Or.inl ⟨r', hr', rfl, rfl, rfl, fun _ => rfl⟩
  remotes o' ho' := Or.inl ⟨o', ho', rfl, rfl⟩

theorem quiet_put {fpr : Request} (hget : w.get fpr.key = some fpr) {fpr' : Request}
    (hkey : fpr'.key = fpr.key) (huid : fpr'.uid = fpr.uid) (hspec : fpr'.spec = fpr.spec)
    (hname : fpr.status.remoteName ≠ "" → fpr'.status.remoteName = fpr.status.remoteName) :
    Quiet w (w.put fpr') where
  next := le_refl _
  requests r' hr' := by
    left
    rcases mem_put hr' with rfl | hr'
    · exact ⟨fpr, mem_of_get hget, hkey, huid, hspec, hname⟩
    · exact ⟨r', hr', rfl, rfl, rfl, fun _ => rfl⟩
  remotes o' ho' := Or.inl ⟨o', ho', rfl, rfl⟩

theorem quiet_remove (w : World P) (key : ObjectKey) : Quiet w (w.remove key) where
  next := le_refl _
  requests r' hr' := Or.inl ⟨r', mem_remove hr', rfl, rfl, rfl, fun _ => rfl⟩
  remotes o' ho' := Or.inl ⟨o', ho', rfl, rfl⟩

/-- Objects may go before the step. -/
theorem Quiet.of_sublist {w₁ : World P} (h : Quiet w₁ w') (hrequests : w₁.requests = w.requests)
    (hnext : w₁.nextUid = w.nextUid) (hremotes : ∀ o ∈ w₁.remotes, o ∈ w.remotes) : Quiet w w' where
  next := hnext ▸ h.next
  requests := by
    rw [← hrequests, ← hnext]
    exact h.requests
  remotes o' ho' := by
    rcases h.remotes o' ho' with ⟨o, ho, hsame⟩ | hnone
    · exact Or.inl ⟨o, hremotes o ho, hsame⟩
    · exact Or.inr hnone

end Quiet

/-! ## What a Reconcile does -/

/-- The world with one more object. -/
def World.addRemote (w : World P) (o : Remote P) : World P := { w with remotes := w.remotes ++ [o] }

/-- A Reconcile of a request that is not being deleted: at most the status changes, and the remote
name stays. -/
def Reports (w w' : World P) (fpr : Request) : Prop :=
  ∃ status : Status, status.remoteName = fpr.status.remoteName ∧
    (w' = w ∨ w' = w.put { fpr with status := status })

/-- A Reconcile that creates the object of a request: the status names it where the answer came and
the status was written. -/
def Creates (env : Env P) (call : Call) (w w' : World P) (fpr : Request) : Prop :=
  fpr.status.remoteName = "" ∧ ∃ o : Remote P,
    o.creator = some fpr.uid ∧ env.cloud fpr.spec = .ok o.cloud ∧
    w.getRemote o.cloud o.name = none ∧ ∃ status : Status,
      (w' = w.addRemote o ∨ w' = (w.addRemote o).put { fpr with status := status }) ∧
      (call.createRemote = .done → call.updateStatus.applied = true →
        status.remoteName = o.name ∧ w' = (w.addRemote o).put { fpr with status := status })

section Reconcile

variable {env : Env P} {call : Call} {w : World P} {fpr : Request}

theorem createRemote_cases (w : World P) (reply : Reply) (o : Remote P) :
    (∃ err, w.createRemote reply o = (some err, w)) ∨
      w.getRemote o.cloud o.name = none ∧
        ((∃ err, reply = .lost err ∧ w.createRemote reply o = (some err, w.addRemote o)) ∨
          reply = .done ∧ w.createRemote reply o = (none, w.addRemote o)) := by
  unfold World.createRemote
  cases w.getRemote o.cloud o.name with
  | some o' => exact Or.inl ⟨_, rfl⟩
  | none =>
    cases reply with
    | refused err => exact Or.inl ⟨err, rfl⟩
    | lost err => exact Or.inr ⟨rfl, Or.inl ⟨err, rfl, rfl⟩⟩
    | done => exact Or.inr ⟨rfl, Or.inr ⟨rfl, rfl⟩⟩

theorem reports_fail (hget : w.get fpr.key = some fpr) (msg : String) :
    Reports w (fail call fpr msg w) fpr := fail_eq call hget msg

theorem ensure_cases {cloud : String} (hget : w.get fpr.key = some fpr)
    (hcloud : env.cloud fpr.spec = .ok cloud) :
    Reports w (ensureRemoteResource env call cloud fpr w).world fpr ∨
      Creates env call w (ensureRemoteResource env call cloud fpr w).world fpr := by
  unfold ensureRemoteResource
  by_cases hname : fpr.status.remoteName = ""
  · rw [if_pos hname]
    unfold createRemoteProvisioningRequest
    cases decodeRawParameters env fpr.spec.templateParameters with
    | error err => exact Or.inl (reports_fail hget _)
    | ok parameters =>
      have hget' : (w.addRemote (remoteObj call cloud fpr parameters)).get fpr.key = some fpr := hget
      simp only
      rcases createRemote_cases w call.createRemote (remoteObj call cloud fpr parameters) with
        ⟨err, hcreate⟩ | ⟨habsent, ⟨err, hreply, hcreate⟩ | ⟨hreply, hcreate⟩⟩
      · simp only [hcreate]
        exact Or.inl (reports_fail hget _)
      · simp only [hcreate]
        obtain ⟨status, -, hfail⟩ := fail_eq call hget' err.msg
        refine Or.inr ⟨hname, _, rfl, hcloud, habsent, status, hfail, fun hdone => ?_⟩
        rw [hreply] at hdone
        cases hdone
      · simp only [hcreate]
        have hupdated := updateStatus_eq hget' call.updateStatus
          { fpr.status with
            remoteName := remoteName call fpr
            phase := "provisioning"
            message := "Remote CR created, waiting for fulfillment"
            lastUpdated := some call.now }
        refine Or.inr ⟨hname, _, rfl, hcloud, habsent, _, ?_, fun _ happlied =>
          ⟨rfl, hupdated.trans (if_pos happlied)⟩⟩
        by_cases happlied : call.updateStatus.applied = true
        · exact Or.inr (hupdated.trans (if_pos happlied))
        · exact Or.inl (hupdated.trans (if_neg happlied))
  · rw [if_neg hname]
    left
    cases pollRemoteProvisioningRequest call cloud fpr w with
    | error err => exact reports_fail hget _
    | ok answer =>
      obtain ⟨done, phase, msg⟩ := answer
      have hupdated := updateStatus_eq hget call.updateStatus
        { fpr.status with phase := phase, message := msg, lastUpdated := some call.now }
      refine ⟨{ fpr.status with phase := phase, message := msg, lastUpdated := some call.now },
        rfl, ?_⟩
      by_cases happlied : call.updateStatus.applied = true
      · exact Or.inr (hupdated.trans (if_pos happlied))
      · exact Or.inl (hupdated.trans (if_neg happlied))

/-- A Reconcile of a request with the finalizer that is not being deleted. -/
theorem reconcile_present (hget : w.get call.req = some fpr) (hdeleting : fpr.deleting = false)
    (hfinalizer : containsFinalizer fpr = true) :
    Reports w (reconcile env call w).world fpr ∨
      Creates env call w (reconcile env call w).world fpr := by
  have hkey := key_of_get hget
  have hget' : w.get fpr.key = some fpr := hkey ▸ hget
  unfold reconcile
  cases call.get with
  | some err => exact Or.inl ⟨fpr.status, rfl, Or.inl rfl⟩
  | none =>
    simp only [hget, hdeleting, hfinalizer, Bool.not_true, Bool.false_eq_true, if_false]
    cases validateTemplateAlignment env call fpr with
    | some err => exact Or.inl (reports_fail hget' _)
    | none =>
      cases hbuild : buildRemoteClient env call fpr.spec with
      | error err => exact Or.inl (reports_fail hget' _)
      | ok cloud => exact ensure_cases hget' (cloud_of_build hbuild)

theorem update_eq (hget : w.get fpr.key = some fpr) (reply : Reply) (finalizers : List String) :
    (w.update reply { fpr with finalizers := finalizers }).2 =
      if reply.applied then
        if fpr.deleting && finalizers.isEmpty then w.remove fpr.key
        else w.put { fpr with finalizers := finalizers }
      else w := by
  have hget' : w.get ({ fpr with finalizers := finalizers } : Request).key = some fpr := hget
  unfold World.update
  rw [hget']

theorem remotes_update (w : World P) (reply : Reply) (fpr : Request) :
    (w.update reply fpr).2.remotes = w.remotes := by
  unfold World.update
  split
  · rfl
  · simp only
    split_ifs <;> rfl

theorem deleteRemote_world (w : World P) (reply : Reply) (cloud name : String) :
    (w.deleteRemote reply cloud name).2 = w ∨
      (w.deleteRemote reply cloud name).2 =
        { w with remotes := Keyed.drop Remote.key (cloud, name) w.remotes } := by
  unfold World.deleteRemote
  cases w.getRemote cloud name with
  | none => exact Or.inl rfl
  | some o =>
    cases reply with
    | refused err => exact Or.inl rfl
    | lost err => exact Or.inr rfl
    | done => exact Or.inr rfl

/-- An object that is gone for the caller is gone. -/
theorem remotes_of_deleteRemote {cloud name : String}
    (h : ∀ err, (w.deleteRemote call.deleteRemote cloud name).1 = some err →
      err.isNotFound = true) :
    (w.deleteRemote call.deleteRemote cloud name).2.remotes =
      Keyed.drop Remote.key (cloud, name) w.remotes := by
  have hhonest := call.honest
  unfold World.deleteRemote at h ⊢
  cases hget : w.getRemote cloud name with
  | none => exact (Keyed.drop_of_lookup_none Remote.key hget).symm
  | some o =>
    rw [hget] at h
    cases hreply : call.deleteRemote with
    | done => rfl
    | lost err => rfl
    | refused err =>
      rw [hreply] at h hhonest
      have hnot := h err rfl
      rw [Reply.honest, hnot] at hhonest
      cases hhonest

/-- What `deleteRemoteResource` does to the world. -/
theorem deleteRemoteResource_frame (env : Env P) (call : Call) (fpr : Request) (w : World P) :
    (deleteRemoteResource env call fpr w).2.requests = w.requests ∧
      (deleteRemoteResource env call fpr w).2.nextUid = w.nextUid ∧
      ∀ o ∈ (deleteRemoteResource env call fpr w).2.remotes, o ∈ w.remotes := by
  unfold deleteRemoteResource
  split_ifs
  · exact ⟨rfl, rfl, fun _ ho => ho⟩
  · cases buildRemoteClient env call fpr.spec with
    | error err => exact ⟨rfl, rfl, fun _ ho => ho⟩
    | ok cloud =>
      simp only
      rcases deleteRemote_world w call.deleteRemote cloud fpr.status.remoteName with h | h
      · rw [h]
        exact ⟨rfl, rfl, fun _ ho => ho⟩
      · rw [h]
        exact ⟨rfl, rfl, fun _ ho => List.mem_of_mem_filter ho⟩

/-- Where it succeeds the object that the status names is gone. -/
theorem remotes_deleteRemoteResource (h : (deleteRemoteResource env call fpr w).1 = none) :
    (fpr.status.remoteName = "" ∧ (deleteRemoteResource env call fpr w).2.remotes = w.remotes) ∨
      fpr.status.remoteName ≠ "" ∧ ∃ cloud, env.cloud fpr.spec = .ok cloud ∧
        (deleteRemoteResource env call fpr w).2.remotes =
          Keyed.drop Remote.key (cloud, fpr.status.remoteName) w.remotes := by
  unfold deleteRemoteResource at h ⊢
  by_cases hname : fpr.status.remoteName = ""
  · rw [if_pos hname]
    exact Or.inl ⟨hname, rfl⟩
  · rw [if_neg hname] at h ⊢
    cases hbuild : buildRemoteClient env call fpr.spec with
    | error err =>
      rw [hbuild] at h
      cases h
    | ok cloud =>
      simp only [hbuild] at h ⊢
      refine Or.inr ⟨hname, cloud, cloud_of_build hbuild, remotes_of_deleteRemote fun err herr => ?_⟩
      rw [herr] at h
      simp only [ite_eq_left_iff, reduceCtorEq, imp_false, Bool.not_eq_true,
        Bool.not_eq_false] at h
      exact h

/-- An update of the finalizers. -/
theorem quiet_update (hget : w.get fpr.key = some fpr) (reply : Reply) (finalizers : List String) :
    Quiet w (w.update reply { fpr with finalizers := finalizers }).2 := by
  rw [update_eq hget]
  split_ifs
  · exact quiet_remove _ _
  · exact quiet_put hget rfl rfl rfl fun _ => rfl
  · exact quiet_refl w

theorem quiet_handleDeletion (hget : w.get fpr.key = some fpr) :
    Quiet w (handleDeletion env call fpr w).world := by
  obtain ⟨hrequests, hnext, hremotes⟩ := deleteRemoteResource_frame env call fpr w
  have hget' : (deleteRemoteResource env call fpr w).2.get fpr.key = some fpr := by
    rw [World.get, hrequests]
    exact hget
  unfold handleDeletion
  split_ifs
  · simp only
    cases (deleteRemoteResource env call fpr w).1 with
    | some err => exact (quiet_refl _).of_sublist hrequests hnext hremotes
    | none => exact (quiet_update hget' _ _).of_sublist hrequests hnext hremotes
  · exact quiet_refl w

theorem quiet_of_reports {w' : World P} (hget : w.get fpr.key = some fpr)
    (h : Reports w w' fpr) : Quiet w w' := by
  obtain ⟨status, hname, rfl | rfl⟩ := h
  · exact quiet_refl _
  · exact quiet_put hget rfl rfl rfl fun _ => hname

/-- **One Reconcile** creates no object, or the one of its request. -/
theorem reconcile_cases (env : Env P) (call : Call) (w : World P) :
    Quiet w (reconcile env call w).world ∨
      ∃ fpr, w.get fpr.key = some fpr ∧ Creates env call w (reconcile env call w).world fpr := by
  cases hreq : w.get call.req with
  | none =>
    left
    unfold reconcile
    rw [hreq]
    cases call.get <;> exact quiet_refl _
  | some fpr =>
    have hget : w.get fpr.key = some fpr := key_of_get hreq ▸ hreq
    cases hdeleting : fpr.deleting with
    | true =>
      left
      unfold reconcile
      simp only [hreq, hdeleting, if_true]
      cases call.get with
      | some err => exact quiet_refl _
      | none => exact quiet_handleDeletion hget
    | false =>
      cases hfinalizer : containsFinalizer fpr with
      | true =>
        rcases @reconcile_present P env call w fpr hreq hdeleting hfinalizer with h | h
        · exact Or.inl (quiet_of_reports hget h)
        · exact Or.inr ⟨fpr, hget, h⟩
      | false =>
        left
        unfold reconcile
        simp only [hreq, hdeleting, hfinalizer, Bool.false_eq_true, if_false, Bool.not_false,
          if_true]
        cases call.get with
        | some err => exact quiet_refl _
        | none => exact quiet_update hget _ _

end Reconcile

/-! ## Runs -/

/-- Uids are distinct and were given out, and the objects of a request are on its cloud. -/
structure Sound (env : Env P) (w : World P) : Prop where
  fresh : ∀ r ∈ w.requests, r.uid < w.nextUid
  creators : ∀ o ∈ w.remotes, ∀ uid, o.creator = some uid → uid < w.nextUid
  uids : ∀ r ∈ w.requests, ∀ r' ∈ w.requests, r.uid = r'.uid → r.key = r'.key
  home : ∀ o ∈ w.remotes, ∀ r ∈ w.requests, o.creator = some r.uid →
    env.cloud r.spec = .ok o.cloud

section Runs

variable {env : Env P} {w w' : World P}

theorem eq_of_key {r r' : Request} (hr : r ∈ w.requests) (hr' : r' ∈ w.requests)
    (hkey : r.key = r'.key) : r = r' := List.inj_on_of_nodup_map w.nodup hr hr' hkey

/-- A request that has an object is an old one. -/
theorem Quiet.request_of_creator (h : Quiet w w') (hw : Sound env w) {o : Remote P}
    (ho : o ∈ w.remotes) {r' : Request} (hr' : r' ∈ w'.requests)
    (hcreator : o.creator = some r'.uid) :
    ∃ r ∈ w.requests, r'.key = r.key ∧ r'.uid = r.uid ∧ r'.spec = r.spec ∧
      (r.status.remoteName ≠ "" → r'.status.remoteName = r.status.remoteName) := by
  rcases h.requests r' hr' with hold | ⟨huid, -, -⟩
  · exact hold
  · have := hw.creators o ho r'.uid hcreator
    omega

theorem Quiet.sound (he : Quiet w w') (h : Sound env w) : Sound env w' where
  fresh r' hr' := by
    rcases he.requests r' hr' with ⟨r, hr, -, huid, -⟩ | ⟨huid, hlt, -⟩
    · exact huid ▸ lt_of_lt_of_le (h.fresh r hr) he.next
    · exact huid ▸ hlt
  creators o' ho' uid hcreator := by
    rcases he.remotes o' ho' with ⟨o, ho, -, hsame⟩ | hnone
    · exact lt_of_lt_of_le (h.creators o ho uid (hsame ▸ hcreator)) he.next
    · rw [hnone] at hcreator
      cases hcreator
  uids r₁' hr₁' r₂' hr₂' huid := by
    rcases he.requests r₁' hr₁' with ⟨r₁, hr₁, hkey₁, huid₁, -⟩ | ⟨huid₁, -, honly⟩
    · rcases he.requests r₂' hr₂' with ⟨r₂, hr₂, hkey₂, huid₂, -⟩ | ⟨huid₂, -, -⟩
      · rw [hkey₁, hkey₂, h.uids r₁ hr₁ r₂ hr₂ (by omega)]
      · have := h.fresh r₁ hr₁
        omega
    · rw [honly r₂' hr₂' (by omega)]
  home o' ho' r' hr' hcreator := by
    rcases he.remotes o' ho' with ⟨o, ho, hkey, hsame⟩ | hnone
    · obtain ⟨r, hr, -, huid, hspec, -⟩ := he.request_of_creator h ho hr' (hsame ▸ hcreator)
      have hhome := h.home o ho r hr (huid ▸ hsame ▸ hcreator)
      rw [hspec, hhome, show o'.cloud = o.cloud from (Prod.mk.inj hkey).1]
    · rw [hnone] at hcreator
      cases hcreator

theorem Quiet.linked (he : Quiet w w') (h : Sound env w) (hlinked : ∀ r ∈ w.requests, Linked w r) :
    ∀ r' ∈ w'.requests, Linked w' r' := by
  intro r' hr' o' ho' hcreator
  rcases he.remotes o' ho' with ⟨o, ho, hkey, hsame⟩ | hnone
  · obtain ⟨r, hr, -, huid, -, hname⟩ := he.request_of_creator h ho hr' (hsame ▸ hcreator)
    have hlink := hlinked r hr o ho (huid ▸ hsame ▸ hcreator)
    rw [show o'.name = o.name from (Prod.mk.inj hkey).2, ← hlink]
    exact hname (hlink ▸ o.named)
  · rw [hnone] at hcreator
    cases hcreator

theorem quiet_createRequest (h : Sound env w) (fpr : Request) : Quiet w (w.createRequest fpr) := by
  unfold World.createRequest
  cases w.get fpr.key with
  | some r => exact quiet_refl w
  | none =>
    have hold : ∀ r' ∈ (w.put { fpr with uid := w.nextUid }).requests,
        r' = { fpr with uid := w.nextUid } ∨ r' ∈ w.requests := fun r' hr' => mem_put hr'
    refine ⟨Nat.le_succ _, fun r' hr' => ?_, fun o' ho' => Or.inl ⟨o', ho', rfl, rfl⟩⟩
    rcases hold r' hr' with rfl | hmem
    · refine Or.inr ⟨rfl, Nat.lt_succ_self _, fun r'' hr'' huid => ?_⟩
      rcases hold r'' hr'' with rfl | hmem
      · rfl
      · have := h.fresh r'' hmem
        omega
    · exact Or.inl ⟨r', hmem, rfl, rfl, rfl, fun _ => rfl⟩

theorem quiet_deleteRequest (w : World P) (key : ObjectKey) : Quiet w (w.deleteRequest key) := by
  unfold World.deleteRequest
  cases hget : w.get key with
  | none => exact quiet_refl w
  | some fpr =>
    have hget' : w.get fpr.key = some fpr := key_of_get hget ▸ hget
    simp only
    split_ifs
    · exact quiet_remove w key
    · exact quiet_put hget' rfl rfl rfl fun _ => rfl

/-- The step lemma: only a Reconcile creates an object for a request. -/
theorem step_cases (h : Sound env w) (action : Action P) :
    Quiet w (step env w action) ∨ ∃ call fpr, action = .reconcile call ∧
      w.get fpr.key = some fpr ∧ Creates env call w (step env w action) fpr := by
  cases action with
  | reconcile call =>
    rcases reconcile_cases env call w with hquiet | ⟨fpr, hget, hcreates⟩
    · exact Or.inl hquiet
    · exact Or.inr ⟨call, fpr, rfl, hget, hcreates⟩
  | createRequest key named spec finalizers => exact Or.inl (quiet_createRequest h _)
  | deleteRequest key => exact Or.inl (quiet_deleteRequest w key)
  | createRemote o =>
    left
    have hstep : step env w (.createRemote o) = (w.createRemote .done { o with creator := none }).2 :=
      rfl
    rcases createRemote_cases w .done { o with creator := none } with
      ⟨err, hcreate⟩ | ⟨-, ⟨err, hreply, -⟩ | ⟨-, hcreate⟩⟩
    · rw [hstep, hcreate]
      exact quiet_refl w
    · cases hreply
    · rw [hstep, hcreate]
      refine { quiet_refl w with remotes := fun o' ho' => ?_ }
      rcases List.mem_append.mp ho' with ho' | ho'
      · exact Or.inl ⟨o', ho', rfl, rfl⟩
      · rw [List.mem_singleton.mp ho']
        exact Or.inr rfl
  | deleteRemote cloud name =>
    left
    have hstep : step env w (.deleteRemote cloud name) = (w.deleteRemote .done cloud name).2 := rfl
    rcases deleteRemote_world w .done cloud name with hsame | hdrop
    · rw [hstep, hsame]
      exact quiet_refl w
    · rw [hstep, hdrop]
      exact { quiet_refl w with
        remotes := fun o' ho' => Or.inl ⟨o', List.mem_of_mem_filter ho', rfl, rfl⟩ }
  | setRemoteStatus cloud name status =>
    left
    refine { quiet_refl w with remotes := fun o' ho' => ?_ }
    obtain ⟨o, ho, rfl⟩ := List.mem_map.mp ho'
    refine Or.inl ⟨o, ho, ?_⟩
    split_ifs <;> exact ⟨rfl, rfl⟩

section Creates

variable {call : Call} {fpr : Request} (h : Sound env w) (hget : w.get fpr.key = some fpr)

include h hget

theorem sound_addRemote {o : Remote P} (hcreator : o.creator = some fpr.uid)
    (hcloud : env.cloud fpr.spec = .ok o.cloud) : Sound env (w.addRemote o) where
  fresh := h.fresh
  creators o' ho' uid huid := by
    rcases List.mem_append.mp ho' with ho' | ho'
    · exact h.creators o' ho' uid huid
    · rw [List.mem_singleton.mp ho', hcreator] at huid
      exact Option.some.inj huid ▸ h.fresh fpr (mem_of_get hget)
  uids := h.uids
  home o' ho' r hr huid := by
    rcases List.mem_append.mp ho' with ho' | ho'
    · exact h.home o' ho' r hr huid
    · rw [List.mem_singleton.mp ho', hcreator] at huid
      have hkey := h.uids fpr (mem_of_get hget) r hr (Option.some.inj huid)
      rw [← eq_of_key (mem_of_get hget) hr hkey, List.mem_singleton.mp ho']
      exact hcloud

theorem sound_of_creates (hcreates : Creates env call w w' fpr) : Sound env w' := by
  obtain ⟨hname, o, hcreator, hcloud, -, status, hw', -⟩ := hcreates
  have hadded := sound_addRemote h hget hcreator hcloud
  have hget' : (w.addRemote o).get fpr.key = some fpr := hget
  rcases hw' with rfl | rfl
  · exact hadded
  · have hquiet : Quiet (w.addRemote o) ((w.addRemote o).put { fpr with status := status }) :=
      quiet_put hget' rfl rfl rfl fun hne => absurd hname hne
    exact hquiet.sound hadded

omit h hget in
/-- The created object is new. -/
theorem exists_new_of_creates (hcreates : Creates env call w w' fpr) :
    ∃ o ∈ w'.remotes, o ∉ w.remotes := by
  obtain ⟨-, o, -, -, habsent, status, hw', -⟩ := hcreates
  have hremotes : w'.remotes = w.remotes ++ [o] := by
    rcases hw' with rfl | rfl <;> rfl
  refine ⟨o, ?_, fun hold => ?_⟩
  · rw [hremotes]
    exact List.mem_append_right _ List.mem_cons_self
  · exact (Keyed.lookup_eq_none Remote.key).mp habsent (List.mem_map_of_mem hold)

/-- Where the status was empty the request has no object, and once the new one is written down the
status names it. -/
theorem linked_of_creates (hcreates : Creates env call w w' fpr) (hcreated : call.createRemote = .done)
    (hwritten : call.updateStatus.applied = true) (hlinked : ∀ r ∈ w.requests, Linked w r) :
    ∀ r ∈ w'.requests, Linked w' r := by
  obtain ⟨hname, o, hcreator, -, -, status, -, hrecorded⟩ := hcreates
  obtain ⟨hstatus, rfl⟩ := hrecorded hcreated hwritten
  intro r hr o' ho' hcreator'
  have hold : o' ∈ w.remotes → o'.creator ≠ some fpr.uid := fun ho' huid =>
    o'.named (hname ▸ hlinked fpr (mem_of_get hget) o' ho' huid).symm
  rcases List.mem_append.mp ho' with ho' | ho'
  · rcases mem_put hr with rfl | hr
    · exact absurd hcreator' (hold ho')
    · exact hlinked r hr o' ho' hcreator'
  · rw [List.mem_singleton.mp ho'] at hcreator' ⊢
    rcases mem_put hr with rfl | hmem
    · exact hstatus
    · have huid : fpr.uid = r.uid := Option.some.inj (hcreator.symm.trans hcreator')
      have hkey := h.uids fpr (mem_of_get hget) r hmem huid
      have hput : r = { fpr with status := status } := eq_of_key hr
        (mem_of_get (get_put { fpr with status := status })) hkey.symm
      rw [hput]
      exact hstatus

end Creates

/-! ### Every run -/

theorem sound_step (h : Sound env w) (action : Action P) : Sound env (step env w action) := by
  rcases step_cases h action with hquiet | ⟨call, fpr, -, hget, hcreates⟩
  · exact hquiet.sound h
  · exact sound_of_creates h hget hcreates

theorem linked_step (h : Sound env w) {action : Action P} (hrecords : Records env (w, action))
    (hlinked : ∀ r ∈ w.requests, Linked w r) :
    ∀ r ∈ (step env w action).requests, Linked (step env w action) r := by
  rcases step_cases h action with hquiet | ⟨call, fpr, haction, hget, hcreates⟩
  · exact hquiet.linked h hlinked
  · obtain ⟨hdone, happlied⟩ := hrecords call haction (exists_new_of_creates hcreates)
    exact linked_of_creates h hget hcreates hdone happlied hlinked

/-- Before the first request no object was created for one. -/
structure Initial (w : World P) : Prop where
  requests : w.requests = []
  creators : ∀ o ∈ w.remotes, o.creator = none

theorem Initial.sound (h : Initial w) : Sound env w := by
  have hnone : ∀ r, r ∉ w.requests := fun r hr => by
    rw [h.requests] at hr
    cases hr
  refine ⟨fun r hr => absurd hr (hnone r), fun o ho uid huid => ?_,
    fun r hr => absurd hr (hnone r), fun o ho r hr => absurd hr (hnone r)⟩
  rw [h.creators o ho] at huid
  cases huid

theorem sound_run (h : Initial w) (actions : List (Action P)) :
    Sound env (Runs.run (step env) w actions) :=
  Runs.invariant h.sound fun e _ hsound => sound_step hsound e.2

theorem linked_run (h : Initial w) {actions : List (Action P)}
    (hrecords : ∀ e ∈ Runs.history (step env) w actions, Records env e) :
    ∀ r ∈ (Runs.run (step env) w actions).requests, Linked (Runs.run (step env) w actions) r := by
  have hnone : ∀ r ∈ w.requests, Linked w r := fun r hr => by
    rw [h.requests] at hr
    cases hr
  have hboth : Sound env (Runs.run (step env) w actions) ∧
      ∀ r ∈ (Runs.run (step env) w actions).requests, Linked (Runs.run (step env) w actions) r :=
    Runs.invariant (I := fun w => Sound env w ∧ ∀ r ∈ w.requests, Linked w r) ⟨h.sound, hnone⟩
      fun e he hboth => ⟨sound_step hboth.1 e.2, linked_step hboth.1 (hrecords e he) hboth.2⟩
  exact hboth.2

end Runs

/-! ## The finalizer -/

section Release

variable {env : Env P} {call : Call} {w : World P} {r : Request}

/-- A Reconcile that keeps the finalizers of its request does not release it. -/
theorem not_releases_of_get {r' : Request} (hkey : r'.key = call.req)
    (hafter : (reconcile env call w).world.get r'.key = some r')
    (hsame : r'.finalizers = r.finalizers) : ¬ Releases env call w r := by
  intro ⟨hbefore, hgone⟩
  have hgone := hgone r' (hkey ▸ hafter)
  rw [containsFinalizer, hsame] at hgone
  rw [containsFinalizer, hgone] at hbefore
  cases hbefore

theorem not_releases_of_requests (hget : w.get call.req = some r)
    (hafter : (reconcile env call w).world.requests = w.requests) : ¬ Releases env call w r := by
  have hkey := key_of_get hget
  refine not_releases_of_get hkey ?_ rfl
  rw [World.get, hafter, hkey]
  exact hget

theorem not_releases_of_put {w₁ : World P} {status : Status} (hget : w.get call.req = some r)
    (hafter : (reconcile env call w).world = w₁.put { r with status := status }) :
    ¬ Releases env call w r := by
  have hkey := key_of_get hget
  have hput : ({ r with status := status } : Request).key = call.req := hkey
  exact not_releases_of_get hput (by rw [hafter, get_put]) rfl

/-- **A Reconcile that takes the finalizer** is one of a deletion, and the object that the status
names was deleted. -/
theorem deleted_of_releases (hget : w.get call.req = some r) (h : Releases env call w r) :
    (deleteRemoteResource env call r w).1 = none ∧
      (reconcile env call w).world.remotes = (deleteRemoteResource env call r w).2.remotes := by
  have hsame : (reconcile env call w).world.requests ≠ w.requests := fun hsame =>
    not_releases_of_requests hget hsame h
  cases hdeleting : r.deleting with
  | false =>
    rcases @reconcile_present P env call w r hget hdeleting h.1 with
      ⟨status, -, hw' | hw'⟩ | ⟨-, o, -, -, -, status, hw' | hw', -⟩
    · exact absurd (by rw [hw']) hsame
    · exact absurd h (not_releases_of_put hget hw')
    · exact absurd (by rw [hw', World.addRemote]) hsame
    · exact absurd h (not_releases_of_put hget hw')
  | true =>
    cases hcall : call.get with
    | some err =>
      refine absurd ?_ hsame
      rw [reconcile, hcall]
    | none =>
      have hworld : (reconcile env call w).world = (handleDeletion env call r w).world := by
        simp only [reconcile, hcall, hget, hdeleting, if_true]
      cases hdelete : (deleteRemoteResource env call r w).1 with
      | some err =>
        refine absurd ?_ hsame
        rw [hworld]
        simp only [handleDeletion, h.1, if_true, hdelete]
        exact (deleteRemoteResource_frame env call r w).1
      | none =>
        refine ⟨rfl, ?_⟩
        rw [hworld]
        simp only [handleDeletion, h.1, if_true, hdelete]
        exact remotes_update _ _ _

/-- **What a release leaves.** No object that was created for the request is left exactly where the
status names each of them. -/
theorem released_iff_linked (hsound : Sound env w) (hget : w.get call.req = some r)
    (h : Releases env call w r) :
    (∀ o ∈ (reconcile env call w).world.remotes, o.creator ≠ some r.uid) ↔ Linked w r := by
  obtain ⟨hdelete, hremotes⟩ := deleted_of_releases hget h
  rw [hremotes]
  rcases remotes_deleteRemoteResource hdelete with ⟨hname, hsame⟩ | ⟨-, cloud, hcloud, hdrop⟩
  · rw [hsame]
    refine forall₂_congr fun o ho => ⟨fun hne huid => absurd huid hne, fun hlink huid => ?_⟩
    exact o.named ((hlink huid).symm.trans hname)
  · rw [hdrop]
    refine ⟨fun hnone o ho huid => ?_, fun hlinked o ho huid => ?_⟩
    · -- it is dropped, so it has the dropped name
      by_contra hne
      refine hnone o (List.mem_filter.mpr ⟨ho, ?_⟩) huid
      rw [decide_eq_true_eq]
      exact fun hkey => hne (Prod.mk.inj hkey).2.symm
    · obtain ⟨hmem, hkey⟩ := List.mem_filter.mp ho
      rw [decide_eq_true_eq] at hkey
      have hhome := hsound.home o hmem r (mem_of_get hget) huid
      rw [hcloud] at hhome
      exact hkey (Prod.ext (Except.ok.inj hhome).symm (hlinked o hmem huid).symm)

end Release

/-- **No orphans.** After any run, a Reconcile that takes the finalizer leaves no object that was
created for the request, exactly where the status names every one of them. This is so where every
Reconcile of the run that created an object got its answer and wrote the status. -/
theorem no_orphan_iff {env : Env P} {w₀ : World P} (h : Initial w₀) (actions : List (Action P))
    (call : Call) (r : Request) (hget : (Runs.run (step env) w₀ actions).get call.req = some r)
    (hreleases : Releases env call (Runs.run (step env) w₀ actions) r) :
    ((∀ o ∈ (reconcile env call (Runs.run (step env) w₀ actions)).world.remotes,
        o.creator ≠ some r.uid) ↔ Linked (Runs.run (step env) w₀ actions) r) ∧
      ((∀ e ∈ Runs.history (step env) w₀ actions, Records env e) →
        Linked (Runs.run (step env) w₀ actions) r) :=
  ⟨released_iff_linked (sound_run h actions) hget hreleases,
    fun hrecords => linked_run h hrecords r (mem_of_get hget)⟩

/-! ### Two runs -/

/-- One template, and one cloud behind every OCloud. -/
def oneCloud : Env Unit where
  templateInfo _ := some ("cluster", "v1")
  oCloud _ := some ⟨"focom", "cloud-kubeconfig"⟩
  kubeconfig _ := some "kubeconfig"
  parseKubeconfig _ := .ok "cloud"
  unmarshal _ := .ok ()
  emptyParameters := ()
  quote s := s

def edge : ObjectKey := ⟨"focom", "edge"⟩

def edgeSpec : Spec where
  oCloudId := "cloud"
  oCloudNamespace := "focom"
  templateName := "cluster"
  templateVersion := "v1"

/-- A user creates a request and deletes it after two Reconciles: one that adds the finalizer, and one
that creates the object and has its status written as `reply` says. -/
def provisioned (reply : Reply) : List (Action Unit) :=
  [.createRequest edge (by decide) edgeSpec [],
    .reconcile { req := edge },
    .reconcile { req := edge, updateStatus := reply },
    .deleteRequest edge]

/-- The request after these. -/
def edgeRequest (status : Status) : Request where
  key := edge
  uid := 0
  finalizers := [focomFinalizer]
  deleting := true
  spec := edgeSpec
  status := status

/-- With the status written, the next Reconcile deletes the object and takes the finalizer. -/
theorem recorded_object_deleted :
    (reconcile oneCloud { req := edge }
      (Runs.run (step oneCloud) {} (provisioned .done))).world.get edge = none ∧
    ∀ o ∈ (reconcile oneCloud { req := edge }
      (Runs.run (step oneCloud) {} (provisioned .done))).world.remotes, o.creator ≠ some 0 := by
  have hinitial : Initial ({} : World Unit) := ⟨rfl, fun o ho => nomatch ho⟩
  have hrequest : (Runs.run (step oneCloud) {} (provisioned .done)).get edge = some (edgeRequest
      { phase := "provisioning", message := "Remote CR created, waiting for fulfillment",
        lastUpdated := some 0, remoteName := "edge" }) := by decide +kernel
  have hgone : (reconcile oneCloud { req := edge }
      (Runs.run (step oneCloud) {} (provisioned .done))).world.get edge = none := by decide +kernel
  refine ⟨hgone, (no_orphan_iff hinitial (provisioned .done) { req := edge } _ hrequest
    ⟨by decide +kernel, fun r' hr' => ?_⟩).1.mpr ?_⟩
  · rw [hgone] at hr'
    cases hr'
  · unfold Linked
    decide +kernel

/-- With the status refused, as by a conflict, the next Reconcile takes the finalizer as well, and the
object stays. -/
theorem unrecorded_object_stays :
    ∃ r, (Runs.run (step oneCloud) {}
        (provisioned (.refused { msg := "the object has been modified" }))).get edge = some r ∧
      Releases oneCloud { req := edge } (Runs.run (step oneCloud) {}
        (provisioned (.refused { msg := "the object has been modified" }))) r ∧
      ∃ o ∈ (reconcile oneCloud { req := edge } (Runs.run (step oneCloud) {}
        (provisioned (.refused { msg := "the object has been modified" })))).world.remotes,
        o.creator = some r.uid := by
  have hgone : (reconcile oneCloud { req := edge } (Runs.run (step oneCloud) {}
      (provisioned (.refused { msg := "the object has been modified" })))).world.get edge = none := by
    decide +kernel
  refine ⟨edgeRequest {}, by decide +kernel, ⟨by decide +kernel, fun r' hr' => ?_⟩, by decide +kernel⟩
  rw [hgone] at hr'
  cases hr'

end Nephio.Controllers.Focom
