import Nephio.Controllers.Token
import Nephio.Laws.Controllers.GitResource

/-!
# Laws.Controllers.Token: what Ready says about the Secret

A Reconcile creates the access token and then writes the Secret, and the value of the token is only
known in between. A later Reconcile looks for the token only. So a Token is Ready with its Secret
exactly where the last Reconcile that created the access token was its own and wrote the Secret, too
(`ready_served_iff`).
-/

namespace Nephio.Controllers.Token

variable (getTokenName : ObjectKey → String)

abbrev Action := GitResource.Action Spec Calls

def step (w : GitResource.World Spec Git) (action : Action) : GitResource.World Spec Git :=
  GitResource.step (actions getTokenName) w action

/-- The value of the access token of a name. -/
def Git.token (g : Git) (name : String) : Option Nat :=
  (Keyed.lookup Prod.fst name g.tokens).map Prod.snd

def Git.secret (g : Git) (key : ObjectKey) : Option Secret := Keyed.lookup Secret.key key g.secrets

/-- The Secret of a Token exists and holds its access token. -/
def Served (g : Git) (key : ObjectKey) : Prop :=
  ∃ token secret, g.token (getTokenName key) = some token ∧ g.secret key = some secret ∧
    secret.token = token ∧ secret.password = token

/-- The Secret is written in a Reconcile that creates the access token. -/
def Calls.writes (calls : Calls) : Bool :=
  calls.createAccessToken.error.isNone && calls.getSecret.isNone && calls.writeSecret.applied

/-- The Token whose Reconcile creates the access token of a name, and whether it writes the
Secret. -/
def creation (e : GitResource.World Spec Git × Action) (name : String) : Option (ObjectKey × Bool) :=
  match e.2 with
  | .reconcile call =>
    if (e.1.rest.token name).isNone && ((step getTokenName e.1 e.2).rest.token name).isSome then
      some (call.req, call.calls.writes)
    else none
  | .users .. => none

/-- The last creation of the access token of a name. -/
def lastCreation (history : List (GitResource.World Spec Git × Action)) (name : String) :
    Option (ObjectKey × Bool) :=
  history.foldl (fun last e => (creation getTokenName e name).or last) none

section Git

variable {g : Git}

/-- The git server after a creation. -/
def Git.created (g : Git) (name : String) : Git :=
  { g with tokens := Keyed.upsert Prod.fst (name, g.next) g.tokens, next := g.next + 1 }

theorem token_created (name name' : String) :
    (g.created name).token name' = if name = name' then some g.next else g.token name' := by
  unfold Git.token Git.created
  rw [Keyed.lookup_upsert]
  split_ifs <;> rfl

theorem token_drop (name name' : String) :
    ({ g with tokens := Keyed.drop Prod.fst name g.tokens } : Git).token name' =
      if name = name' then none else g.token name' := by
  unfold Git.token
  simp only
  rw [Keyed.lookup_drop]
  split_ifs <;> rfl

theorem deleteToken_rest (calls : Calls) (cr : GitResource.Resource Spec) :
    (deleteToken getTokenName calls cr g).2 = g ∨
      (deleteToken getTokenName calls cr g).2 =
        { g with tokens := Keyed.drop Prod.fst (getTokenName cr.key) g.tokens } := by
  unfold deleteToken Git.deleteAccessToken
  simp only
  split
  · exact Or.inl rfl
  · simp only
    split_ifs
    · exact Or.inr rfl
    · exact Or.inl rfl

/-- What `createToken` does: it finds the access token or fails before it creates one, it creates one
and fails to write the Secret, or it writes both. -/
theorem createToken_cases (calls : Calls) (cr : GitResource.Resource Spec) (g : Git) :
    ((createToken getTokenName calls cr g).2 = g ∧
      ∀ cr', (createToken getTokenName calls cr g).1 = .ok cr' →
        (g.token (getTokenName cr.key)).isSome) ∨
    g.token (getTokenName cr.key) = none ∧
      ((calls.writes = false ∧
          (createToken getTokenName calls cr g).2 = g.created (getTokenName cr.key) ∧
          ∀ cr', (createToken getTokenName calls cr g).1 ≠ .ok cr') ∨
        calls.writes = true ∧ ∃ secret : Secret, secret.key = cr.key ∧ secret.token = g.next ∧
          secret.password = g.next ∧ (createToken getTokenName calls cr g).2 =
            { g.created (getTokenName cr.key) with
              secrets := Keyed.upsert Secret.key secret g.secrets }) := by
  unfold createToken
  cases hlist : calls.listAccessTokens with
  | some err => exact Or.inl ⟨rfl, fun _ h => by cases h⟩
  | none =>
    simp only
    cases hfound : Keyed.lookup Prod.fst (getTokenName cr.key) g.tokens with
    | some e =>
      refine Or.inl ⟨rfl, fun _ _ => ?_⟩
      rw [Git.token, hfound]
      rfl
    | none =>
      simp only [Option.isSome_none, Bool.false_eq_true, if_false]
      have hnone : g.token (getTokenName cr.key) = none := by
        rw [Git.token, hfound]
        rfl
      cases calls.getMyUserInfo with
      | error err => exact Or.inl ⟨rfl, fun _ h => by cases h⟩
      | ok userName =>
        simp only [Git.createAccessToken, hfound]
        cases hcreate : calls.createAccessToken with
        | refused err => exact Or.inl ⟨rfl, fun _ h => by cases h⟩
        | lost err =>
          refine Or.inr ⟨hnone, Or.inl ⟨?_, rfl, fun _ h => by cases h⟩⟩
          rw [Calls.writes, hcreate]
          rfl
        | done =>
          simp only [Reply.error, Reply.applied, if_true, Git.apply]
          refine Or.inr ⟨hnone, ?_⟩
          cases hget : calls.getSecret with
          | some err =>
            refine Or.inl ⟨?_, rfl, fun _ h => by cases h⟩
            rw [Calls.writes, hget, Option.isNone_some, Bool.and_false, Bool.false_and]
          | none =>
            have hwrites : calls.writes = calls.writeSecret.applied := by
              rw [Calls.writes, hcreate, hget]
              rfl
            rw [hwrites]
            cases hwrite : calls.writeSecret with
            | refused err => exact Or.inl ⟨rfl, rfl, fun _ h => by cases h⟩
            | lost err => exact Or.inr ⟨rfl, _, rfl, rfl, rfl, rfl⟩
            | done => exact Or.inr ⟨rfl, _, rfl, rfl, rfl, rfl⟩

end Git

/-! ## Runs -/

/-- The history accounts for the access tokens: each was created last by a Reconcile of some Token,
and exactly that Token has a Secret with it, if it was written. Secrets hold values that were given
out before. -/
structure Accounted (history : List (GitResource.World Spec Git × Action)) (g : Git) : Prop where
  secrets : ∀ key secret, g.secret key = some secret → secret.token < g.next
  tokens : ∀ name, (g.token name).isSome → ∃ key written,
    lastCreation getTokenName history name = some (key, written) ∧
      ∀ key', getTokenName key' = name →
        (Served getTokenName g key' ↔ key' = key ∧ written = true)

section Runs

variable {getTokenName} {history : List (GitResource.World Spec Git × Action)}
  {w : GitResource.World Spec Git} {action : Action}

theorem lastCreation_concat (e : GitResource.World Spec Git × Action) (name : String) :
    lastCreation getTokenName (history ++ [e]) name =
      (creation getTokenName e name).or (lastCreation getTokenName history name) := by
  rw [lastCreation, List.foldl_append]
  rfl

theorem creation_of_token_eq {name : String}
    (h : (step getTokenName w action).rest.token name = none ∨
      (step getTokenName w action).rest.token name = w.rest.token name) :
    creation getTokenName (w, action) name = none := by
  unfold creation
  cases action with
  | users => rfl
  | reconcile call =>
    simp only
    rcases h with h | h
    · rw [h]
      simp only [Option.isSome_none, Bool.and_false, Bool.false_eq_true, if_false]
    · rw [h]
      cases w.rest.token name <;> rfl

theorem creation_of_token_none {call : GitResource.Call Calls} {name : String}
    (hbefore : w.rest.token name = none)
    (hafter : ((reconcile getTokenName call w).world.rest.token name).isSome) :
    creation getTokenName (w, .reconcile call) name = some (call.req, call.calls.writes) := by
  have hafter' : ((step getTokenName w (.reconcile call)).rest.token name).isSome := hafter
  simp only [creation, hbefore, Option.isNone_none, hafter', Bool.and_self, if_true]

/-- A step that changes neither the value of a name nor the Secrets of its Tokens. -/
theorem accounted_frame {name : String} (h : Accounted getTokenName history w.rest)
    (htoken : (step getTokenName w action).rest.token name = w.rest.token name)
    (hsecret : ∀ key, getTokenName key = name →
      (step getTokenName w action).rest.secret key = w.rest.secret key)
    (hsome : ((step getTokenName w action).rest.token name).isSome) :
    ∃ key written, lastCreation getTokenName (history ++ [(w, action)]) name = some (key, written) ∧
      ∀ key', getTokenName key' = name →
        (Served getTokenName (step getTokenName w action).rest key' ↔
          key' = key ∧ written = true) := by
  rw [htoken] at hsome
  obtain ⟨key, written, hlast, hserved⟩ := h.tokens name hsome
  refine ⟨key, written, ?_, fun key' hkey' => ?_⟩
  · rw [lastCreation_concat, creation_of_token_eq (Or.inr htoken), hlast]
    rfl
  · rw [← hserved key' hkey', Served, Served, hkey', htoken, hsecret key' hkey']

/-- The step lemma, for a step that leaves the git server and the Secrets. -/
theorem accounted_of_rest_eq (h : Accounted getTokenName history w.rest)
    (hrest : (step getTokenName w action).rest = w.rest) :
    Accounted getTokenName (history ++ [(w, action)]) (step getTokenName w action).rest where
  secrets := by
    rw [hrest]
    exact h.secrets
  tokens name hsome :=
    accounted_frame h (by rw [hrest]) (fun _ _ => by rw [hrest]) hsome

/-- The step lemma, for a step that deletes an access token. -/
theorem accounted_of_drop (h : Accounted getTokenName history w.rest) {name : String}
    (hrest : (step getTokenName w action).rest =
      { w.rest with tokens := Keyed.drop Prod.fst name w.rest.tokens }) :
    Accounted getTokenName (history ++ [(w, action)]) (step getTokenName w action).rest where
  secrets := by
    rw [hrest]
    exact h.secrets
  tokens name' hsome := by
    have htoken := @token_drop w.rest name name'
    rw [← hrest] at htoken
    by_cases hname : name = name'
    · rw [htoken, if_pos hname] at hsome
      cases hsome
    · rw [if_neg hname] at htoken
      exact accounted_frame h htoken (fun _ _ => by rw [hrest]; rfl) hsome

variable {call : GitResource.Call Calls}

/-- The step lemma, for a Reconcile that creates the access token of its Token. -/
theorem accounted_of_created (h : Accounted getTokenName history w.rest)
    (hbefore : w.rest.token (getTokenName call.req) = none)
    (htoken : ∀ name, (reconcile getTokenName call w).world.rest.token name =
      (w.rest.created (getTokenName call.req)).token name)
    (hnext : (reconcile getTokenName call w).world.rest.next = w.rest.next + 1)
    (hsecret : ∀ key, key ≠ call.req → (reconcile getTokenName call w).world.rest.secret key =
      w.rest.secret key)
    (hown : if call.calls.writes then
        ∃ secret, (reconcile getTokenName call w).world.rest.secret call.req = some secret ∧
          secret.token = w.rest.next ∧ secret.password = w.rest.next
      else (reconcile getTokenName call w).world.rest.secret call.req = w.rest.secret call.req) :
    Accounted getTokenName (history ++ [(w, .reconcile call)])
      (step getTokenName w (.reconcile call)).rest where
  secrets key secret hkey := by
    show secret.token < (reconcile getTokenName call w).world.rest.next
    rw [hnext]
    by_cases hreq : key = call.req
    · split_ifs at hown with hwrites
      · obtain ⟨secret', hsecret', htoken', -⟩ := hown
        rw [hreq] at hkey
        rw [← Option.some.inj (hsecret'.symm.trans hkey), htoken']
        omega
      · rw [hreq] at hkey
        have hlt := h.secrets call.req secret (hown.symm.trans hkey)
        omega
    · have hlt := h.secrets key secret ((hsecret key hreq).symm.trans hkey)
      omega
  tokens name hsome := by
    have htoken' := htoken name
    rw [token_created] at htoken'
    by_cases hname : getTokenName call.req = name
    · subst hname
      rw [if_pos rfl] at htoken'
      refine ⟨call.req, call.calls.writes, ?_, fun key hkey => ?_⟩
      · rw [lastCreation_concat, creation_of_token_none hbefore hsome]
        rfl
      -- the new value is in no Secret but one that is written now
      have hold : ∀ secret, w.rest.secret key = some secret → secret.token ≠ w.rest.next :=
        fun secret hsecret => Nat.ne_of_lt (h.secrets key secret hsecret)
      constructor
      · rintro ⟨token, secret, htok, hsec, rfl, -⟩
        rw [hkey] at htok
        have hvalue : w.rest.next = secret.token := Option.some.inj (htoken'.symm.trans htok)
        by_cases hreq : key = call.req
        · refine ⟨hreq, ?_⟩
          by_contra hwrites
          rw [if_neg hwrites, ← hreq] at hown
          exact hold secret (hown.symm.trans hsec) hvalue.symm
        · exact absurd hvalue.symm (hold secret ((hsecret key hreq).symm.trans hsec))
      · rintro ⟨rfl, hwrites⟩
        rw [if_pos hwrites] at hown
        obtain ⟨secret, hsec, htok, hpassword⟩ := hown
        exact ⟨w.rest.next, secret, htoken', hsec, htok, hpassword⟩
    · rw [if_neg hname] at htoken'
      refine accounted_frame h htoken' (fun key hkey => hsecret key ?_) hsome
      rintro rfl
      exact hname hkey

/-- The step lemma. -/
theorem accounted_step (h : Accounted getTokenName history w.rest) (action : Action) :
    Accounted getTokenName (history ++ [(w, action)]) (step getTokenName w action).rest := by
  cases action with
  | users resources nodup => exact accounted_of_rest_eq h rfl
  | reconcile call =>
    rcases GitResource.rest_reconcile (actions getTokenName) call w with
      hrest | ⟨cr, hkey, hrest | hrest⟩
    · exact accounted_of_rest_eq h hrest
    · rcases @deleteToken_rest getTokenName w.rest call.calls cr with hsame | hdrop
      · exact accounted_of_rest_eq h (hrest.trans hsame)
      · exact accounted_of_drop h (hrest.trans hdrop)
    · have hcases := createToken_cases getTokenName call.calls cr w.rest
      rw [hkey] at hcases
      rcases hcases with ⟨hsame, -⟩ |
        ⟨hnone, ⟨hwrites, hcreated, -⟩ | ⟨hwrites, secret, hsecret, htoken, hpassword, hcreated⟩⟩
      · exact accounted_of_rest_eq h (hrest.trans hsame)
      · have hrest' := hrest.trans hcreated
        have hlookup : ∀ key, (reconcile getTokenName call w).world.rest.secret key =
            (w.rest.created (getTokenName call.req)).secret key :=
          fun key => congrArg (Git.secret · key) hrest'
        refine accounted_of_created h hnone (fun name => ?_) ?_ (fun key _ => hlookup key) ?_
        · exact congrArg (Git.token · name) hrest'
        · exact congrArg Git.next hrest'
        · rw [hwrites]
          exact hlookup call.req
      · have hrest' := hrest.trans hcreated
        have hlookup : ∀ key, (reconcile getTokenName call w).world.rest.secret key =
            if call.req = key then some secret else w.rest.secret key := by
          intro key
          rw [← hsecret]
          refine (congrArg (Git.secret · key) hrest').trans ?_
          exact Keyed.lookup_upsert Secret.key key secret w.rest.secrets
        refine accounted_of_created h hnone (fun name => ?_) ?_ (fun key hne => ?_) ?_
        · exact (congrArg (Git.token · name) hrest').trans rfl
        · exact congrArg Git.next hrest'
        · rw [hlookup, if_neg (Ne.symm hne)]
        · rw [if_pos hwrites]
          exact ⟨secret, (hlookup call.req).trans (if_pos rfl), htoken, hpassword⟩

/-- The servers before the first Reconcile: there is no access token, and no Secret holds a value
that is yet to be given out. -/
structure Git.Start (g : Git) : Prop where
  tokens : g.tokens = []
  secrets : ∀ secret ∈ g.secrets, secret.token < g.next

/-- The run lemma. -/
theorem accounted_run (hstart : w.rest.Start) (actions : List Action) :
    Accounted getTokenName (Runs.history (step getTokenName) w actions)
      (Runs.run (step getTokenName) w actions).rest := by
  refine @Runs.history_induction _ _ (step getTokenName)
    (fun history w => Accounted getTokenName history w.rest) w ?_
    (fun _ _ action h => accounted_step h action) actions
  refine ⟨fun key secret hsecret => hstart.secrets secret (Keyed.mem_of_lookup _ hsecret),
    fun name hsome => ?_⟩
  rw [Git.token, hstart.tokens] at hsome
  cases hsome

/-- **Ready and the Secret.** After any run, a Reconcile that sets the condition of a Token to Ready
leaves it with the Secret of its access token exactly where the last Reconcile that created an access
token of this name was one of this Token and wrote the Secret. -/
theorem ready_served_iff (hstart : w.rest.Start) (actions : List Action)
    (hready : (reconcile getTokenName call (Runs.run (step getTokenName) w actions)).ready = true) :
    Served getTokenName
        (reconcile getTokenName call (Runs.run (step getTokenName) w actions)).world.rest call.req ↔
      lastCreation getTokenName
          (Runs.history (step getTokenName) w (actions ++ [.reconcile call]))
          (getTokenName call.req) = some (call.req, true) := by
  have haccounted := @accounted_run getTokenName w hstart (actions ++ [.reconcile call])
  rw [Runs.run_concat] at haccounted
  obtain ⟨cr, cr', hkey, hensured, hrest⟩ := GitResource.ready_reconcile hready
  have hsome : ((step getTokenName (Runs.run (step getTokenName) w actions)
      (.reconcile call)).rest.token (getTokenName call.req)).isSome := by
    have htoken := congrArg (Git.token · (getTokenName call.req)) hrest
    refine (congrArg Option.isSome htoken).trans ?_
    have hcases := createToken_cases getTokenName call.calls cr
      (Runs.run (step getTokenName) w actions).rest
    rw [hkey] at hcases
    rcases hcases with ⟨hsame, hfound⟩ | ⟨-, ⟨-, -, hfailed⟩ | ⟨-, secret, -, -, -, hcreated⟩⟩
    · exact (congrArg (fun g => (Git.token g _).isSome) hsame).trans (hfound cr' hensured)
    · exact absurd hensured (hfailed cr')
    · refine (congrArg (fun g => (Git.token g _).isSome) hcreated).trans ?_
      show ((Git.created _ _).token _).isSome = true
      rw [token_created, if_pos rfl]
      rfl
  obtain ⟨key, written, hlast, hserved⟩ := haccounted.tokens _ hsome
  rw [hlast, Option.some.injEq, Prod.mk.injEq]
  refine (hserved call.req rfl).trans ⟨fun h => ⟨h.1.symm, h.2⟩, fun h => ⟨h.1.symm, h.2⟩⟩

end Runs

/-- The name of a Token and its namespace. -/
def joinedName (key : ObjectKey) : String := key.name ++ "-" ++ key.namespace

/-- One Token, without an access token. -/
def newToken : GitResource.World Spec Git where
  resources := [{ key := ⟨"default", "edge"⟩, spec := {} }]
  rest := {}

/-- A Reconcile of the Token. -/
def reconcileEdge (calls : Calls) : GitResource.Call Calls :=
  { req := ⟨"default", "edge"⟩, calls := calls }

/-- The first Reconcile of a Token in which no call fails. -/
theorem first_reconcile_served :
    Served joinedName (reconcile joinedName (reconcileEdge {}) newToken).world.rest
      ⟨"default", "edge"⟩ := by
  have hstart : newToken.rest.Start := ⟨rfl, nofun⟩
  have hiff := @ready_served_iff joinedName newToken (reconcileEdge {}) hstart [] (by decide)
  exact hiff.mpr (by decide)

/-- The Secret cannot be written after the access token was created. The next Reconcile, in which no
call fails, finds the access token and sets the condition to Ready without a Secret. -/
theorem ready_without_secret :
    let w := Runs.run (step joinedName) newToken
      [.reconcile (reconcileEdge { writeSecret := .refused { msg := "connection refused" } })]
    (reconcile joinedName (reconcileEdge {}) w).ready = true ∧
      (reconcile joinedName (reconcileEdge {}) w).world.rest.secrets = [] := by
  decide

end Nephio.Controllers.Token
