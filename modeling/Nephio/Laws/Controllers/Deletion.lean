import Nephio.Controllers.Repository
import Nephio.Laws.Controllers.Token

/-!
# Laws.Controllers.Deletion: retries of a deletion

A Reconcile of a resource that is being deleted first deletes the object at the git server. The git
server refuses to delete what is not there, and the reconcilers take this for a failure like any
other. So a retry removes the finalizer exactly where the object is still there
(`deletion_retry_iff`): what the last attempt has deleted, or what was never created, keeps the
resource from going.
-/

namespace Nephio.Controllers

open GitResource

theorem Token.deleteToken_eq_none {getTokenName : ObjectKey → String} {calls : Token.Calls}
    (hcalls : calls.deleteAccessToken = .done) {cr : Resource Token.Spec} {g : Token.Git} :
    (Token.deleteToken getTokenName calls cr g).1 = none ↔
      (g.token (getTokenName cr.key)).isSome := by
  unfold Token.deleteToken Token.Git.deleteAccessToken Token.Git.token
  rw [hcalls]
  cases Keyed.lookup Prod.fst (getTokenName cr.key) g.tokens with
  | none => exact iff_of_false (fun h => by cases h) fun h => by cases h
  | some e => exact iff_of_true rfl rfl

/-- The user has a repository of a name. -/
def Repository.Git.Has (g : Repository.Git) (name : String) : Prop :=
  (g.userName, name) ∈ Keyed.keys Repository.Repo.key g.repos

theorem Repository.deleteRepo_eq_none {calls : Repository.Calls}
    (huser : calls.getMyUserInfo = none) (hcalls : calls.deleteRepo = .done)
    {cr : Resource Repository.Spec} {g : Repository.Git} :
    (Repository.deleteRepo calls cr g).1 = none ↔ g.Has cr.key.name := by
  unfold Repository.deleteRepo Repository.Git.deleteRepo Repository.Git.Has
  rw [huser, hcalls, ← Keyed.lookup_isSome]
  simp only
  cases Keyed.lookup Repository.Repo.key (g.userName, cr.key.name) g.repos with
  | none => exact iff_of_false (fun h => by cases h) fun h => by cases h
  | some repo => exact iff_of_true rfl rfl

/-- **Retries of a deletion.** After any run, a Reconcile without a failure of its own leaves a
resource that is being deleted without the finalizer exactly where it did not have it, its policy is
to orphan the object, or the object is still at the git server. -/
theorem deletion_retry_iff (getTokenName : ObjectKey → String)
    (cloneURL : String → String → String) :
    (∀ (w : World Token.Spec Token.Git) (actions : List Token.Action)
        (call : Call Token.Calls) (cr : Resource Token.Spec),
      call.Clean → call.calls.deleteAccessToken = .done →
      (Runs.run (Token.step getTokenName) w actions).get call.req = some cr →
      cr.deleting = true →
      ((Token.reconcile getTokenName call
          (Runs.run (Token.step getTokenName) w actions)).world.Released call.req ↔
        finalizerExists cr = false ∨ cr.deletionPolicy ≠ .delete ∨
          ((Runs.run (Token.step getTokenName) w actions).rest.token
            (getTokenName cr.key)).isSome)) ∧
    ∀ (w : World Repository.Spec Repository.Git)
        (actions : List (Action Repository.Spec Repository.Calls))
        (call : Call Repository.Calls) (cr : Resource Repository.Spec),
      call.Clean → call.calls.getMyUserInfo = none → call.calls.deleteRepo = .done →
      (Runs.run (step (Repository.actions cloneURL)) w actions).get call.req = some cr →
      cr.deleting = true →
      ((Repository.reconcile cloneURL call
          (Runs.run (step (Repository.actions cloneURL)) w actions)).world.Released call.req ↔
        finalizerExists cr = false ∨ cr.deletionPolicy ≠ .delete ∨
          (Runs.run (step (Repository.actions cloneURL)) w actions).rest.Has cr.key.name) := by
  constructor
  · intro w actions call cr hclean hdelete hget hdeleting
    rw [← Token.deleteToken_eq_none hdelete]
    exact finalizer_removed_iff hclean hget hdeleting
  · intro w actions call cr hclean huser hdelete hget hdeleting
    rw [← Repository.deleteRepo_eq_none huser hdelete]
    exact finalizer_removed_iff hclean hget hdeleting

/-- A Token with its access token, and a Repository with its repository, that are being deleted. -/
def deletedToken : World Token.Spec Token.Git where
  resources := [{ key := ⟨"default", "edge"⟩, spec := {}, finalizers := [finalizer]
                  deleting := true }]
  rest := { tokens := [("edge-default", 0)], next := 1 }

@[inherit_doc deletedToken]
def deletedRepository : World Repository.Spec Repository.Git where
  resources := [{ key := ⟨"default", "edge"⟩, spec := {}, finalizers := [finalizer]
                  deleting := true }]
  rest := { repos := [{ owner := "nephio", options := { name := "edge" } }] }

theorem deleted_token_released :
    (Token.reconcile Token.joinedName (Token.reconcileEdge {}) deletedToken).world.Released
      ⟨"default", "edge"⟩ := by
  have hiff := (deletion_retry_iff Token.joinedName fun _ name => name).1 deletedToken []
    (Token.reconcileEdge {}) _ ⟨rfl, rfl, rfl⟩ rfl rfl rfl
  exact hiff.mpr (Or.inr (Or.inr (by decide)))

/-- The update that removes the finalizer fails after the object was deleted. The next Reconcile, in
which no call fails, does not remove it. -/
theorem half_deleted_stays :
    let update : Reply := .refused { msg := "conflict" }
    (let w := Runs.run (Token.step Token.joinedName) deletedToken
      [.reconcile { req := ⟨"default", "edge"⟩, update := update, calls := {} }]
    ((Token.reconcile Token.joinedName (Token.reconcileEdge {}) w).world.get
      ⟨"default", "edge"⟩).map finalizerExists = some true) ∧
    (let w := Runs.run (step (Repository.actions fun _ name => name)) deletedRepository
      [.reconcile { req := ⟨"default", "edge"⟩, update := update, calls := {} }]
    ((Repository.reconcile (fun _ name => name) { req := ⟨"default", "edge"⟩, calls := {} }
      w).world.get ⟨"default", "edge"⟩).map finalizerExists = some true) := by
  decide

end Nephio.Controllers
