import Nephio.Controllers.GitResource

/-!
# The token reconciler

`controllers/pkg/reconcilers/token/reconciler.go`. The git server keeps access tokens by name. It
gives out the value of a token once, when it creates it; values are numbered here. `GetTokenName` is
the API's.
-/

namespace Nephio.Controllers.Token

/-- The Secret of an access token. -/
structure Secret where
  key : ObjectKey
  annotations : List (String × String)
  username : String
  password : Nat
  token : Nat
deriving DecidableEq, Repr

/-- `TokenSpec`, with the annotations of the Token. -/
structure Spec where
  annotations : List (String × String) := []
deriving DecidableEq, Repr

/-- The Secrets, and the access tokens of the git server with their values. -/
structure Git where
  secrets : List Secret := []
  tokens : List (String × Nat) := []
  next : Nat := 0
deriving DecidableEq, Repr

/-- How the calls for a token end. -/
structure Calls where
  deleteAccessToken : Reply := .done
  listAccessTokens : Option ApiError := none
  getMyUserInfo : Except ApiError String := .ok "nephio"
  createAccessToken : Reply := .done
  getSecret : Option ApiError := none
  writeSecret : Reply := .done

variable (getTokenName : ObjectKey → String)

/-- `DeleteAccessToken`: the git server answers with an error where there is no such token. -/
def Git.deleteAccessToken (g : Git) (reply : Reply) (name : String) : Option ApiError × Git :=
  match Keyed.lookup Prod.fst name g.tokens with
  | none => (some { msg := "token not found" }, g)
  | some _ =>
    (reply.error,
      if reply.applied then { g with tokens := Keyed.drop Prod.fst name g.tokens } else g)

/-- `CreateAccessToken`. -/
def Git.createAccessToken (g : Git) (reply : Reply) (name : String) : Except ApiError Nat × Git :=
  match Keyed.lookup Prod.fst name g.tokens with
  | some _ => (.error { msg := "access token name has been used already" }, g)
  | none =>
    (match reply.error with
      | some err => .error err
      | none => .ok g.next,
      if reply.applied then
        { g with tokens := Keyed.upsert Prod.fst (name, g.next) g.tokens, next := g.next + 1 }
      else g)

/-- `Apply` of the Secret: it is created, or patched where it exists. -/
def Git.apply (g : Git) (calls : Calls) (secret : Secret) : Option String × Git :=
  match calls.getSecret with
  | some err => (wrap (some err) "cannot get object", g)
  | none =>
    let msg :=
      match Keyed.lookup Secret.key secret.key g.secrets with
      | none => "cannot create object"
      | some _ => "cannot patch object"
    (wrap calls.writeSecret.error msg,
      if calls.writeSecret.applied then
        { g with secrets := Keyed.upsert Secret.key secret g.secrets }
      else g)

/-- `createToken`. -/
def createToken (calls : Calls) (cr : GitResource.Resource Spec) (g : Git) :
    Except String (GitResource.Resource Spec) × Git :=
  match calls.listAccessTokens with
  | some err => (.error err.msg, g)
  | none =>
    let tokenFound := (Keyed.lookup Prod.fst (getTokenName cr.key) g.tokens).isSome
    if tokenFound then (.ok cr, g)
    else
      match calls.getMyUserInfo with
      | .error err => (.error err.msg, g)
      | .ok userName =>
        let created := g.createAccessToken calls.createAccessToken (getTokenName cr.key)
        match created.1 with
        | .error err => (.error err.msg, created.2)
        | .ok token =>
          let applied := created.2.apply calls
            { key := cr.key, annotations := cr.spec.annotations
              username := userName, password := token, token := token }
          match applied.1 with
          | some err => (.error err, applied.2)
          | none => (.ok cr, applied.2)

/-- `deleteToken`. -/
def deleteToken (calls : Calls) (cr : GitResource.Resource Spec) (g : Git) : Option String × Git :=
  let deleted := g.deleteAccessToken calls.deleteAccessToken (getTokenName cr.key)
  (deleted.1.map ApiError.msg, deleted.2)

def actions : GitResource.Actions Spec Git Calls where
  delete := deleteToken getTokenName
  ensure := createToken getTokenName
  cannotGet := { requeue := true }

/-- `Reconcile`. -/
def reconcile (call : GitResource.Call Calls) (w : GitResource.World Spec Git) :
    GitResource.Outcome Spec Git :=
  GitResource.reconcile (actions getTokenName) call w

end Nephio.Controllers.Token
