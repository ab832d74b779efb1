import Nephio.Data.Keyed
import Nephio.Data.Runs

/-!
# The servers that the controllers call

A Reconcile reads and writes objects of an API server, or of a git server, and any of these calls may
fail. How the calls of one Reconcile end is an input of its model.
-/

namespace Nephio.Controllers

/-- An error of a call. -/
structure ApiError where
  msg : String
  isNotFound : Bool := false
deriving DecidableEq, Repr

/-- `resource.IgnoreNotFound`. -/
def ignoreNotFound (err : ApiError) : Option ApiError := if err.isNotFound then none else some err

/-- `errors.Wrap`: nil stays nil. -/
def wrap (err : Option ApiError) (msg : String) : Option String :=
  err.map fun err => msg ++ ": " ++ err.msg

/-- How a call that writes ends: it succeeds, it fails and nothing has changed, or the server has
changed and the answer is lost. -/
inductive Reply where
  | done
  | refused (err : ApiError)
  | lost (err : ApiError)
deriving DecidableEq, Repr

namespace Reply

/-- The error that the caller sees. -/
def error : Reply → Option ApiError
  | done => none
  | refused err => some err
  | lost err => some err

/-- Whether the server has changed. -/
def applied : Reply → Bool
  | done => true
  | refused _ => false
  | lost _ => true

theorem applied_of_error {reply : Reply} (h : reply.error = none) : reply.applied = true := by
  cases reply with
  | done => rfl
  | refused err => cases h
  | lost err => cases h

end Reply

/-- `ctrl.Result`. Durations are in nanoseconds. -/
structure Result where
  requeue : Bool := false
  requeueAfter : Int := 0
deriving DecidableEq, Repr

/-- `types.NamespacedName`. -/
structure ObjectKey where
  «namespace» : String
  name : String
deriving DecidableEq, Repr

/-- A status condition of an API object, as far as it is read. -/
structure StatusCondition where
  type : String
  status : String
deriving DecidableEq, Repr

end Nephio.Controllers
