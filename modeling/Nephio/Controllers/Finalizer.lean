import Nephio.Go.Slice

/-!
# Controllers.Finalizer: the finalizers of an object's metadata

The three functions of `resource/finalizer.go` on the list that `GetFinalizers` returns and
`SetFinalizers` writes. The list is what the object happens to hold: nothing here keeps a finalizer
from being listed twice.
-/

namespace Nephio.Controllers

/-- What the functions read and write of a `metav1.Object`. -/
structure ObjectMeta where
  finalizers : List String := []
deriving DecidableEq, Repr

namespace ObjectMeta

/-- `FinalizerExists`. -/
def finalizerExists (o : ObjectMeta) (finalizer : String) : Bool :=
  o.finalizers.any (· = finalizer)

/-- `AddFinalizer`. -/
def addFinalizer (o : ObjectMeta) (finalizer : String) : ObjectMeta :=
  if o.finalizers.any (· = finalizer) then o
  else { o with finalizers := o.finalizers ++ [finalizer] }

/-- `RemoveFinalizer`, with the loop that shrinks the slice it ranges over. -/
def removeFinalizer (o : ObjectMeta) (finalizer : String) : Except Go.Panic ObjectMeta := do
  let f ← Go.removeLoop (fun e => e = finalizer) o.finalizers
  return { o with finalizers := f }

end ObjectMeta

end Nephio.Controllers
