import Nephio.Data.Keyed
import Nephio.Kptfile.ConditionType

/-!
# The objects of a package

What the sdk reads and writes of a `fn.KubeObject`. `V` stands for the YAML values the sdk hands
through without looking inside: it compares two specs and does nothing else with them.
-/

namespace Nephio

/-- `specializer.nephio.org/owner`: the condition type of the resource that owns the object. -/
def specializerOwner : String := "specializer.nephio.org/owner"

/-- `specializer.nephio.org/delete`: the sdk asks the child's function to delete it. -/
def specializerDelete : String := "specializer.nephio.org/delete"

/-- `fn.KubeObject`. `spec` is `none` where `NestedResource` does not read a mapping at `spec`: the
field is absent or holds something else. `rest` is the remainder of the document. -/
structure KubeObject (V : Type) where
  apiVersion : String
  kind : String
  ns : String := ""
  name : String
  annotations : List (String × String) := []
  spec : Option V := none
  status : Option V := none
  rest : List (String × V) := []
deriving DecidableEq, Repr

namespace KubeObject

variable {V : Type}

/-- The reference the sdk files an object under. The namespace is not part of it. -/
def ref (o : KubeObject V) : ObjectReference :=
  { apiVersion := o.apiVersion, kind := o.kind, name := o.name }

/-- What `UpsertObjectToItems` tells objects apart by: `apiVersion`, `kind`, namespace, `name`. -/
def id (o : KubeObject V) : String × String × String × String :=
  (o.apiVersion, o.kind, o.ns, o.name)

/-- Whether an annotation is set. -/
def hasAnnotation (o : KubeObject V) (k : String) : Bool :=
  (Keyed.lookup Prod.fst k o.annotations).isSome

/-- `GetAnnotation`: the empty text when the annotation is not set. -/
def getAnnotation (o : KubeObject V) (k : String) : String :=
  ((Keyed.lookup Prod.fst k o.annotations).map Prod.snd).getD ""

/-- `SetAnnotation`. -/
def setAnnotation (o : KubeObject V) (k v : String) : KubeObject V :=
  { o with annotations := Keyed.upsert Prod.fst (k, v) o.annotations }

/-- The owner annotation. -/
def owner (o : KubeObject V) : String := o.getAnnotation specializerOwner

/-- The object is marked for deletion. -/
def marked (o : KubeObject V) : Bool := o.hasAnnotation specializerDelete

/-- `IsGVKNNEqual`: despite its name it does not compare namespaces. -/
def isGVKNNEqual (a b : KubeObject V) : Bool :=
  a.apiVersion = b.apiVersion ∧ a.kind = b.kind ∧ a.name = b.name

end KubeObject

/-- `ResourceList.UpsertObjectToItems` with replacement: the item with the same `apiVersion`, `kind`,
namespace and `name` is replaced, else the object is appended. -/
def upsertObjectToItems {V : Type} (o : KubeObject V) (items : List (KubeObject V)) :
    List (KubeObject V) :=
  Keyed.upsert KubeObject.id o items

end Nephio
