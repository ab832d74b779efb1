import Mathlib

/-!
# Object references

`lib/ref/ref.go`: the references the sdk keys its inventory by, and the checks it makes on them.
Of `corev1.ObjectReference` the repository fills `APIVersion`, `Kind` and `Name` only, so these are
the three fields kept; the others are always empty, and show up only as the empty places of
`ObjectReference.string` and `ObjectReference.format`.
-/

namespace Nephio

/-- `corev1.ObjectReference`. -/
structure ObjectReference where
  apiVersion : String := ""
  kind : String := ""
  name : String := ""
deriving DecidableEq, Repr

namespace ObjectReference

/-- The method `String()` of the generated Kubernetes type: the key `sort.Slice` orders by. -/
def string (o : ObjectReference) : String :=
  "&ObjectReference\x7bKind:" ++ o.kind ++ ",Namespace:,Name:" ++ o.name ++
    ",UID:,APIVersion:" ++ o.apiVersion ++ ",ResourceVersion:,FieldPath:,\x7d"

/-- What `%v` prints for a reference: the fields in declaration order. -/
def format (o : ObjectReference) : String :=
  "\x7b" ++ o.kind ++ "  " ++ o.name ++ "  " ++ o.apiVersion ++ "  \x7d"

/-- `getGVKRefFromGVKNref`: the reference with only `APIVersion` and `Kind`. -/
def gvk (o : ObjectReference) : ObjectReference :=
  { apiVersion := o.apiVersion, kind := o.kind }

end ObjectReference

/-- What `%v` prints for a slice of references. -/
def formatRefs (refs : List ObjectReference) : String :=
  "[" ++ " ".intercalate (refs.map ObjectReference.format) ++ "]"

/-- `GetRefsString`: `Kind/Name` of each reference, separated by blanks. -/
def getRefsString (refs : List ObjectReference) : String :=
  " ".intercalate (refs.map fun o => o.kind ++ "/" ++ o.name)

/-- `ValidateGVKRef`: `apiVersion` and `kind` are set. -/
def validateGVKRef (o : ObjectReference) : Except String Unit :=
  if o.apiVersion = "" ∨ o.kind = "" then
    .error ("gvk not initialized, got: " ++ o.format)
  else .ok ()

/-- `ValidateGVKNRef`: `apiVersion`, `kind` and `name` are set. -/
def validateGVKNRef (o : ObjectReference) : Except String Unit :=
  if o.apiVersion = "" ∨ o.kind = "" ∨ o.name = "" then
    .error ("gvk or name not initialized, got: " ++ o.format)
  else .ok ()

/-- `IsWildCardRef`. -/
def isWildCardRef (o : ObjectReference) : Bool :=
  o.apiVersion = "*" ∧ o.kind = "*"

/-- A reference `ValidateGVKNRef` accepts. -/
def ObjectReference.Named (o : ObjectReference) : Prop :=
  o.apiVersion ≠ "" ∧ o.kind ≠ "" ∧ o.name ≠ ""

instance (o : ObjectReference) : Decidable o.Named :=
  inferInstanceAs (Decidable (_ ∧ _ ∧ _))

/-- `IsRefsValid`: one or two references, each with all three fields set. -/
def isRefsValid (refs : List ObjectReference) : Bool :=
  match refs with
  | [a] => a.Named
  | [a, b] => a.Named ∧ b.Named
  | _ => false

theorem validateGVKNRef_eq_ok {o : ObjectReference} :
    validateGVKNRef o = .ok () ↔ o.Named := by
  unfold validateGVKNRef ObjectReference.Named
  split
  next h => simp only [reduceCtorEq, false_iff]; tauto
  next h => simp only [true_iff]; tauto

end Nephio
