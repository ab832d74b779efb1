import Nephio.Kptfile.Ref

/-!
# Condition types

`lib/kptfile/v1/condition_type.go`: the text a reference is written as. It is the type of the
resource's condition in the Kptfile, the reason of its children's conditions and their owner
annotation, and the inventory is filed by reading it back.
-/

namespace Nephio

/-- `strings.Split` at a one-character separator. -/
def split (s : String) (sep : Char) : List String :=
  (s.toList.splitOn sep).map String.ofList

/-- `schema.GroupVersion` of the Kubernetes libraries. -/
structure GroupVersion where
  group : String
  version : String
deriving DecidableEq

/-- `schema.ParseGroupVersion`: split at a single `/`; without one there is no group, and with more
than one the text is refused. -/
def parseGroupVersion (gv : String) : Except String GroupVersion :=
  if gv = "" ∨ gv = "/" then .ok ⟨"", ""⟩
  else
    match split gv '/' with
    | [version] => .ok ⟨"", version⟩
    | [group, version] => .ok ⟨group, version⟩
    | _ => .error ("unexpected GroupVersion string: " ++ gv)

/-- `GroupVersion.String`. -/
def GroupVersion.string (gv : GroupVersion) : String :=
  if gv.group ≠ "" then gv.group ++ "/" ++ gv.version else gv.version

/-- Append a part to the builder, after a `.` when the builder holds something; an empty part is
left out. -/
def writePart (sb part : String) : String :=
  if part ≠ "" then (if sb ≠ "" then sb ++ "." else sb) ++ part else sb

/-- The `apiVersion` part of a condition type: nothing when it is empty or does not parse. -/
def writeAPIVersion (apiVersion : String) : String :=
  if apiVersion ≠ "" then
    match parseGroupVersion apiVersion with
    | .ok gv => gv.string
    | .error _ => ""
  else ""

/-- `GetConditionType`. -/
def getConditionType (o : ObjectReference) : String :=
  writePart (writePart (writeAPIVersion o.apiVersion) o.kind) o.name

/-- The second half of `GetGVKNFromConditionType`: `version.kind.name` under a group, else the empty
reference. -/
def readVKN (group vkn : String) : ObjectReference :=
  match split vkn '.' with
  | [version, kind, name] => { apiVersion := group ++ "/" ++ version, kind := kind, name := name }
  | _ => {}

/-- `GetGVKNFromConditionType`. What follows a second `/` is dropped. -/
def getGVKNFromConditionType (ct : String) : ObjectReference :=
  match split ct '/' with
  | group :: vkn :: _ => readVKN group vkn
  | _ => readVKN "" ct

/-! ## The documented form

`GetGVKNFromConditionType` "expects an APIVersion with a / as a.b/c and a kind + name". -/

/-- `apiVersion` is `group/version`, and version, kind and name hold neither a `.` nor a `/`. -/
structure ObjectReference.Documented (o : ObjectReference) : Prop where
  grouped : ∃ group version : String, o.apiVersion = group ++ "/" ++ version ∧ group ≠ "" ∧
    version ≠ "" ∧ '/' ∉ group.toList ∧ '/' ∉ version.toList ∧ '.' ∉ version.toList
  kind_ne : o.kind ≠ ""
  kind_slash : '/' ∉ o.kind.toList
  kind_dot : '.' ∉ o.kind.toList
  name_ne : o.name ≠ ""
  name_slash : '/' ∉ o.name.toList
  name_dot : '.' ∉ o.name.toList

end Nephio
