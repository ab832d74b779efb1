import Nephio.Kptfile.Kptfile

/-!
# The document under a Kptfile

`KptFile` holds a YAML object. `GetConditions` and `GetReadinessGates` decode its `status` and `info`
blocks as a whole (`As`) and read an empty list where that fails; the calls that write put the whole
list back (`SetNestedFieldKeepFormatting`). `Y` stands for YAML that does not decode.
-/

namespace Nephio

/-- An entry of a list in the document: one that decodes, or one that does not, with the type that it
names. -/
inductive Entry (E Y : Type) where
  | typed (value : E)
  | raw (type : String) (value : Y)
deriving DecidableEq, Repr

/-- A block with its list. `restDecodes` says whether its other fields decode; they are not written. -/
structure Block (E Y : Type) where
  entries : List (Entry E Y)
  restDecodes : Bool := true
deriving DecidableEq, Repr

section Block

variable {E Y : Type}

/-- The value of an entry that decodes. -/
def Entry.decode : Entry E Y → Option E
  | .typed value => some value
  | .raw .. => none

/-- `As`: one value of the wrong type fails the block. -/
def Block.as (b : Block E Y) : Option (List E) :=
  if b.restDecodes then b.entries.mapM Entry.decode else none

/-- What is read of the block: nil where it does not decode. -/
def Block.read (b : Block E Y) : List E := b.as.getD []

/-- `SetNestedFieldKeepFormatting` of the list. -/
def Block.setNestedField (b : Block E Y) (values : List E) : Block E Y :=
  { b with entries := values.map .typed }

end Block

/-- The object of a `KptFile`. A readiness gate is its condition type. -/
structure KptFileDocument (Y : Type) where
  status : Block Condition Y
  info : Block String Y
deriving DecidableEq, Repr

namespace KptFileDocument

variable {Y : Type}

/-- What `GetConditions` and `GetReadinessGates` read. -/
def kptfile (d : KptFileDocument Y) : KptFile where
  conditions := d.status.read
  readinessGates := d.info.read

/-- `SetConditions`. -/
def setConditions (d : KptFileDocument Y) (ncs : List Condition) : KptFileDocument Y :=
  { d with status := d.status.setNestedField (d.kptfile.setConditions ncs).conditions }

/-- `DeleteCondition`. -/
def deleteCondition (d : KptFileDocument Y) (ct : String) :
    Except Go.Panic (KptFileDocument Y) := do
  let k ← d.kptfile.deleteCondition ct
  return { d with status := d.status.setNestedField k.conditions }

/-- `SetConditionRefFailed`. -/
def setConditionRefFailed (d : KptFileDocument Y) (ref : ObjectReference) (msg : String) :
    KptFileDocument Y :=
  { d with status := d.status.setNestedField (d.kptfile.setConditionRefFailed ref msg).conditions }

/-- `SetReadinessGates`. -/
def setReadinessGates (d : KptFileDocument Y) (cs : List String) : KptFileDocument Y :=
  { d with info := d.info.setNestedField (d.kptfile.setReadinessGates cs).readinessGates }

end KptFileDocument

end Nephio
