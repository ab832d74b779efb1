import Nephio.Data.Fallible
import Nephio.Kptfile.Document
import Nephio.Laws.Go.Slice

/-!
# Laws.Kptfile.Document: what a write keeps of the document

A call reads a list, changes it and writes all of it. Where the block does not decode the list that
is read is empty, so that every entry of another type is gone. `keeps_others_iff` says that this is
the only way to lose one, apart from the panic of `DeleteCondition`.
-/

namespace Nephio

section Block

variable {E Y : Type} (key : E → String)

/-- The type of an entry. -/
def Entry.type : Entry E Y → String
  | .typed value => key value
  | .raw type _ => type

/-- The entries of types that are not mentioned are kept. -/
def Block.Keeps (mentioned : List String) (b b' : Block E Y) : Prop :=
  ∀ e ∈ b.entries, e.type key ∉ mentioned → e ∈ b'.entries

theorem mapM_decode_eq_some {entries : List (Entry E Y)} {values : List E} :
    entries.mapM Entry.decode = some values ↔ entries = values.map .typed := by
  induction entries generalizing values with
  | nil =>
    rw [List.mapM_nil]
    cases values with
    | nil => exact iff_of_true rfl rfl
    | cons v vs => exact iff_of_false nofun nofun
  | cons e entries ih =>
    rw [List.mapM_cons]
    cases e with
    | raw type value =>
      refine iff_of_false nofun fun h => ?_
      cases values with
      | nil => cases h
      | cons v vs => cases (List.cons.inj h).1
    | typed value =>
      have hcons : ∀ vs : List E, entries.mapM Entry.decode = some vs →
          (do let v ← Entry.decode (.typed value : Entry E Y)
              let vs ← entries.mapM Entry.decode
              pure (v :: vs)) = some (value :: vs) := by
        intro vs hvs
        rw [hvs]
        rfl
      constructor
      · intro h
        cases hrest : entries.mapM Entry.decode with
        | none =>
          rw [hrest] at h
          cases h
        | some vs =>
          rw [hcons vs hrest] at h
          rw [← Option.some.inj h, List.map_cons, ih.mp hrest]
      · intro h
        cases values with
        | nil => cases h
        | cons v vs =>
          rw [List.map_cons] at h
          obtain ⟨hv, hvs⟩ := List.cons.inj h
          rw [hcons vs (ih.mpr hvs), Entry.typed.inj hv]

/-- A write keeps what it reads, so that the rest is kept where the block decodes or where there is
nothing else. -/
theorem Block.keeps_setNestedField_iff {mentioned : List String} {b : Block E Y} {values : List E}
    (hkeep : ∀ value ∈ b.read, key value ∉ mentioned → value ∈ values)
    (hnew : b.as = none → ∀ value ∈ values, key value ∈ mentioned) :
    b.Keeps key mentioned (b.setNestedField values) ↔
      b.as.isSome ∨ ∀ e ∈ b.entries, e.type key ∈ mentioned := by
  cases has : b.as with
  | some read =>
    refine iff_of_true (fun e he hother => ?_) (Or.inl rfl)
    have hentries : b.entries = read.map .typed := by
      unfold Block.as at has
      split_ifs at has
      exact mapM_decode_eq_some.mp has
    rw [hentries] at he
    obtain ⟨value, hvalue, rfl⟩ := List.mem_map.mp he
    have hread : value ∈ b.read := by
      rw [Block.read, has]
      exact hvalue
    exact List.mem_map_of_mem (hkeep value hread hother)
  | none =>
    constructor
    · intro hkeeps
      right
      intro e he
      by_contra hother
      obtain ⟨value, hvalue, rfl⟩ := List.mem_map.mp (hkeeps e he hother)
      exact hother (hnew has value hvalue)
    · rintro (hsome | hall)
      · cases hsome
      · exact fun e he hother => absurd (hall e he) hother

end Block

namespace KptFileDocument

variable {Y : Type}

/-- A call that writes the document. -/
inductive Call where
  | setConditions (ncs : List Condition)
  | deleteCondition (ct : String)
  | setConditionRefFailed (ref : ObjectReference) (msg : String)
  | setReadinessGates (cs : List String)

namespace Call

/-- The call: it panics, returns an error or leaves a document. -/
def run (d : KptFileDocument Y) : Call → Except Go.Panic (Except String (KptFileDocument Y))
  | .setConditions ncs => .ok (.ok (d.setConditions ncs))
  | .deleteCondition ct => do return .ok (← d.deleteCondition ct)
  | .setConditionRefFailed ref msg => .ok (.ok (d.setConditionRefFailed ref msg))
  | .setReadinessGates cs => .ok (.ok (d.setReadinessGates cs))

/-- The types that a call mentions. -/
def mentioned : Call → List String
  | .setConditions ncs => ncs.map Condition.type
  | .deleteCondition ct => [ct]
  | .setConditionRefFailed ref _ => [getConditionType ref]
  | .setReadinessGates cs => cs

/-- The conditions, or the gates for `SetReadinessGates`, of other types are all kept. -/
def KeepsOthers (d d' : KptFileDocument Y) : Call → Prop
  | .setReadinessGates cs => d.info.Keeps id cs d'.info
  | call => d.status.Keeps Condition.type call.mentioned d'.status

/-- The block that a call writes decodes. -/
def Decodes (d : KptFileDocument Y) : Call → Prop
  | .setReadinessGates _ => d.info.as.isSome
  | _ => d.status.as.isSome

/-- The block that a call writes has only entries that the call mentions. -/
def NoOthers (d : KptFileDocument Y) : Call → Prop
  | .setReadinessGates cs => ∀ e ∈ d.info.entries, e.type id ∈ cs
  | call => ∀ e ∈ d.status.entries, e.type Condition.type ∈ call.mentioned

end Call

theorem mem_setConditions {k : KptFile} {ncs : List Condition} {c : Condition}
    (hc : c ∈ k.conditions) (hother : c.type ∉ ncs.map Condition.type) :
    c ∈ (k.setConditions ncs).conditions := by
  induction ncs generalizing k with
  | nil => exact hc
  | cons nc ncs ih =>
    rw [List.map_cons, List.mem_cons, not_or] at hother
    have hnext : c ∈ (k.setConditions [nc]).conditions :=
      (Keyed.mem_upsert_of_ne Condition.type hother.1).mpr hc
    exact ih hnext hother.2

/-- Written over nothing, the conditions are those of the call. -/
theorem type_mem_of_setConditions {k : KptFile} (hk : k.conditions = []) {ncs : List Condition}
    {c : Condition} (hc : c ∈ (k.setConditions ncs).conditions) :
    c.type ∈ ncs.map Condition.type := by
  have hall : c ∈ Keyed.upsertAll Condition.type ncs k.conditions := hc
  rw [hk] at hall
  rcases Keyed.mem_of_mem_upsertAll Condition.type hall with hc | hc
  · exact List.mem_map_of_mem hc
  · cases hc

theorem mem_setReadinessGates {k : KptFile} {cs : List String} {gate : String} :
    gate ∈ (k.setReadinessGates cs).readinessGates ↔ gate ∈ k.readinessGates ∨ gate ∈ cs := by
  unfold KptFile.setReadinessGates
  simp only
  generalize k.readinessGates = gates
  induction cs generalizing gates with
  | nil => simp only [List.foldl_nil, List.not_mem_nil, or_false]
  | cons c cs ih =>
    rw [List.foldl_cons, ih, List.mem_cons]
    split_ifs with hc
    · have hmem : c ∈ gates := List.contains_iff_mem.mp hc
      constructor
      · rintro (h | h)
        · exact Or.inl h
        · exact Or.inr (Or.inr h)
      · rintro (h | rfl | h)
        · exact Or.inl h
        · exact Or.inl hmem
        · exact Or.inr h
    · rw [List.mem_append, List.mem_singleton, or_assoc]

theorem read_of_as_none {E : Type} {b : Block E Y} (h : b.as = none) : b.read = [] := by
  rw [Block.read, h]
  rfl

/-- What a call that returns keeps. -/
theorem Call.keepsOthers_iff {call : Call} {d d' : KptFileDocument Y}
    (h : call.run d = .ok (.ok d')) :
    call.KeepsOthers d d' ↔ call.Decodes d ∨ call.NoOthers d := by
  cases call with
  | setConditions ncs =>
    cases h
    refine Block.keeps_setNestedField_iff Condition.type (fun c hc hother => ?_) fun hnone c hc => ?_
    · exact mem_setConditions hc hother
    · exact type_mem_of_setConditions (read_of_as_none hnone) hc
  | deleteCondition ct =>
    obtain ⟨d₁, hd₁, hret⟩ := Fallible.bind_eq_ok.mp h
    cases hret
    obtain ⟨k, hk, hret⟩ := Fallible.bind_eq_ok.mp hd₁
    cases hret
    obtain ⟨ecs, hloop, hret⟩ := Fallible.bind_eq_ok.mp hk
    cases hret
    refine Block.keeps_setNestedField_iff Condition.type (fun c hc hother => ?_) fun hnone c hc => ?_
    · have hne : c.type ≠ ct := fun heq => hother (List.mem_singleton.mpr heq)
      have hmem : c ∈ d.status.read.filter fun c => !decide (c.type = ct) :=
        List.mem_filter.mpr ⟨hc, by simpa using hne⟩
      have hfilter := Go.filter_removeLoop hloop
      rw [show d.kptfile.conditions = d.status.read from rfl] at hfilter
      rw [← hfilter] at hmem
      exact (List.mem_filter.mp hmem).1
    · rw [show d.kptfile.conditions = d.status.read from rfl, read_of_as_none hnone] at hloop
      cases hloop
      cases hc
  | setConditionRefFailed ref msg =>
    cases h
    have htype : ∀ k : KptFile, (KptFile.failedCondition (getConditionType ref) msg
        (k.getCondition (getConditionType ref))).type = getConditionType ref := by
      intro k
      cases hc : k.getCondition (getConditionType ref) with
      | none => rfl
      | some c => exact (Keyed.key_of_lookup Condition.type hc : c.type = _)
    refine Block.keeps_setNestedField_iff Condition.type (fun c hc hother => ?_) fun hnone c hc => ?_
    · refine mem_setConditions hc ?_
      rw [List.map_cons, List.map_nil, htype]
      exact hother
    · have hmem := type_mem_of_setConditions (read_of_as_none hnone) hc
      rw [List.map_cons, List.map_nil, htype] at hmem
      exact hmem
  | setReadinessGates cs =>
    cases h
    refine Block.keeps_setNestedField_iff id (fun c hc _ => ?_) fun hnone c hc => ?_
    · exact mem_setReadinessGates.mpr (Or.inl hc)
    · rcases mem_setReadinessGates.mp hc with hgate | hgate
      · rw [show d.kptfile.readinessGates = d.info.read from rfl, read_of_as_none hnone] at hgate
        cases hgate
      · exact hgate

/-- No call returns an error. -/
theorem Call.run_ne_error (call : Call) (d : KptFileDocument Y) (err : String) :
    call.run d ≠ .ok (.error err) := by
  cases call with
  | deleteCondition ct =>
    intro h
    obtain ⟨d₁, -, hret⟩ := Fallible.bind_eq_ok.mp h
    cases hret
  | _ => nofun

/-- A Kptfile with a condition whose status is an unquoted boolean. -/
def unquotedDocument : KptFileDocument Bool where
  status := { entries := [.typed { type := "a", status := .conditionTrue }, .raw "b" true] }
  info := { entries := [] }

end KptFileDocument

end Nephio
