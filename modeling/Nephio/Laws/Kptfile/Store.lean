import Nephio.Data.Fallible
import Nephio.Data.OrderedMap
import Nephio.Kptfile.Kptfile
import Nephio.Laws.Go.Slice

/-!
# Laws.Kptfile.Store: the conditions as an insertion-ordered map

A Kptfile whose condition types are distinct is a map from types to conditions that remembers the
order of insertion. Each call that writes conditions is a write of that map (`Call.run_store`), so
the types stay distinct over any sequence of calls and no call panics.
-/

namespace Nephio.KptFile

/-- A call that writes conditions. -/
inductive Call where
  | setConditions (ncs : List Condition)
  | deleteCondition (ct : String)
  | setConditionRefFailed (ref : ObjectReference) (msg : String)
deriving DecidableEq

def Call.run (k : KptFile) : Call → Except Go.Panic KptFile
  | .setConditions ncs => .ok (k.setConditions ncs)
  | .deleteCondition ct => k.deleteCondition ct
  | .setConditionRefFailed ref msg => .ok (k.setConditionRefFailed ref msg)

def types (k : KptFile) : List String := Keyed.keys Condition.type k.conditions

/-- The conditions by their types. -/
def store (k : KptFile) (h : k.types.Nodup) : OrderedMap String Condition :=
  .ofList Condition.type k.conditions h

/-- What a call does to the map. -/
def Call.apply (m : OrderedMap String Condition) : Call → OrderedMap String Condition
  | .setConditions ncs => ncs.foldl (fun m nc => m.insert nc.type nc) m
  | .deleteCondition ct => m.erase ct
  | .setConditionRefFailed ref msg =>
    match m.entry (getConditionType ref) with
    | some c => m.insert (getConditionType ref) { c with message := msg, status := .conditionFalse }
    | none =>
      m.insert (getConditionType ref)
        { type := getConditionType ref, status := .conditionFalse, message := msg }

/-- With distinct types `DeleteCondition` drops the condition of a type. -/
theorem deleteCondition_eq_drop {k : KptFile} (ct : String) (h : k.types.Nodup) :
    k.deleteCondition ct = .ok { k with conditions := Keyed.drop Condition.type ct k.conditions } := by
  have honce : (k.conditions.filter fun c => c.type = ct).length ≤ 1 := by
    have hfilter : ((k.conditions.filter fun c => c.type = ct).map Condition.type).Nodup :=
      h.sublist (List.filter_sublist.map _)
    have hrep : (k.conditions.filter fun c => c.type = ct).map Condition.type =
        List.replicate (k.conditions.filter fun c => c.type = ct).length ct := by
      rw [List.eq_replicate_iff]
      simp only [List.length_map, true_and, List.mem_map, List.mem_filter, decide_eq_true_eq]
      rintro t ⟨c, ⟨-, hc⟩, rfl⟩
      exact hc
    rw [hrep, List.nodup_replicate] at hfilter
    exact hfilter
  rw [deleteCondition, Go.removeLoop_eq_filter honce]
  simp only [Keyed.drop, decide_not]
  rfl

section Call

variable {k : KptFile} (h : k.types.Nodup)

theorem setConditions_store (ncs : List Condition) :
    ∃ h' : (k.setConditions ncs).types.Nodup,
      (k.setConditions ncs).store h' = ncs.foldl (fun m nc => m.insert nc.type nc) (k.store h) := by
  induction ncs generalizing k with
  | nil => exact ⟨h, rfl⟩
  | cons nc ncs ih =>
    have hnext : (k.setConditions [nc]).types.Nodup := Keyed.nodup_keys_upsert _ h nc
    have hstore : (k.setConditions [nc]).store hnext = (k.store h).insert nc.type nc :=
      OrderedMap.ofList_upsert Condition.type h hnext
    obtain ⟨h', hrest⟩ := ih hnext
    rw [hstore] at hrest
    exact ⟨h', hrest⟩

/-- **Every call is a write of the map**: it does not panic and the types stay distinct. -/
theorem Call.run_store (call : Call) :
    ∃ k', call.run k = .ok k' ∧ ∃ h' : k'.types.Nodup, k'.store h' = call.apply (k.store h) := by
  cases call with
  | setConditions ncs => exact ⟨_, rfl, setConditions_store h ncs⟩
  | deleteCondition ct =>
    refine ⟨_, deleteCondition_eq_drop ct h, Keyed.nodup_keys_drop _ h ct, ?_⟩
    exact OrderedMap.ofList_drop Condition.type h _
  | setConditionRefFailed ref msg =>
    refine ⟨_, rfl, ?_⟩
    obtain ⟨h', hstore⟩ := setConditions_store h
      [failedCondition (getConditionType ref) msg (k.getCondition (getConditionType ref))]
    refine ⟨h', hstore.trans ?_⟩
    have hentry : (k.store h).entry (getConditionType ref) =
      k.getCondition (getConditionType ref) := rfl
    simp only [List.foldl_cons, List.foldl_nil, Call.apply, hentry]
    cases hc : k.getCondition (getConditionType ref) with
    | none => rfl
    | some c =>
      have htype : c.type = getConditionType ref := Keyed.key_of_lookup Condition.type hc
      simp only [failedCondition, htype]

/-- The types that no call deletes keep their order. -/
theorem Call.order_apply (m : OrderedMap String Condition) (call : Call) :
    (m.order.filter fun t => .deleteCondition t ≠ call).Sublist (call.apply m).order := by
  have hinsert : ∀ (m : OrderedMap String Condition) t c, m.order.Sublist (m.insert t c).order := by
    intro m t c
    show m.order.Sublist (if t ∈ m.order then m.order else m.order ++ [t])
    split_ifs
    · exact List.Sublist.refl _
    · exact List.sublist_append_left _ _
  cases call with
  | setConditions ncs =>
    refine List.filter_sublist.trans ?_
    unfold Call.apply
    induction ncs generalizing m with
    | nil => exact List.Sublist.refl _
    | cons nc ncs ih => exact (hinsert m _ _).trans (ih _)
  | deleteCondition ct =>
    show List.Sublist _ (m.order.filter (· ≠ ct))
    have hfilter : m.order.filter (fun t => .deleteCondition t ≠ Call.deleteCondition ct) =
        m.order.filter (· ≠ ct) := by
      simp only [ne_eq, Call.deleteCondition.injEq]
    rw [hfilter]
  | setConditionRefFailed ref msg =>
    refine List.filter_sublist.trans ?_
    simp only [Call.apply]
    split
    · exact hinsert m _ _
    · exact hinsert m _ _

end Call

/-- **The condition store is an insertion-ordered map** over any sequence of calls. -/
theorem run_calls_store (k : KptFile) (h : k.types.Nodup) (calls : List Call) :
    ∃ k', calls.foldlM Call.run k = .ok k' ∧ k'.types.Nodup ∧
      (∀ t, k'.getCondition t = (calls.foldl Call.apply (k.store h)).entry t) ∧
      k'.types = (calls.foldl Call.apply (k.store h)).order ∧
      (k.types.filter fun t => .deleteCondition t ∉ calls).Sublist k'.types := by
  induction calls generalizing k with
  | nil =>
    refine ⟨k, rfl, h, fun _ => rfl, rfl, ?_⟩
    exact List.filter_sublist
  | cons call calls ih =>
    obtain ⟨k₁, hrun, h₁, hstore⟩ := call.run_store h
    obtain ⟨k', hcalls, hnodup, hentry, horder, hkept⟩ := ih k₁ h₁
    rw [hstore] at hentry horder
    refine ⟨k', ?_, hnodup, hentry, horder, List.Sublist.trans ?_ hkept⟩
    · rw [List.foldlM_cons, hrun]
      exact hcalls
    · -- what no later call deletes is a part of what this call leaves
      have hfirst : (k.types.filter fun t => .deleteCondition t ≠ call).Sublist k₁.types := by
        have hleft := Call.order_apply (k.store h) call
        rw [← hstore] at hleft
        exact hleft
      have hsplit : k.types.filter (fun t => .deleteCondition t ∉ call :: calls) =
          (k.types.filter fun t => .deleteCondition t ≠ call).filter
            fun t => .deleteCondition t ∉ calls := by
        rw [List.filter_filter]
        simp only [List.mem_cons, not_or, Bool.decide_and, ne_eq, Bool.and_comm]
      rw [hsplit]
      exact hfirst.filter _

/-- A type that is deleted and set again comes last. -/
theorem deleted_type_comes_last :
    ∃ k', [.deleteCondition "a", .setConditions [{ type := "a", status := .conditionTrue }]].foldlM
        Call.run { conditions := [{ type := "a", status := .conditionFalse },
          { type := "b", status := .conditionTrue }] } = .ok k' ∧
      k'.types = ["b", "a"] ∧ k'.getCondition "a" = some { type := "a", status := .conditionTrue } := by
  obtain ⟨k', hrun, -, hentry, horder, -⟩ := run_calls_store
    { conditions := [{ type := "a", status := .conditionFalse },
      { type := "b", status := .conditionTrue }] } (by decide)
    [.deleteCondition "a", .setConditions [{ type := "a", status := .conditionTrue }]]
  exact ⟨k', hrun, horder.trans rfl, (hentry "a").trans rfl⟩

end Nephio.KptFile
