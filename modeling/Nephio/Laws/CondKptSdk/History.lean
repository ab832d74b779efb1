import Nephio.Laws.CondKptSdk.Tree

/-!
# The inventory is a two-level map

The abstract inventory is the list of the calls that were made: a reference holds the last condition,
the last existing and new object, and the last failed flag that was written to it (`recorded`), and it
is there once it was written, or once something was written below it. The wildcard reads of the tree
list exactly that (`inventory_reads`), and a call changes what is read of one reference only.

Nothing is said of a read below the empty reference, which `get` takes for a wildcard.
-/

namespace Nephio.CondKptSdk

variable {V : Type}

/-- A call that writes. -/
inductive InvCall (V : Type) where
  | set (kc : GvkKindCtx V) (refs : List ObjectReference) (x : Filed V) (newResource failed : Bool)
  | delete (kc : GvkKindCtx V) (refs : List ObjectReference)

namespace InvCall

/-- Carry a call out. One that returns an error changes nothing. -/
def run (c : InvCall V) (inv : Inv V) : Inv V :=
  match c with
  | set kc refs x newResource failed =>
    match inv.set kc refs x newResource failed with
    | .ok inv' => inv'
    | .error _ => inv
  | delete kc refs =>
    match inv.delete kc refs with
    | .ok inv' => inv'
    | .error _ => inv

/-- Carry calls out, first call first. -/
def runAll (calls : List (InvCall V)) (inv : Inv V) : Inv V :=
  calls.foldl (fun inv c => c.run inv) inv

/-- The path of a call, if the references make one. -/
def path : InvCall V → Option (List SdkObjectReference)
  | set kc refs _ _ _ => (getSdkRefs kc.gvkKind refs).toOption
  | delete kc refs => (getSdkRefs kc.gvkKind refs).toOption

/-! ## What calls record -/

/-- The condition that a call leaves. -/
def condition : InvCall V → Option (Option Condition)
  | set _ _ (.condition c) _ _ => some (some c)
  | set _ _ (.object _) _ _ => none
  | delete _ _ => some none

/-- The kind that a call writes. A condition has none. -/
def kind : InvCall V → Option (GvkKindCtx V)
  | set kc _ (.object _) _ _ => some kc
  | _ => none

/-- The existing object that a call writes. -/
def existing : InvCall V → Option (KubeObject V)
  | set _ _ (.object o) false _ => some o
  | _ => none

/-- The new object that a call writes. -/
def new : InvCall V → Option (KubeObject V)
  | set _ _ (.object o) true _ => some o
  | _ => none

/-- The flag that a call writes. -/
def failed : InvCall V → Option Bool
  | set _ _ _ _ failed => some failed
  | delete _ _ => none

end InvCall

/-- The last of what calls write. -/
def lastOf {α : Type} (f : InvCall V → Option α) (calls : List (InvCall V)) : Option α :=
  (calls.filterMap f).getLast?

/-- **The abstract inventory**: what calls leave at a path. -/
def recorded (calls : List (InvCall V)) (p : List SdkObjectReference) : ResourceCtx V :=
  let here := calls.filter (·.path = some p)
  { kindCtx := lastOf InvCall.kind here
    existingCondition := (lastOf InvCall.condition here).join
    existingResource := lastOf InvCall.existing here
    newResource := lastOf InvCall.new here
    failed := (lastOf InvCall.failed here).getD false }

/-- A path was written. -/
def WrittenAt (calls : List (InvCall V)) (p : List SdkObjectReference) : Prop :=
  ∃ kc refs x newResource failed,
    .set kc refs x newResource failed ∈ calls ∧ getSdkRefs kc.gvkKind refs = .ok p

/-! ## The tree refines it -/

namespace InvCall

/-- What a call writes to the tree. -/
def writes : InvCall V → List (TreeWrite V)
  | c@(set kc _ x newResource failed) =>
    (c.path.map fun p => TreeWrite.set kc x newResource failed p).toList
  | c@(delete _ _) => (c.path.map TreeWrite.clear).toList

theorem path_set_iff {kc : GvkKindCtx V} {refs : List ObjectReference} {x : Filed V}
    {newResource failed : Bool} {p : List SdkObjectReference} :
    (set kc refs x newResource failed).path = some p ↔ getSdkRefs kc.gvkKind refs = .ok p := by
  rw [path]
  cases getSdkRefs kc.gvkKind refs with
  | error e => exact iff_of_false nofun nofun
  | ok q => exact (Option.some.injEq q p).to_iff.trans (Except.ok.injEq q p).to_iff.symm

theorem run_eq (c : InvCall V) (inv : Inv V) : c.run inv = inv.write c.writes := by
  cases c with
  | set kc refs x newResource failed =>
    simp only [run, Inv.set, writes, path]
    cases getSdkRefs kc.gvkKind refs <;> rfl
  | delete kc refs =>
    simp only [run, Inv.delete, writes, path]
    cases getSdkRefs kc.gvkKind refs with
    | error e => rfl
    | ok p =>
      show (match (do let r ← inv.resources.delete p; return { inv with resources := r }) with
        | .ok inv' => inv'
        | .error _ => inv) = { inv with resources := (TreeWrite.clear p).apply inv.resources }
      rw [TreeWrite.apply]
      cases inv.resources.delete p <;> rfl

theorem runAll_concat (calls : List (InvCall V)) (c : InvCall V) (inv : Inv V) :
    runAll (calls ++ [c]) inv = c.run (runAll calls inv) := List.foldl_concat _ _ _ _

end InvCall

theorem lastOf_concat {α : Type} (f : InvCall V → Option α) (calls : List (InvCall V))
    (c : InvCall V) : lastOf f (calls ++ [c]) = (f c).or (lastOf f calls) := by
  rw [lastOf, List.filterMap_append, List.getLast?_append]
  cases hc : f c with
  | none => rw [List.filterMap_cons_none hc]; rfl
  | some a => rw [List.filterMap_cons_some hc]; rfl

theorem recorded_concat_of_ne {calls : List (InvCall V)} {c : InvCall V}
    {p : List SdkObjectReference} (h : c.path ≠ some p) :
    recorded (calls ++ [c]) p = recorded calls p := by
  have hhere : (calls ++ [c]).filter (·.path = some p) = calls.filter (·.path = some p) := by
    rw [List.filter_append, List.filter_cons_of_neg (by simpa using h), List.filter_nil,
      List.append_nil]
  simp only [recorded, hhere]

theorem recorded_concat {calls : List (InvCall V)} {c : InvCall V} {p : List SdkObjectReference}
    (h : c.path = some p) :
    recorded (calls ++ [c]) p = c.writes.foldl (fun ctx w => w.on ctx) (recorded calls p) := by
  have hhere : (calls ++ [c]).filter (·.path = some p) = calls.filter (·.path = some p) ++ [c] := by
    rw [List.filter_append, List.filter_cons_of_pos (by simpa using h), List.filter_nil]
  simp only [recorded, hhere, lastOf_concat]
  cases c with
  | set kc refs x newResource failed =>
    simp only [InvCall.writes, h]
    cases x with
    | condition c => rfl
    | object o => cases newResource <;> rfl
  | delete kc refs =>
    simp only [InvCall.writes, h]
    rfl

theorem path_of_mem_writes {c : InvCall V} {w : TreeWrite V} (h : w ∈ c.writes) :
    c.path = some w.path := by
  cases c with
  | set kc refs x newResource failed =>
    obtain ⟨p, hp, rfl⟩ := Option.map_eq_some_iff.mp (Option.mem_toList.mp h)
    exact hp
  | delete kc refs =>
    obtain ⟨p, hp, rfl⟩ := Option.map_eq_some_iff.mp (Option.mem_toList.mp h)
    exact hp

section Runs

variable {calls : List (InvCall V)} {inv : Inv V}

theorem keysNodup_runAll (h : inv.resources.KeysNodup 2) :
    (InvCall.runAll calls inv).resources.KeysNodup 2 := by
  induction calls using List.reverseRecOn with
  | nil => exact h
  | append_singleton calls c ih =>
    rw [InvCall.runAll_concat, InvCall.run_eq]
    exact TreeWrite.keysNodup_applyAll ih _

/-- A call leaves at its path what it writes on what was there, and the other paths alone. -/
theorem ctxAt_run (c : InvCall V) (inv : Inv V) (p : List SdkObjectReference) :
    (c.run inv).resources.ctxAt p =
      if c.path = some p then c.writes.foldl (fun ctx w => w.on ctx) (inv.resources.ctxAt p)
      else inv.resources.ctxAt p := by
  rw [InvCall.run_eq, Inv.resources_write, TreeWrite.ctxAt_applyAll]
  split_ifs with h
  · rw [List.filter_eq_self.mpr]
    intro w hw
    have hpath := path_of_mem_writes hw
    rw [h] at hpath
    exact decide_eq_true (Option.some.inj hpath).symm
  · rw [List.filter_eq_nil_iff.mpr, List.foldl_nil]
    intro w hw hpath
    exact h ((path_of_mem_writes hw).trans (congrArg some (of_decide_eq_true hpath)))

/-- **The tree holds what the calls record.** -/
theorem ctxAt_runAll (h : inv.resources = .empty) (p : List SdkObjectReference) :
    (InvCall.runAll calls inv).resources.ctxAt p = recorded calls p := by
  induction calls using List.reverseRecOn with
  | nil =>
    show inv.resources.ctxAt p = _
    rw [h]
    exact Resources.find_empty_getD p
  | append_singleton calls c ih =>
    rw [InvCall.runAll_concat, ctxAt_run]
    split_ifs with hpath
    · rw [recorded_concat hpath, ih]
    · rw [recorded_concat_of_ne hpath, ih]

/-- A call sets a path or one below. -/
def InvCall.Makes (p : List SdkObjectReference) : InvCall V → Prop
  | c@(set _ _ _ _ _) => ∃ q, c.path = some q ∧ p <+: q
  | delete _ _ => False

theorem isSome_find_run (c : InvCall V) (inv : Inv V) (p : List SdkObjectReference) :
    ((c.run inv).resources.find p).isSome ↔ (inv.resources.find p).isSome ∨ c.Makes p := by
  rw [InvCall.run_eq, Inv.resources_write, TreeWrite.isSome_find_applyAll]
  refine or_congr_right ?_
  cases c with
  | set kc refs x newResource failed =>
    simp only [InvCall.writes, InvCall.Makes, Option.mem_toList, Option.map_eq_some_iff]
    constructor
    · rintro ⟨w, ⟨q, hq, rfl⟩, hreach⟩
      exact ⟨q, hq, hreach⟩
    · rintro ⟨q, hq, hreach⟩
      exact ⟨_, ⟨q, hq, rfl⟩, hreach⟩
  | delete kc refs =>
    simp only [InvCall.writes, InvCall.Makes, Option.mem_toList, Option.map_eq_some_iff, iff_false]
    rintro ⟨w, ⟨q, -, rfl⟩, hreach⟩
    exact hreach

theorem isSome_find_runAll (h : inv.resources = .empty) {p : List SdkObjectReference} (hp : p ≠ []) :
    ((InvCall.runAll calls inv).resources.find p).isSome ↔ ∃ q, WrittenAt calls q ∧ p <+: q := by
  have hmade : ((InvCall.runAll calls inv).resources.find p).isSome ↔ ∃ c ∈ calls, c.Makes p := by
    induction calls using List.reverseRecOn with
    | nil =>
      show (inv.resources.find p).isSome ↔ _
      rw [h, Resources.find_empty, if_neg hp]
      simp only [Option.isSome_none, Bool.false_eq_true, List.not_mem_nil, false_and, exists_false]
    | append_singleton calls c ih =>
      rw [InvCall.runAll_concat, isSome_find_run, ih]
      simp only [List.mem_append, List.mem_singleton, or_and_right, exists_or, exists_eq_left]
  rw [hmade]
  constructor
  · rintro ⟨c, hc, hmakes⟩
    cases c with
    | set kc refs x newResource failed =>
      obtain ⟨q, hq, hpre⟩ := hmakes
      exact ⟨q, ⟨kc, refs, x, newResource, failed, hc, InvCall.path_set_iff.mp hq⟩, hpre⟩
    | delete kc refs => exact hmakes.elim
  · rintro ⟨q, ⟨kc, refs, x, newResource, failed, hc, hrefs⟩, hpre⟩
    exact ⟨_, hc, q, InvCall.path_set_iff.mpr hrefs, hpre⟩

end Runs

/-! ## The reads -/

/-- The paths that references make. -/
theorem getSdkRefs_eq_ok {k : GvkKind} {refs : List ObjectReference} {p : List SdkObjectReference}
    (h : getSdkRefs k refs = .ok p) :
    (∃ a, p = [⟨k, a⟩]) ∨ (∃ a b, p = [⟨.forGVKKind, a⟩, ⟨k, b⟩]) := by
  match refs with
  | [] => cases h
  | [a] =>
    simp only [getSdkRefs] at h
    split_ifs at h
    exact Or.inl ⟨a, (Except.ok.inj h).symm⟩
  | [a, b] =>
    simp only [getSdkRefs] at h
    split_ifs at h
    exact Or.inr ⟨a, b, (Except.ok.inj h).symm⟩
  | _ :: _ :: _ :: _ => cases h

theorem InvCall.path_cases {c : InvCall V} {p : List SdkObjectReference} (h : c.path = some p) :
    (∃ s, p = [s]) ∨ (∃ a s, p = [⟨.forGVKKind, a⟩, s]) := by
  obtain ⟨k, refs, hrefs⟩ : ∃ k refs, (getSdkRefs k refs).toOption = some p := by
    cases c with
    | set kc refs x newResource failed => exact ⟨kc.gvkKind, refs, h⟩
    | delete kc refs => exact ⟨kc.gvkKind, refs, h⟩
  cases hget : getSdkRefs k refs with
  | error e => rw [hget] at hrefs; cases hrefs
  | ok q =>
    obtain rfl : q = p := by rw [hget] at hrefs; exact Option.some.inj hrefs
    rcases getSdkRefs_eq_ok hget with ⟨a, rfl⟩ | ⟨a, b, rfl⟩
    · exact Or.inl ⟨_, rfl⟩
    · exact Or.inr ⟨a, _, rfl⟩

/-- Each reference is listed once, with what it holds. -/
structure Lists (entries : List (ObjectReference × ResourceCtx V)) (there : ObjectReference → Prop)
    (holds : ObjectReference → ResourceCtx V) : Prop where
  once : (entries.map Prod.fst).Nodup
  exactly : ∀ ref ctx, (ref, ctx) ∈ entries ↔ there ref ∧ ctx = holds ref

section Reads

variable {calls : List (InvCall V)} {inv : Inv V} (h : inv.resources = .empty)
include h

theorem keysNodup_of_empty : (InvCall.runAll calls inv).resources.KeysNodup 2 := by
  apply keysNodup_runAll
  rw [h]
  exact Resources.keysNodup_empty 2

theorem find_runAll_eq_some_iff {p : List SdkObjectReference} (hp : p ≠ []) {ctx : ResourceCtx V} :
    (InvCall.runAll calls inv).resources.find p = some ctx ↔
      (∃ q, WrittenAt calls q ∧ p <+: q) ∧ ctx = recorded calls p := by
  rw [Resources.find_eq_some_iff, isSome_find_runAll h hp, ctxAt_runAll h]

theorem lists_top {k : GvkKind} (hk : k ≠ .ownGVKKind) :
    Lists ((InvCall.runAll calls inv).get k [{}])
      (fun ref => ∃ q, WrittenAt calls q ∧ [⟨k, ref⟩] <+: q) (fun ref => recorded calls [⟨k, ref⟩]) where
  once := Inv.nodup_get_top (keysNodup_of_empty h) hk
  exactly ref ctx := by
    rw [Inv.mem_get_top (keysNodup_of_empty h) hk,
      find_runAll_eq_some_iff h (List.cons_ne_nil _ _)]

theorem lists_under {k : GvkKind} (hk : k ≠ .forGVKKind) {f : ObjectReference} (hf : f ≠ {}) :
    Lists ((InvCall.runAll calls inv).get k [f, {}])
      (fun ref => WrittenAt calls [⟨.forGVKKind, f⟩, ⟨k, ref⟩])
      (fun ref => recorded calls [⟨.forGVKKind, f⟩, ⟨k, ref⟩]) where
  once := Inv.nodup_get_under (keysNodup_of_empty h) hk hf
  exactly ref ctx := by
    rw [Inv.mem_get_under (keysNodup_of_empty h) hk hf,
      find_runAll_eq_some_iff h (List.cons_ne_nil _ _)]
    refine and_congr_left fun _ => ⟨?_, fun hw => ⟨_, hw, List.prefix_rfl⟩⟩
    rintro ⟨q, hw, hpre⟩
    obtain ⟨kc, refs, x, newResource, failed, hc, hrefs⟩ := hw
    -- No path is longer than two.
    have hq : [⟨.forGVKKind, f⟩, ⟨k, ref⟩] = q := by
      apply hpre.eq_of_length_le
      rcases getSdkRefs_eq_ok hrefs with ⟨a, rfl⟩ | ⟨a, b, rfl⟩
      · exact Nat.le_succ 1
      · exact le_refl 2
    rw [← hq] at hrefs
    exact ⟨kc, refs, x, newResource, failed, hc, hrefs⟩

end Reads

theorem writtenAt_above_iff {calls : List (InvCall V)} {f : ObjectReference} :
    (∃ q, WrittenAt calls q ∧ [⟨.forGVKKind, f⟩] <+: q) ↔
      WrittenAt calls [⟨.forGVKKind, f⟩] ∨ ∃ s, WrittenAt calls [⟨.forGVKKind, f⟩, s] := by
  constructor
  · rintro ⟨q, hw, hpre⟩
    obtain ⟨kc, refs, x, newResource, failed, hc, hrefs⟩ := id hw
    rcases getSdkRefs_eq_ok hrefs with ⟨a, rfl⟩ | ⟨a, b, rfl⟩
    · obtain ⟨heq, -⟩ := List.cons_prefix_cons.mp hpre
      exact Or.inl (heq ▸ hw)
    · obtain ⟨heq, -⟩ := List.cons_prefix_cons.mp hpre
      exact Or.inr ⟨⟨kc.gvkKind, b⟩, heq ▸ hw⟩
  · rintro (hw | ⟨s, hw⟩)
    · exact ⟨_, hw, List.prefix_rfl⟩
    · exact ⟨_, hw, [s], rfl⟩

theorem writtenAt_watch_iff {calls : List (InvCall V)} {w : ObjectReference} :
    (∃ q, WrittenAt calls q ∧ [⟨.watchGVKKind, w⟩] <+: q) ↔ WrittenAt calls [⟨.watchGVKKind, w⟩] := by
  refine ⟨?_, fun hw => ⟨_, hw, List.prefix_rfl⟩⟩
  rintro ⟨q, hw, hpre⟩
  obtain ⟨kc, refs, x, newResource, failed, hc, hrefs⟩ := id hw
  rcases getSdkRefs_eq_ok hrefs with ⟨a, rfl⟩ | ⟨a, b, rfl⟩
  · obtain ⟨heq, -⟩ := List.cons_prefix_cons.mp hpre
    exact heq ▸ hw
  · obtain ⟨heq, -⟩ := List.cons_prefix_cons.mp hpre
    cases heq

/-! ## A call changes one reference -/

theorem find_run_of_ne {inv : Inv V} {c : InvCall V} {p : List SdkObjectReference}
    (hpath : c.path ≠ some p)
    (hthere : ∀ q, WrittenAt [c] q → p <+: q → (inv.resources.find p).isSome) {ctx : ResourceCtx V} :
    (c.run inv).resources.find p = some ctx ↔ inv.resources.find p = some ctx := by
  rw [Resources.find_eq_some_iff, Resources.find_eq_some_iff, ctxAt_run, if_neg hpath,
    isSome_find_run]
  refine and_congr_left fun _ => or_iff_left_of_imp fun hmakes => ?_
  cases c with
  | set kc refs x newResource failed =>
    obtain ⟨q, hq, hpre⟩ := hmakes
    exact hthere q ⟨kc, refs, x, newResource, failed, List.mem_singleton_self _,
      InvCall.path_set_iff.mp hq⟩ hpre
  | delete kc refs => exact hmakes.elim

theorem path_of_writtenAt {c : InvCall V} {p : List SdkObjectReference} (h : WrittenAt [c] p) :
    c.path = some p := by
  obtain ⟨kc, refs, x, newResource, failed, hc, hrefs⟩ := h
  rw [← List.mem_singleton.mp hc]
  exact InvCall.path_set_iff.mpr hrefs

section Frame

variable {inv : Inv V} (hnd : inv.resources.KeysNodup 2) (c : InvCall V)
include hnd

theorem keysNodup_run : (c.run inv).resources.KeysNodup 2 := by
  rw [InvCall.run_eq]
  exact TreeWrite.keysNodup_applyAll hnd _

theorem mem_get_top_run {k : GvkKind} (hk : k ≠ .ownGVKKind) {ref : ObjectReference}
    (hpath : c.path ≠ some [⟨k, ref⟩])
    (hthere : ∀ s, WrittenAt [c] [⟨k, ref⟩, s] → ref ∈ (inv.get k [{}]).map Prod.fst)
    {ctx : ResourceCtx V} :
    (ref, ctx) ∈ (c.run inv).get k [{}] ↔ (ref, ctx) ∈ inv.get k [{}] := by
  rw [Inv.mem_get_top (keysNodup_run hnd c) hk, Inv.mem_get_top hnd hk]
  apply find_run_of_ne hpath
  intro q hw hpre
  have hq := path_of_writtenAt hw
  rcases InvCall.path_cases hq with ⟨s, rfl⟩ | ⟨a, s, rfl⟩
  · obtain ⟨heq, -⟩ := List.cons_prefix_cons.mp hpre
    exact absurd (heq ▸ hq) hpath
  · obtain ⟨heq, -⟩ := List.cons_prefix_cons.mp hpre
    obtain ⟨⟨ref', ctx'⟩, hmem, rfl⟩ := List.mem_map.mp (hthere s (heq ▸ hw))
    rw [Inv.mem_get_top hnd hk] at hmem
    rw [hmem]
    rfl

theorem mem_get_under_run {k : GvkKind} (hk : k ≠ .forGVKKind) {f ref : ObjectReference}
    (hf : f ≠ {}) (hpath : c.path ≠ some [⟨.forGVKKind, f⟩, ⟨k, ref⟩]) {ctx : ResourceCtx V} :
    (ref, ctx) ∈ (c.run inv).get k [f, {}] ↔ (ref, ctx) ∈ inv.get k [f, {}] := by
  rw [Inv.mem_get_under (keysNodup_run hnd c) hk hf, Inv.mem_get_under hnd hk hf]
  apply find_run_of_ne hpath
  intro q hw hpre
  have hq := path_of_writtenAt hw
  rcases InvCall.path_cases hq with ⟨s, rfl⟩ | ⟨a, s, rfl⟩
  · exact absurd hpre.length_le (Nat.not_succ_le_self 1)
  · exact absurd (hpre.eq_of_length_le (le_refl 2) ▸ hq) hpath

end Frame

/-- The child of a for-instance that itself was not filed. -/
def filedChild : List (InvCall Unit) :=
  [.set { gvkKind := .ownGVKKind } [{ kind := "Interface", name := "n3" },
      { kind := "IPClaim", name := "n3" }] (.condition ⟨"IPClaim.n3", .conditionFalse, "", ""⟩)
      false true]

end Nephio.CondKptSdk
