import Nephio.ClaimFns.Status
import Nephio.Data.Arrival
import Nephio.Data.Fallible

/-!
# Laws.ClaimFns.Status: the pools of a DataNetwork

What `updateDnnResource` writes, in closed form: the pools of the claims, in the order of the claims
(`updateDnnResource_iff`). So the status does not depend on that order only if all pools are the same
(`writesStatus_arrival_iff`).
-/

namespace Nephio.ClaimFns

open Req

variable {V Q : Type} {api : StatusApi V Q}

/-! ## The decoded objects -/

theorem filterByType_foldlM {α : Type} {gvk : ObjectReference} {as : KubeObject V → Except String α}
    {objs : List (KubeObject V)} {acc : List α × List (KubeObject V)} {xs : List α} :
    (∃ rest, objs.foldlM (fun (result, rest) o =>
        if isGVK gvk o then do
          let x ← as o
          return (result ++ [x], rest)
        else return (result, rest ++ [o])) acc = .ok (xs, rest)) ↔
      (∀ o ∈ objs, isGVK gvk o → ∃ x, as o = .ok x) ∧
        xs = acc.1 ++ objs.flatMap fun o => if isGVK gvk o then (as o).toOption.toList else [] := by
  induction objs generalizing acc with
  | nil =>
    rw [List.flatMap_nil, List.append_nil, and_iff_right nofun]
    constructor
    · rintro ⟨rest, h⟩
      cases h
      rfl
    · rintro rfl
      exact ⟨acc.2, rfl⟩
  | cons o objs ih =>
    rw [List.forall_mem_cons, List.flatMap_cons, ← List.append_assoc]
    by_cases ho : isGVK gvk o = true
    · rw [if_pos ho]
      cases has : as o with
      | error err =>
        constructor
        · rintro ⟨rest, h⟩
          simp only [List.foldlM_cons, if_pos ho, has] at h
          cases h
        · rintro ⟨⟨hx, -⟩, -⟩
          obtain ⟨x, hx⟩ := hx ho
          cases hx
      | ok x =>
        rw [and_assoc, and_iff_right fun _ => ⟨x, rfl⟩]
        refine Iff.trans ?_ (@ih (acc.1 ++ [x], acc.2))
        simp only [List.foldlM_cons, if_pos ho, has]
        rfl
    · rw [if_neg ho, List.append_nil, and_assoc, and_iff_right fun h => absurd h ho]
      refine Iff.trans ?_ (@ih (acc.1, acc.2 ++ [o]))
      simp only [List.foldlM_cons, if_neg ho]
      rfl

theorem filterByType_iff {α : Type} {gvk : ObjectReference} {as : KubeObject V → Except String α}
    {objs : List (KubeObject V)} {xs : List α} :
    (∃ rest, filterByType gvk as objs = .ok (xs, rest)) ↔
      (∀ o ∈ objs, isGVK gvk o → ∃ x, as o = .ok x) ∧
        xs = objs.flatMap fun o => if isGVK gvk o then (as o).toOption.toList else [] :=
  filterByType_foldlM

/-! ## The pools -/

/-- The pool that a claim was given. -/
def poolOf (dnn : KubeObject V) (ipclaim : IPClaim) : Option PoolStatus :=
  if ipclaim.kind = prefixKindPool then
    (Go.cutPrefix ipclaim.name (poolNameStart dnn)).map fun name => { name, ipClaim := ipclaim.status }
  else none

/-- A list that is nil where it is empty. -/
def poolsStatus (pools : List PoolStatus) : DataNetworkStatus where
  pools := if pools = [] then none else some pools

theorem getD_poolsStatus (pools : List PoolStatus) : (poolsStatus pools).pools.getD [] = pools := by
  unfold poolsStatus
  split_ifs with h
  · rw [h, Option.getD_none]
  · rw [Option.getD_some]

theorem foldl_addPool (dnn : KubeObject V) (ipclaims : List IPClaim) (ws : List String)
    (pools : List PoolStatus) :
    (ipclaims.foldl (addPool dnn) (ws, poolsStatus pools)).2 =
      poolsStatus (pools ++ ipclaims.flatMap fun c => (poolOf dnn c).toList) := by
  induction ipclaims generalizing ws pools with
  | nil => rw [List.foldl_nil, List.flatMap_nil, List.append_nil]
  | cons c ipclaims ih =>
    rw [List.foldl_cons, List.flatMap_cons, ← List.append_assoc]
    have hturn : ∃ ws', addPool dnn (ws, poolsStatus pools) c =
        (ws', poolsStatus (pools ++ (poolOf dnn c).toList)) := by
      unfold addPool poolOf
      split_ifs
      · cases Go.cutPrefix c.name (poolNameStart dnn) with
        | none => exact ⟨_, by rw [Option.map_none, Option.toList_none, List.append_nil]⟩
        | some name =>
          refine ⟨ws, Prod.ext rfl ?_⟩
          simp only [getD_poolsStatus, Option.map_some, Option.toList_some]
          rw [poolsStatus, if_neg (List.append_ne_nil_of_right_ne_nil _ (List.cons_ne_nil _ _))]
      · exact ⟨ws, by rw [Option.toList_none, List.append_nil]⟩
    obtain ⟨ws', hturn⟩ := hturn
    rw [hturn, ih]

/-- The pool that an owned object stands for. -/
def ownedPool (api : StatusApi V Q) (dnn o : KubeObject V) : List PoolStatus :=
  (if isGVK ipClaimGVK o then (api.ipClaim o).toOption.toList else []).flatMap
    fun c => (poolOf dnn c).toList

theorem length_ownedPool_le (dnn o : KubeObject V) : (ownedPool api dnn o).length ≤ 1 := by
  unfold ownedPool
  split_ifs
  · cases (api.ipClaim o).toOption with
    | none => exact Nat.zero_le _
    | some c =>
      rw [Option.toList_some, List.flatMap_singleton]
      exact Option.length_toList_le
  · exact Nat.zero_le _

/-- **What `updateDnnResource` writes.** -/
theorem updateDnnResource_iff {dnn : KubeObject V} {owned out : List (KubeObject V)} :
    (dnnFn.updateDnnResource api (some dnn) owned).2 = .ok out ↔
      (∃ read, api.dataNetwork dnn = .ok read) ∧
      (∀ o ∈ owned, isGVK ipClaimGVK o → ∃ c, api.ipClaim o = .ok c) ∧
      ∃ dnn', api.setStatus dnn (poolsStatus (owned.flatMap (ownedPool api dnn))) = .ok dnn' ∧
        out = [dnn'] := by
  unfold dnnFn.updateDnnResource
  simp only
  cases hdnn : api.dataNetwork dnn with
  | error err => exact ⟨fun h => (by cases h), fun ⟨⟨_, h⟩, _⟩ => (by cases h)⟩
  | ok read =>
    rw [and_iff_right ⟨read, rfl⟩]
    simp only
    cases hfilter : filterByType ipClaimGVK api.ipClaim owned with
    | error err =>
      constructor
      · intro h
        cases h
      · rintro ⟨hread, -⟩
        obtain ⟨rest, h⟩ := filterByType_iff.mpr ⟨hread, rfl⟩
        cases hfilter.symm.trans h
    | ok x =>
      obtain ⟨hread, hx⟩ := filterByType_iff.mp ⟨x.2, hfilter⟩
      have hstatus : (x.1.foldl (addPool dnn) ([], { read.2 with pools := none })).2 =
          poolsStatus (owned.flatMap (ownedPool api dnn)) := by
        rw [show ({ read.2 with pools := none } : DataNetworkStatus) = poolsStatus [] from rfl,
          foldl_addPool, List.nil_append, hx, List.flatMap_assoc]
        rfl
      rw [and_iff_right hread, ← hstatus, Fallible.bind_eq_ok]
      simp only [pure, Except.pure, Except.ok.injEq, eq_comm]

/-! ## The order of the claims -/

/-- The call writes the status. -/
def WritesStatus (api : StatusApi V Q) (dnn : KubeObject V) (owned : List (KubeObject V))
    (status : DataNetworkStatus) : Prop :=
  ∃ dnn' spec, (dnnFn.updateDnnResource api (some dnn) owned).2 = .ok [dnn'] ∧
    api.dataNetwork dnn' = .ok (spec, status)

/-- The status that is set is the one that is read. -/
def ReadsStatus (api : StatusApi V Q) : Prop :=
  ∀ {o o' status}, api.setStatus o status = .ok o' → ∃ spec, api.dataNetwork o' = .ok (spec, status)

theorem writesStatus_iff (hapi : ReadsStatus api) {dnn : KubeObject V} {owned : List (KubeObject V)}
    {status : DataNetworkStatus} :
    WritesStatus api dnn owned status ↔
      ((∃ read, api.dataNetwork dnn = .ok read) ∧
        (∀ o ∈ owned, isGVK ipClaimGVK o → ∃ c, api.ipClaim o = .ok c) ∧
        ∃ dnn', api.setStatus dnn status = .ok dnn') ∧
      poolsStatus (owned.flatMap (ownedPool api dnn)) = status := by
  constructor
  · rintro ⟨dnn', spec, hout, hread⟩
    obtain ⟨hdnn, howned, dnn'', hset, h⟩ := updateDnnResource_iff.mp hout
    cases List.singleton_inj.mp h
    obtain ⟨spec', hread'⟩ := hapi hset
    cases hread.symm.trans hread'
    exact ⟨⟨hdnn, howned, dnn', hset⟩, rfl⟩
  · rintro ⟨⟨hdnn, howned, dnn', hset⟩, rfl⟩
    obtain ⟨spec, hread⟩ := hapi hset
    exact ⟨dnn', spec, updateDnnResource_iff.mpr ⟨hdnn, howned, dnn', hset, rfl⟩, hread⟩

/-- The status is the same for every order of the claims exactly when all pools are the same. -/
theorem writesStatus_arrival_iff (hapi : ReadsStatus api) {dnn : KubeObject V}
    {owned : List (KubeObject V)} {status : DataNetworkStatus} (h : WritesStatus api dnn owned status) :
    (∀ owned' : List (KubeObject V), owned'.Perm owned → WritesStatus api dnn owned' status) ↔
      ∀ p ∈ status.pools.getD [], ∀ q ∈ status.pools.getD [], p = q := by
  obtain ⟨⟨hdnn, howned, hset⟩, rfl⟩ := (writesStatus_iff hapi).mp h
  rw [getD_poolsStatus, ← Loops.flatMap_arrival_iff fun o _ => length_ownedPool_le dnn o]
  refine forall₂_congr fun owned' hperm => ?_
  rw [writesStatus_iff hapi, and_iff_right ⟨hdnn, fun o ho => howned o (hperm.mem_iff.mp ho), hset⟩]
  constructor
  · intro heq
    rw [← getD_poolsStatus (owned'.flatMap (ownedPool api dnn)), heq, getD_poolsStatus]
  · intro heq
    rw [heq]

end Nephio.ClaimFns
