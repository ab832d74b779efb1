import Nephio.Data.Arrival
import Nephio.Laws.Go.Sort
import Nephio.NadFn.Function

/-!
# Laws.NadFn.Gather: what the IPClaims bring

The loop over the IPClaims, the Networks, the routing tables and the prefixes, in closed form
(`gather_iff`). Each claim has an address and a list of routes to offer, whatever has been gathered
before; of the offers for an address or for a destination the first is kept.
-/

namespace Nephio.NadFn

open Req Nad ClaimFns

variable {V S : Type} {api : NadFnApi V S}

/-! ## What a claim offers -/

/-- The prefixes of the routing tables of a network instance. -/
def prefixesOf (networkObjs : List Network) (networkInstance : String) : List String :=
  networkObjs.flatMap fun networkObj => networkObj.routingTables.flatMap fun rt =>
    if rt.name = networkInstance then rt.prefixes else []

def claimAddress (claim : IPClaim) : Address where
  address := claim.status.ipPrefix.getD ""
  gateway := claim.status.gateway.getD ""

/-- The claim has both an address and a gateway. -/
def Complete (claim : IPClaim) : Prop :=
  (claimAddress claim).address ≠ "" ∧ (claimAddress claim).gateway ≠ ""

instance (claim : IPClaim) : Decidable (Complete claim) :=
  inferInstanceAs (Decidable (_ ∧ _))

/-- The two prefixes are of one family. -/
def sameFamily (api : NadFnApi V S) (address destination : String) : Bool :=
  match api.addressFamily destination, api.addressFamily address with
  | .ok pi, .ok pia => pi = pia
  | _, _ => false

/-- The routes that a claim offers. -/
def claimRoutes (api : NadFnApi V S) (networkObjs : List Network) (claim : IPClaim) : List Route :=
  if Complete claim then
    ((prefixesOf networkObjs claim.networkInstance.name).filter
      (sameFamily api (claimAddress claim).address)).map
        fun destination => { destination, gateway := (claimAddress claim).gateway }
  else []

/-- Every prefix that is looked at for the claim is one. -/
def Parses (api : NadFnApi V S) (networkObjs : List Network) (claim : IPClaim) : Prop :=
  Complete claim → ∀ destination ∈ prefixesOf networkObjs claim.networkInstance.name,
    (∃ pi, api.addressFamily destination = .ok pi) ∧
      ∃ pia, api.addressFamily (claimAddress claim).address = .ok pia

/-! ## The loops -/

theorem foldlM_flatMap {ε σ α β : Type} (f : α → List β) (step : σ → β → Except ε σ) (l : List α)
    (s : σ) : (l.flatMap f).foldlM step s = l.foldlM (fun s x => (f x).foldlM step s) s := by
  induction l generalizing s with
  | nil => rfl
  | cons x l ih =>
    rw [List.flatMap_cons, List.foldlM_append, List.foldlM_cons]
    simp only [ih]

theorem addRoutes_eq (networkObjs : List Network) (networkInstance address gateway : String)
    (nadRoutes : List Route) :
    addRoutes api networkObjs networkInstance address gateway nadRoutes =
      (prefixesOf networkObjs networkInstance).foldlM (addRoute api address gateway) nadRoutes := by
  simp only [addRoutes, prefixesOf, foldlM_flatMap]
  congr 1
  ext1 nadRoutes
  ext1 networkObj
  congr 1
  ext1 nadRoutes
  ext1 rt
  split_ifs
  · rfl
  · rfl

theorem string_inj {x y : IPFamily} : x.string = y.string ↔ x = y := by
  cases x <;> cases y <;> decide

theorem addRoute_iff {address gateway destination : String} {routes routes' : List Route} :
    addRoute api address gateway routes destination = .ok routes' ↔
      ((∃ pi, api.addressFamily destination = .ok pi) ∧ ∃ pia, api.addressFamily address = .ok pia) ∧
        routes' = if sameFamily api address destination then
          Loops.addFirst Route.destination routes { destination, gateway } else routes := by
  unfold addRoute sameFamily
  cases api.addressFamily destination with
  | error err => exact ⟨fun h => (by cases h), fun ⟨⟨⟨_, h⟩, _⟩, _⟩ => (by cases h)⟩
  | ok pi =>
    cases api.addressFamily address with
    | error err => exact ⟨fun h => (by cases h), fun ⟨⟨_, _, h⟩, _⟩ => (by cases h)⟩
    | ok pia =>
      rw [and_iff_right ⟨⟨pi, rfl⟩, pia, rfl⟩]
      simp only [bind, Except.bind, string_inj, containsDestination, Loops.addFirst,
        decide_eq_true_eq, Bool.not_eq_true', ← Bool.not_eq_true]
      by_cases hfam : pi = pia
      · rw [if_pos hfam, if_pos hfam]
        by_cases hany : (routes.any fun a => decide (a.destination = destination)) = true
        · rw [if_neg (not_not.mpr hany), if_pos hany]
          exact ⟨fun h => (Except.ok.inj h).symm, fun h => h ▸ rfl⟩
        · rw [if_pos hany, if_neg hany]
          exact ⟨fun h => (Except.ok.inj h).symm, fun h => h ▸ rfl⟩
      · rw [if_neg hfam, if_neg hfam]
        exact ⟨fun h => (Except.ok.inj h).symm, fun h => h ▸ rfl⟩

theorem foldlM_addRoute_iff {address gateway : String} {destinations : List String}
    {routes routes' : List Route} :
    destinations.foldlM (addRoute api address gateway) routes = .ok routes' ↔
      (∀ destination ∈ destinations, (∃ pi, api.addressFamily destination = .ok pi) ∧
        ∃ pia, api.addressFamily address = .ok pia) ∧
      routes' = ((destinations.filter (sameFamily api address)).map fun destination =>
        ({ destination, gateway } : Route)).foldl (Loops.addFirst Route.destination) routes := by
  induction destinations generalizing routes with
  | nil =>
    rw [and_iff_right nofun]
    exact ⟨fun h => (Except.ok.inj h).symm, fun h => h ▸ rfl⟩
  | cons destination destinations ih =>
    rw [List.foldlM_cons, Fallible.bind_eq_ok, List.forall_mem_cons, List.filter_cons]
    constructor
    · rintro ⟨routes₁, h₁, h⟩
      obtain ⟨hparse, rfl⟩ := addRoute_iff.mp h₁
      obtain ⟨hrest, rfl⟩ := ih.mp h
      refine ⟨⟨hparse, hrest⟩, ?_⟩
      split_ifs
      · rfl
      · rfl
    · rintro ⟨⟨hparse, hrest⟩, rfl⟩
      refine ⟨_, addRoute_iff.mpr ⟨hparse, rfl⟩, ih.mpr ⟨hrest, ?_⟩⟩
      split_ifs
      · rfl
      · rfl

/-- What has been gathered from some claims, after what was there. -/
def gather (api : NadFnApi V S) (networkObjs : List Network) (acc : Gathered)
    (claims : List IPClaim) : Gathered where
  nadAddresses := (claims.map claimAddress).foldl (Loops.addFirst Address.address) acc.nadAddresses
  nadRoutes := (claims.flatMap (claimRoutes api networkObjs)).foldl
    (Loops.addFirst Route.destination) acc.nadRoutes

theorem gather_append (networkObjs : List Network) (acc : Gathered) (claims claims' : List IPClaim) :
    gather api networkObjs acc (claims ++ claims') =
      gather api networkObjs (gather api networkObjs acc claims) claims' := by
  unfold gather
  rw [List.map_append, List.foldl_append, List.flatMap_append, List.foldl_append]

theorem addClaim_iff {networkObjs : List Network} {acc acc' : Gathered} {o : KubeObject V} :
    addClaim api networkObjs acc o = .ok acc' ↔
      ∃ claim, api.ipClaim o = .ok claim ∧ Parses api networkObjs claim ∧
        acc' = gather api networkObjs acc [claim] := by
  unfold addClaim
  rw [Fallible.bind_eq_ok]
  refine exists_congr fun claim => and_congr_right fun _ => ?_
  have haddresses : (if (!containsAddress acc.nadAddresses (claimAddress claim).address) = true then
      acc.nadAddresses ++ [claimAddress claim] else acc.nadAddresses) =
        Loops.addFirst Address.address acc.nadAddresses (claimAddress claim) := by
    unfold containsAddress Loops.addFirst
    cases acc.nadAddresses.any fun a => decide (a.address = (claimAddress claim).address) <;> rfl
  by_cases hc : Complete claim
  · have hroutes : gather api networkObjs acc [claim] =
        { nadAddresses := Loops.addFirst Address.address acc.nadAddresses (claimAddress claim)
          nadRoutes := (claimRoutes api networkObjs claim).foldl
            (Loops.addFirst Route.destination) acc.nadRoutes } := by
      rw [gather, List.flatMap_singleton]
      rfl
    rw [hroutes, ← haddresses, claimRoutes, if_pos hc]
    show (if Complete claim then _ else _) = _ ↔ _
    rw [if_pos hc, addRoutes_eq, Fallible.bind_eq_ok]
    constructor
    · rintro ⟨routes, hroutes, h⟩
      obtain ⟨hparse, rfl⟩ := foldlM_addRoute_iff.mp hroutes
      exact ⟨fun _ => hparse, (Except.ok.inj h).symm⟩
    · rintro ⟨hparse, rfl⟩
      exact ⟨_, foldlM_addRoute_iff.mpr ⟨hparse hc, rfl⟩, rfl⟩
  · have hroutes : gather api networkObjs acc [claim] =
        { acc with
          nadAddresses := Loops.addFirst Address.address acc.nadAddresses (claimAddress claim) } := by
      rw [gather, List.flatMap_singleton, claimRoutes, if_neg hc]
      rfl
    have hparse : Parses api networkObjs claim := fun h => absurd h hc
    rw [hroutes, ← haddresses, and_iff_right hparse]
    show (if Complete claim then _ else _) = _ ↔ _
    rw [if_neg hc]
    exact ⟨fun h => (Except.ok.inj h).symm, fun h => h ▸ rfl⟩

/-- The claims among the objects, decoded. -/
def claimsOf (api : NadFnApi V S) (objs : List (KubeObject V)) : List IPClaim :=
  objs.flatMap fun o => (api.ipClaim o).toOption.toList

theorem claimsOf_cons {o : KubeObject V} {claim : IPClaim} (h : api.ipClaim o = .ok claim)
    (objs : List (KubeObject V)) : claimsOf api (o :: objs) = [claim] ++ claimsOf api objs := by
  rw [claimsOf, List.flatMap_cons, h]
  rfl

/-- **What the loop over the IPClaims gathers**, and when it fails. -/
theorem gather_iff {networkObjs : List Network} {objs : List (KubeObject V)} {acc acc' : Gathered} :
    objs.foldlM (addClaim api networkObjs) acc = .ok acc' ↔
      (∀ o ∈ objs, ∃ claim, api.ipClaim o = .ok claim ∧ Parses api networkObjs claim) ∧
        acc' = gather api networkObjs acc (claimsOf api objs) := by
  induction objs generalizing acc with
  | nil =>
    rw [and_iff_right nofun]
    exact ⟨fun h => (Except.ok.inj h).symm, fun h => h ▸ rfl⟩
  | cons o objs ih =>
    rw [List.foldlM_cons, Fallible.bind_eq_ok, List.forall_mem_cons]
    constructor
    · rintro ⟨acc₁, h₁, h⟩
      obtain ⟨claim, hclaim, hparse, rfl⟩ := addClaim_iff.mp h₁
      obtain ⟨hrest, rfl⟩ := ih.mp h
      refine ⟨⟨⟨claim, hclaim, hparse⟩, hrest⟩, ?_⟩
      rw [← gather_append, claimsOf_cons hclaim]
    · rintro ⟨⟨⟨claim, hclaim, hparse⟩, hrest⟩, rfl⟩
      refine ⟨_, addClaim_iff.mpr ⟨claim, hclaim, hparse, rfl⟩, ih.mpr ⟨hrest, ?_⟩⟩
      rw [← gather_append, claimsOf_cons hclaim]

/-! ## The lists -/

/-- The addresses of the NAD. -/
def addressesOf (sort : Go.SliceSort) (claims : List IPClaim) : List Address :=
  sort.slice (fun a b => a.address < b.address)
    (Loops.firsts Address.address (claims.map claimAddress))

/-- The routes of the NAD. -/
def routesOf (api : NadFnApi V S) (sort : Go.SliceSort) (networkObjs : List Network)
    (claims : List IPClaim) : List Route :=
  sort.slice (fun a b => a.destination < b.destination)
    (Loops.firsts Route.destination (claims.flatMap (claimRoutes api networkObjs)))

variable {sort : Go.SliceSort}

theorem mem_addressesOf_iff {claims : List IPClaim} {a : Address} :
    a ∈ addressesOf sort claims ↔ a ∈ Loops.firsts Address.address (claims.map claimAddress) :=
  (sort.perm _ _).mem_iff

theorem mem_routesOf_iff {networkObjs : List Network} {claims : List IPClaim} {route : Route} :
    route ∈ routesOf api sort networkObjs claims ↔
      route ∈ Loops.firsts Route.destination (claims.flatMap (claimRoutes api networkObjs)) :=
  (sort.perm _ _).mem_iff

theorem pairwise_addressesOf (claims : List IPClaim) :
    (addressesOf sort claims).Pairwise fun a b => a.address < b.address :=
  Go.pairwise_slice_lt sort (Loops.nodup_firsts _)

theorem pairwise_routesOf (networkObjs : List Network) (claims : List IPClaim) :
    (routesOf api sort networkObjs claims).Pairwise fun a b => a.destination < b.destination :=
  Go.pairwise_slice_lt sort (Loops.nodup_firsts _)

end Nephio.NadFn
