import Nephio.Laws.NadFn.Routes

/-!
# Laws.NadFn.Arrival: the order of the IPClaims and of the Networks

Of several claims with one address, and of several claims that reach one destination, the first one
gives the gateway. So nad-fn depends on the order of its objects exactly when such claims disagree on
the gateway (`updateResourceFn_arrival_iff`). The order of the Networks never shows, and neither order
decides whether the call succeeds.
-/

namespace Nephio.NadFn

open Req Nad ClaimFns

variable {V S : Type} [DecidableEq S] {api : NadFnApi V S} {sort : Go.SliceSort}

/-- Claims with one address have one gateway, and so have claims that reach one destination. -/
structure Consistent (api : NadFnApi V S) (networkObjs : List Network) (claims : List IPClaim) :
    Prop where
  addresses : ∀ c ∈ claims, ∀ c' ∈ claims, (claimAddress c).address = (claimAddress c').address →
    (claimAddress c).gateway = (claimAddress c').gateway
  routes : ∀ c ∈ claims, ∀ c' ∈ claims, ∀ destination, Reaches api networkObjs c destination →
    Reaches api networkObjs c' destination → (claimAddress c).gateway = (claimAddress c').gateway

/-! ## The lists -/

section Lists

omit [DecidableEq S]

variable {networkObjs networkObjs' : List Network} {claims claims' : List IPClaim}

theorem claimRoutes_mem_of_perm (hnetworks : networkObjs'.Perm networkObjs)
    (hclaims : claims'.Perm claims) (route : Route) :
    route ∈ claims'.flatMap (claimRoutes api networkObjs') ↔
      route ∈ claims.flatMap (claimRoutes api networkObjs) := by
  simp only [List.mem_flatMap, mem_claimRoutes_iff, Reaches, hclaims.mem_iff, hnetworks.mem_iff]

theorem addressesOf_of_perm (h : Consistent api networkObjs claims)
    (hclaims : claims'.Perm claims) : addressesOf sort claims' = addressesOf sort claims := by
  have hperm := @Loops.perm_firsts _ _ _ Address.address (claims.map claimAddress)
    (claims'.map claimAddress) (by
      intro a ha b hb heq
      obtain ⟨c, hc, rfl⟩ := List.mem_map.mp ha
      obtain ⟨c', hc', rfl⟩ := List.mem_map.mp hb
      exact Address.ext heq (h.addresses c hc c' hc' heq)) fun a => (hclaims.map _).mem_iff
  exact (Go.slice_lt_eq_of_perm sort hperm.symm (Loops.nodup_firsts _)).symm

theorem routesOf_of_perm (h : Consistent api networkObjs claims)
    (hnetworks : networkObjs'.Perm networkObjs) (hclaims : claims'.Perm claims) :
    routesOf api sort networkObjs' claims' = routesOf api sort networkObjs claims := by
  have hperm := @Loops.perm_firsts _ _ _ Route.destination
    (claims.flatMap (claimRoutes api networkObjs)) (claims'.flatMap (claimRoutes api networkObjs'))
    (by
      intro a ha b hb heq
      obtain ⟨c, hc, hac⟩ := List.mem_flatMap.mp ha
      obtain ⟨c', hc', hbc⟩ := List.mem_flatMap.mp hb
      obtain ⟨hreaches, hgateway⟩ := mem_claimRoutes_iff.mp hac
      obtain ⟨hreaches', hgateway'⟩ := mem_claimRoutes_iff.mp hbc
      rw [← heq] at hreaches'
      have hsame := h.routes c hc c' hc' a.destination hreaches hreaches'
      exact Route.ext heq (hgateway.symm.trans (hsame.trans hgateway')))
    (claimRoutes_mem_of_perm hnetworks hclaims)
  exact (Go.slice_lt_eq_of_perm sort hperm.symm (Loops.nodup_firsts _)).symm

/-- The claim that comes first gives its address. -/
theorem mem_addressesOf_cons (c : IPClaim) (claims : List IPClaim) :
    claimAddress c ∈ addressesOf sort (c :: claims) := by
  rw [mem_addressesOf_iff, Loops.mem_firsts_iff, List.map_cons, List.find?_cons]
  simp

/-- The claim that comes first gives its routes. -/
theorem mem_routesOf_cons {c : IPClaim} {destination : String}
    (h : Reaches api networkObjs c destination) (claims : List IPClaim) :
    { destination, gateway := (claimAddress c).gateway } ∈
      routesOf api sort networkObjs (c :: claims) := by
  have hfound : ∀ {l : List Route} {route : Route}, route ∈ l →
      (∀ r ∈ l, r.gateway = route.gateway) →
        l.find? (fun r => r.destination = route.destination) = some route := by
    intro l route hmem hgateway
    have hsome : (l.find? fun r => r.destination = route.destination).isSome :=
      List.find?_isSome.mpr ⟨route, hmem, decide_eq_true rfl⟩
    obtain ⟨r, hr⟩ := Option.isSome_iff_exists.mp hsome
    have hdestination : r.destination = route.destination := by simpa using List.find?_some hr
    rw [hr]
    exact congrArg some (Route.ext hdestination (hgateway r (List.mem_of_find?_eq_some hr)))
  rw [mem_routesOf_iff, Loops.mem_firsts_iff, List.flatMap_cons, List.find?_append]
  rw [hfound (mem_claimRoutes_iff.mpr ⟨h, rfl⟩) fun r hr => (mem_claimRoutes_iff.mp hr).2.symm]
  rfl

theorem addressesOf_ne_nil {c : IPClaim} (h : c ∈ claims) : addressesOf sort claims ≠ [] := by
  have hmem : (claimAddress c).address ∈
      (Loops.firsts Address.address (claims.map claimAddress)).map Address.address :=
    Loops.mem_map_firsts_iff.mpr ⟨claimAddress c, List.mem_map_of_mem h, rfl⟩
  intro hnil
  obtain ⟨a, ha, -⟩ := List.mem_map.mp hmem
  have hmem : a ∈ addressesOf sort claims := mem_addressesOf_iff.mpr ha
  rw [hnil] at hmem
  exact List.not_mem_nil hmem

end Lists

/-! ## The claims among the objects -/

section Claims

omit [DecidableEq S]

theorem mem_claimsOf_iff {objs : List (KubeObject V)} {claim : IPClaim} :
    claim ∈ claimsOf api objs ↔ ∃ o ∈ objs, api.ipClaim o = .ok claim := by
  simp only [claimsOf, List.mem_flatMap, Option.mem_toList]
  refine exists_congr fun o => and_congr_right fun _ => ?_
  cases api.ipClaim o with
  | error err => exact ⟨fun h => (by cases h), fun h => (by cases h)⟩
  | ok claim' => simp [Except.toOption]

theorem parses_of_perm {networkObjs networkObjs' : List Network} (h : networkObjs'.Perm networkObjs)
    {claim : IPClaim} (hparse : Parses api networkObjs claim) : Parses api networkObjs' claim := by
  intro hc destination hmem
  refine hparse hc destination ?_
  rw [mem_prefixesOf_iff] at hmem ⊢
  simpa only [h.mem_iff] using hmem

/-- Any claim may come first. -/
theorem exists_claim_first {objs : List (KubeObject V)} {claim : IPClaim}
    (h : claim ∈ claimsOf api (objs.filter (isGVK ipClaimGVK))) :
    ∃ (objs' : List (KubeObject V)) (claims : List IPClaim), objs'.Perm objs ∧
      claimsOf api (objs'.filter (isGVK ipClaimGVK)) = claim :: claims := by
  obtain ⟨o, ho, hclaim⟩ := mem_claimsOf_iff.mp h
  obtain ⟨hobjs, hgvk⟩ := List.mem_filter.mp ho
  obtain ⟨l, hl, -⟩ := Loops.exists_perm_cons hobjs
  refine ⟨o :: l, claimsOf api (l.filter (isGVK ipClaimGVK)), hl, ?_⟩
  rw [List.filter_cons_of_pos hgvk, claimsOf_cons hclaim]
  rfl

end Claims

/-! ## Setting the lists -/

theorem updatePlugins_total {napi : NadApi V S} {r : NadStruct V} {config : NadConfig}
    (hset : Settable napi r.k) (hconfig : r.getNadConfig napi = .ok config)
    (edit : PluginCniType → PluginCniType) : ∃ r', r.updatePlugins napi edit = .ok r' := by
  obtain ⟨s, hs, -, -⟩ := napi.round_trip (config.editPlugins edit)
  obtain ⟨k, hk⟩ := hset s
  refine ⟨{ r with k }, Fallible.bind_eq_ok.mpr ⟨config, hconfig, ?_⟩⟩
  exact Fallible.bind_eq_ok.mpr ⟨s, hs, Fallible.bind_eq_ok.mpr ⟨k, hk, rfl⟩⟩

theorem setIpam_total {cniType : String} {networkObjs : List Network} {objs : List (KubeObject V)}
    {nad : NadStruct V} (hready : Ready api.toNadApi cniType nad)
    (hread : ∀ o ∈ objs, ∃ claim, api.ipClaim o = .ok claim ∧ Parses api networkObjs claim)
    (hne : objs ≠ []) : ∃ nad', setIpam api sort networkObjs objs nad = .ok nad' := by
  obtain ⟨o, ho⟩ := List.exists_mem_of_ne_nil objs hne
  obtain ⟨claim, hclaim, -⟩ := hread o ho
  have hnil : addressesOf sort (claimsOf api objs) ≠ [] :=
    addressesOf_ne_nil (mem_claimsOf_iff.mpr ⟨o, ho, hclaim⟩)
  simp only [setIpam_iff, and_iff_right hread]
  generalize addressesOf sort (claimsOf api objs) = addresses at hnil
  generalize routesOf api sort networkObjs (claimsOf api objs) = routes
  obtain ⟨config, hconfig, -⟩ := hready.plugins
  cases addresses with
  | nil => exact absurd rfl hnil
  | cons a as =>
    obtain ⟨nad₁, hnad₁⟩ := updatePlugins_total hready.settable hconfig
      fun plugin => { plugin with ipam := { plugin.ipam with addresses := a :: as } }
    obtain ⟨config₁, -, -, -, hconfig₁⟩ := NadStruct.getNadConfig_of_updatePlugins hnad₁
    cases routes with
    | nil => exact ⟨nad₁, nad₁, hnad₁, rfl⟩
    | cons route routes =>
      obtain ⟨nad₂, hnad₂⟩ := updatePlugins_total (settable_of_updatePlugins hnad₁) hconfig₁
        fun plugin => { plugin with ipam := { plugin.ipam with routes := route :: routes } }
      exact ⟨nad₂, nad₁, hnad₁, hnad₂⟩

/-- Without a plugin to write to, a setter of the plugins writes the config back. -/
theorem updatePlugins_of_not_writable {napi : NadApi V S} {r : NadStruct V} {config : NadConfig}
    (hconfig : r.getNadConfig napi = .ok config) (hw : ¬ r.Writable napi)
    (edit : PluginCniType → PluginCniType) :
    r.updatePlugins napi edit = r.setNadConfig napi config := by
  have hnone : config.plugin? = none := not_not.mp fun hne => hw ((writable_iff hconfig).mpr hne)
  rw [NadStruct.updatePlugins, hconfig]
  show r.setNadConfig napi (config.editPlugins edit) = _
  rw [editPlugins_of_plugin?_none hnone]

/-- A NAD of type `tuning` comes out the same for any lists that are not empty. -/
theorem setLists_of_not_writable {napi : NadApi V S} {nad nad' : NadStruct V} {config : NadConfig}
    (hconfig : nad.getNadConfig napi = .ok config) (hw : ¬ nad.Writable napi)
    {addresses : List Address} {routes : List Route} :
    (∃ nad₁, nad.setIpamAddress napi (Go.appended addresses) = .ok nad₁ ∧
        nad₁.setIpamRoutes napi (Go.appended routes) = .ok nad') ↔
      addresses ≠ [] ∧ ∃ nad₁, nad.setNadConfig napi config = .ok nad₁ ∧
        if routes = [] then nad' = nad₁ else nad₁.setNadConfig napi config = .ok nad' := by
  cases addresses with
  | nil => exact ⟨fun ⟨_, h, _⟩ => (by cases h), fun ⟨h, _⟩ => absurd rfl h⟩
  | cons a as =>
    rw [and_iff_right (List.cons_ne_nil a as)]
    refine exists_congr fun nad₁ => ?_
    have haddresses : nad.setIpamAddress napi (Go.appended (a :: as)) = nad.setNadConfig napi config :=
      updatePlugins_of_not_writable hconfig hw _
    rw [haddresses]
    refine and_congr_right fun hset => ?_
    obtain ⟨-, -, hconfig₁⟩ :=
      NadStruct.getNadConfig_of_set (NadStruct.filled_of_getNadConfig hconfig) hset
    cases routes with
    | nil =>
      rw [if_pos rfl]
      exact ⟨fun h => (Except.ok.inj h).symm, fun h => h ▸ rfl⟩
    | cons route routes =>
      rw [if_neg (List.cons_ne_nil route routes)]
      have hw₁ : ¬ nad₁.Writable napi := fun h =>
        hw ((writable_iff hconfig).mpr ((writable_iff hconfig₁).mp h))
      rw [← updatePlugins_of_not_writable hconfig₁ hw₁
        fun plugin => { plugin with ipam := { plugin.ipam with routes := route :: routes } }]
      rfl

/-! ## A call on permuted objects -/

section Calls

variable {wc : WorkloadClusterSpec} {f : Function} {itfce : KubeObject V}
  {objs objs' : List (KubeObject V)} {networkObjs' : List Network}

theorem begins_unique {vlans : List (KubeObject V)} {claims : Bool} {b b' : Begun V}
    (h : Begins api wc itfce vlans claims b) (h' : Begins api wc itfce vlans claims b') : b' = b := by
  obtain ⟨hnames, spec, status, ni, hread, hni, hb⟩ := h
  have hb' := (begins_iff hnames hread hni).mp h'
  cases b with
  | nothing =>
    cases b' with
    | nothing => rfl
    | vlanOnly k' => exact absurd hb hb'.1
    | attached nad' => exact absurd hb hb'.1
  | vlanOnly k =>
    cases b' with
    | nothing => exact absurd hb' hb.1
    | vlanOnly k' =>
      cases hb.2.2.2.symm.trans hb'.2.2.2
      rfl
    | attached nad' => cases hb.2.1.symm.trans hb'.2.1
  | attached nad =>
    obtain ⟨hne, hclaims, k, hk, hnad⟩ := hb
    cases b' with
    | nothing => exact absurd hb' hne
    | vlanOnly k' => cases hclaims.symm.trans hb'.2.1
    | attached nad' =>
      obtain ⟨-, -, k', hk', hnad'⟩ := hb'
      cases hk.symm.trans hk'
      cases hnad.symm.trans hnad'
      rfl

/-- Only the end of the call sees the order. -/
theorem returns_perm_iff {out : List (KubeObject V)}
    (hitfce : objs.filter (isGVK interfaceGVK) = [itfce])
    (hvlans : (objs.filter (isGVK vlanClaimGVK)).length ≤ 1) (hperm : objs'.Perm objs) :
    Returns api sort { f with networkObjs := networkObjs' } objs' out ↔
      ∃ wc, f.workloadCluster = some wc ∧
        ∃ b, Begins api wc itfce (objs.filter (isGVK vlanClaimGVK))
            (!(objs.filter (isGVK ipClaimGVK)).isEmpty) b ∧
          Ends api sort networkObjs' (objs'.filter (isGVK ipClaimGVK)) out b := by
  have hitfce' : objs'.filter (isGVK interfaceGVK) = [itfce] :=
    List.perm_singleton.mp (hitfce ▸ hperm.filter _)
  have hvlans' : objs'.filter (isGVK vlanClaimGVK) = objs.filter (isGVK vlanClaimGVK) :=
    Loops.eq_of_perm_of_length_le_one (hperm.filter _) hvlans
  have hempty : (objs'.filter (isGVK ipClaimGVK)).isEmpty =
      (objs.filter (isGVK ipClaimGVK)).isEmpty := (hperm.filter _).isEmpty_eq
  rw [returns_iff hitfce', hvlans', hempty]

omit [DecidableEq S] in
/-- A claim among the objects stays one, in any order, and so does what is parsed for it. -/
theorem readable_of_perm (hperm : objs'.Perm objs) (hnetworks : networkObjs'.Perm f.networkObjs)
    (h : ∀ o ∈ objs, ∃ claim, api.ipClaim o = .ok claim ∧ Parses api f.networkObjs claim) :
    ∀ o ∈ objs', ∃ claim, api.ipClaim o = .ok claim ∧ Parses api networkObjs' claim := by
  intro o ho
  obtain ⟨claim, hclaim, hparse⟩ := h o (hperm.mem_iff.mp ho)
  exact ⟨claim, hclaim, parses_of_perm hnetworks hparse⟩

/-- The order does not decide whether the call succeeds. -/
theorem returns_of_perm {out : List (KubeObject V)}
    (hitfce : objs.filter (isGVK interfaceGVK) = [itfce])
    (hvlans : (objs.filter (isGVK vlanClaimGVK)).length ≤ 1) (hperm : objs'.Perm objs)
    (hnetworks : networkObjs'.Perm f.networkObjs) (h : Returns api sort f objs out) :
    ∃ out', Returns api sort { f with networkObjs := networkObjs' } objs' out' := by
  obtain ⟨wc, hwc, b, hb, hends⟩ := (returns_iff hitfce).mp h
  have hreturns : ∀ out', Ends api sort networkObjs' (objs'.filter (isGVK ipClaimGVK)) out' b →
      Returns api sort { f with networkObjs := networkObjs' } objs' out' := fun out' hends' =>
    (returns_perm_iff hitfce hvlans hperm).mpr ⟨wc, hwc, b, hb, hends'⟩
  cases b with
  | nothing => exact ⟨[], hreturns [] rfl⟩
  | vlanOnly k => exact ⟨[k], hreturns [k] rfl⟩
  | attached nad =>
    obtain ⟨-, spec, status, ni, hread, hni, -, hclaims, k, hk, hnad⟩ := hb
    obtain ⟨spec', status', -, hready⟩ := ready_of_setInterface hk hnad
    obtain ⟨nad', hipam, -⟩ := hends
    have hne : objs'.filter (isGVK ipClaimGVK) ≠ [] := by
      intro hnil
      have hempty := (hperm.filter (isGVK ipClaimGVK)).isEmpty_eq
      rw [hnil] at hempty
      rw [← hempty] at hclaims
      cases hclaims
    obtain ⟨nad'', hipam'⟩ := @setIpam_total V S _ api sort _ _ _ _ hready
      (readable_of_perm (hperm.filter _) hnetworks (setIpam_iff.mp hipam).1) hne
    exact ⟨[nad''.k], hreturns _ ⟨nad'', hipam', rfl⟩⟩

/-- Where the claims are consistent, or nothing of them is written, any order ends the same. -/
theorem ends_of_perm {cniType : String} {nad : NadStruct V} {out : List (KubeObject V)}
    (hready : Ready api.toNadApi cniType nad)
    (hends : Ends api sort f.networkObjs objs out (.attached nad))
    (hperm : objs'.Perm objs) (hnetworks : networkObjs'.Perm f.networkObjs)
    (h : cniType = tuningType ∨ Consistent api f.networkObjs (claimsOf api objs)) :
    Ends api sort networkObjs' objs' out (.attached nad) := by
  obtain ⟨nad', hipam, rfl⟩ := hends
  obtain ⟨hread, hlists⟩ := setIpam_iff.mp hipam
  have hclaims : (claimsOf api objs').Perm (claimsOf api objs) := hperm.flatMap_right _
  refine ⟨nad', setIpam_iff.mpr ⟨readable_of_perm hperm hnetworks hread, ?_⟩, rfl⟩
  rcases h with htuning | hconsistent
  · obtain ⟨config, hconfig, -⟩ := hready.plugins
    rw [setLists_of_not_writable hconfig (hready.tuned htuning)] at hlists ⊢
    obtain ⟨hne, nad₁, hset, hroutes⟩ := hlists
    have hne' : addressesOf sort (claimsOf api objs') ≠ [] := by
      obtain ⟨a, ha⟩ := List.exists_mem_of_ne_nil _ hne
      obtain ⟨c, hc, -⟩ := List.mem_map.mp (Loops.mem_of_mem_firsts (mem_addressesOf_iff.mp ha))
      exact addressesOf_ne_nil (hclaims.mem_iff.mpr hc)
    have hnil : routesOf api sort networkObjs' (claimsOf api objs') = [] ↔
        routesOf api sort f.networkObjs (claimsOf api objs) = [] := by
      have hkeys : ∀ {networkObjs : List Network} {claims : List IPClaim},
          routesOf api sort networkObjs claims = [] ↔
            ∀ route, route ∉ claims.flatMap (claimRoutes api networkObjs) := by
        intro networkObjs claims
        rw [List.eq_nil_iff_forall_not_mem]
        simp only [mem_routesOf_iff]
        refine ⟨fun hnone route hmem => ?_, fun hnone route hmem =>
          hnone route (Loops.mem_of_mem_firsts hmem)⟩
        obtain ⟨route', hroute', -⟩ := List.mem_map.mp
          (Loops.mem_map_firsts_iff.mpr ⟨route, hmem, (rfl : route.destination = _)⟩)
        exact hnone route' hroute'
      rw [hkeys, hkeys]
      simp only [claimRoutes_mem_of_perm hnetworks hclaims]
    refine ⟨hne', nad₁, hset, ?_⟩
    simp only [hnil]
    exact hroutes
  · rw [addressesOf_of_perm hconsistent hclaims, routesOf_of_perm hconsistent hnetworks hclaims]
    exact hlists

/-- The objects that hold one config hold one pair of lists. -/
theorem lists_eq_of_stored {cniType : String} {nad nad₁ nad₂ : NadStruct V}
    {networkObjs₁ networkObjs₂ : List Network} {objs₁ objs₂ : List (KubeObject V)}
    (hready : Ready api.toNadApi cniType nad) (htuning : cniType ≠ tuningType)
    (h₁ : setIpam api sort networkObjs₁ objs₁ nad = .ok nad₁)
    (h₂ : setIpam api sort networkObjs₂ objs₂ nad = .ok nad₂) (heq : nad₁.k = nad₂.k) :
    addressesOf sort (claimsOf api objs₁) = addressesOf sort (claimsOf api objs₂) ∧
      routesOf api sort networkObjs₁ (claimsOf api objs₁) =
        routesOf api sort networkObjs₂ (claimsOf api objs₂) := by
  obtain ⟨config₁, hstored₁, hplugin, hall₁⟩ := stored_of_setIpam hready h₁
  obtain ⟨config₂, hstored₂, -, hall₂⟩ := stored_of_setIpam hready h₂
  obtain ⟨s₁, hread₁, -, hdecode₁⟩ := hstored₁
  obtain ⟨s₂, hread₂, -, hdecode₂⟩ := hstored₂
  rw [heq] at hread₁
  cases hread₁.symm.trans hread₂
  cases hdecode₁.symm.trans hdecode₂
  obtain ⟨plugin, hplugin⟩ := Option.ne_none_iff_exists'.mp (hplugin htuning)
  have hmem := List.mem_of_find?_eq_some hplugin
  have htype : plugin.type ≠ tuningType := by simpa using List.find?_some hplugin
  obtain ⟨haddresses₁, hroutes₁⟩ := hall₁ plugin hmem htype
  obtain ⟨haddresses₂, hroutes₂⟩ := hall₂ plugin hmem htype
  exact ⟨haddresses₁.symm.trans haddresses₂, hroutes₁.symm.trans hroutes₂⟩

omit [DecidableEq S] in
/-- Of a sorted list without ties, elements of one key are equal. -/
theorem eq_of_pairwise_lt {α : Type} {key : α → String} {l : List α}
    (h : l.Pairwise fun a b => key a < key b) {x y : α} (hx : x ∈ l) (hy : y ∈ l)
    (hkey : key x = key y) : x = y :=
  List.inj_on_of_nodup_map
    (List.pairwise_map.mpr (h.imp fun hlt => ne_of_lt hlt)) hx hy hkey

/-- **The order of the objects and of the Networks.** It does not decide whether the call succeeds,
and shows in what is returned exactly when claims with one address, or claims that reach one
destination, disagree on the gateway. -/
theorem updateResourceFn_arrival_iff
    (hitfce : objs.filter (isGVK interfaceGVK) = [itfce])
    (hvlans : (objs.filter (isGVK vlanClaimGVK)).length ≤ 1) :
    (∀ objs' networkObjs', objs'.Perm objs → networkObjs'.Perm f.networkObjs →
      ((∃ out, Returns api sort { f with networkObjs := networkObjs' } objs' out) ↔
        ∃ out, Returns api sort f objs out)) ∧
    ∀ out spec status ni, Returns api sort f objs out → api.interface itfce = .ok (spec, status) →
      spec.networkInstance = some ni →
      ((∀ objs' networkObjs', objs'.Perm objs → networkObjs'.Perm f.networkObjs →
          Returns api sort { f with networkObjs := networkObjs' } objs' out) ↔
        ni.name = defaultPODNetwork ∨ spec.cniType = tuningType ∨
          Consistent api f.networkObjs (claimsOf api (objs.filter (isGVK ipClaimGVK)))) := by
  constructor
  · intro objs' networkObjs' hperm hnetworks
    constructor
    · rintro ⟨out, h⟩
      have hitfce' : objs'.filter (isGVK interfaceGVK) = [itfce] :=
        List.perm_singleton.mp (hitfce ▸ hperm.filter _)
      have hvlans' : (objs'.filter (isGVK vlanClaimGVK)).length ≤ 1 :=
        (hperm.filter _).length_eq ▸ hvlans
      exact @returns_of_perm V S _ api sort { f with networkObjs := networkObjs' } itfce objs' objs
        f.networkObjs out hitfce' hvlans' hperm.symm hnetworks.symm h
    · rintro ⟨out, h⟩
      exact returns_of_perm hitfce hvlans hperm hnetworks h
  · intro out spec status ni hreturns hread hni
    obtain ⟨wc, hwc, b, hb, hends⟩ := (returns_iff hitfce).mp hreturns
    have hcases := (begins_iff hb.1 hread hni).mp hb
    have hall : (∀ objs' networkObjs', objs'.Perm objs → networkObjs'.Perm f.networkObjs →
          Returns api sort { f with networkObjs := networkObjs' } objs' out) ↔
        ∀ (objs' : List (KubeObject V)) networkObjs', objs'.Perm objs →
          networkObjs'.Perm f.networkObjs → Ends api sort networkObjs' (objs'.filter (isGVK ipClaimGVK)) out b := by
      refine forall₄_congr fun objs' networkObjs' hperm _ => ?_
      rw [returns_perm_iff hitfce hvlans hperm]
      constructor
      · rintro ⟨wc', hwc', b', hb', hends'⟩
        cases hwc.symm.trans hwc'
        rw [← begins_unique hb hb']
        exact hends'
      · intro hends'
        exact ⟨wc, hwc, b, hb, hends'⟩
    rw [hall]
    cases b with
    | nothing => exact iff_of_true (fun _ _ _ _ => hends) (.inl hcases)
    | vlanOnly k =>
      refine iff_of_true (fun _ _ _ _ => hends) (.inr (.inr ?_))
      have hempty := hcases.2.1
      rw [Bool.not_eq_false', List.isEmpty_iff] at hempty
      rw [hempty]
      exact ⟨nofun, nofun⟩
    | attached nad =>
      obtain ⟨hdefault, -, k, hk, hnad⟩ := hcases
      obtain ⟨spec', status', hread', hready⟩ := ready_of_setInterface hk hnad
      cases hread.symm.trans hread'
      rw [or_iff_right hdefault]
      constructor
      · intro hsame
        refine or_iff_not_imp_left.mpr fun htuning => ?_
        obtain ⟨nad', hipam, rfl⟩ := hends
        -- a claim may come first, and what it offers then is in the lists
        have hfirst : ∀ c ∈ claimsOf api (objs.filter (isGVK ipClaimGVK)), ∃ claims,
            addressesOf sort (c :: claims) =
              addressesOf sort (claimsOf api (objs.filter (isGVK ipClaimGVK))) ∧
            routesOf api sort f.networkObjs (c :: claims) =
              routesOf api sort f.networkObjs (claimsOf api (objs.filter (isGVK ipClaimGVK))) := by
          intro c hc
          obtain ⟨objs', claims, hperm, hclaims⟩ := exists_claim_first hc
          obtain ⟨nad'', hipam'', hout⟩ := hsame objs' f.networkObjs hperm (List.Perm.refl _)
          refine ⟨claims, hclaims ▸ ?_⟩
          exact lists_eq_of_stored hready htuning hipam'' hipam (List.singleton_inj.mp hout).symm
        refine ⟨fun c hc c' hc' heq => ?_, fun c hc c' hc' destination hr hr' => ?_⟩
        · obtain ⟨claims, haddresses, -⟩ := hfirst c hc
          obtain ⟨claims', haddresses', -⟩ := hfirst c' hc'
          have hmem := haddresses ▸ mem_addressesOf_cons c claims
          have hmem' := haddresses' ▸ mem_addressesOf_cons c' claims'
          exact congrArg Address.gateway (eq_of_pairwise_lt (pairwise_addressesOf _) hmem hmem' heq)
        · obtain ⟨claims, -, hroutes⟩ := hfirst c hc
          obtain ⟨claims', -, hroutes'⟩ := hfirst c' hc'
          have hmem := hroutes ▸ mem_routesOf_cons hr claims
          have hmem' := hroutes' ▸ mem_routesOf_cons hr' claims'
          exact congrArg Route.gateway (eq_of_pairwise_lt (pairwise_routesOf _ _) hmem hmem' rfl)
      · intro h objs' networkObjs' hperm hnetworks
        exact ends_of_perm hready hends (hperm.filter _) hnetworks h

end Calls

/-! ## Runs -/

/-- One claim: any order will do. -/
theorem one_claim_arrives :
    ∃ out, ∀ (objs' : List (KubeObject NadPayload)) networkObjs',
      objs'.Perm [ranClaim "n3-a" "10.0.0.3/24" "10.0.0.1", interfaceN3] →
      networkObjs'.Perm ranFunction.networkObjs →
      Returns nadPayloadApi .insertion { ranFunction with networkObjs := networkObjs' } objs' out := by
  obtain ⟨f', out, hrun⟩ : ∃ f' out, ranFunction.updateResourceFn nadPayloadApi .insertion
      [ranClaim "n3-a" "10.0.0.3/24" "10.0.0.1", interfaceN3] = .ok (f', .ok out) := ⟨_, _, rfl⟩
  have harrival := @updateResourceFn_arrival_iff _ _ _ nadPayloadApi .insertion ranFunction
    interfaceN3 [ranClaim "n3-a" "10.0.0.3/24" "10.0.0.1", interfaceN3] rfl (by decide)
  refine ⟨out, (harrival.2 out _ _ _ ⟨f', hrun⟩ rfl rfl).mpr (.inr (.inr ⟨?_, ?_⟩))⟩
  · intro c hc c' hc' _
    rw [List.mem_singleton.mp hc, List.mem_singleton.mp hc']
  · intro c hc c' hc' _ _ _
    rw [List.mem_singleton.mp hc, List.mem_singleton.mp hc']

/-- Two claims of one network instance with two gateways: the first one gives the gateway of the
route. -/
theorem gateway_of_first_claim :
    ∃ f₁ f₂ nad₁ nad₂ config₁ config₂,
      ranFunction.updateResourceFn nadPayloadApi .insertion
        [interfaceN3, ranClaim "n3-a" "10.0.0.3/24" "10.0.0.1",
          ranClaim "n3-b" "10.0.0.4/24" "10.0.0.2"] = .ok (f₁, .ok [nad₁]) ∧
      ranFunction.updateResourceFn nadPayloadApi .insertion
        [interfaceN3, ranClaim "n3-b" "10.0.0.4/24" "10.0.0.2",
          ranClaim "n3-a" "10.0.0.3/24" "10.0.0.1"] = .ok (f₂, .ok [nad₂]) ∧
      Stored nadPayloadApi.toNadApi nad₁ config₁ ∧ Stored nadPayloadApi.toNadApi nad₂ config₂ ∧
      config₁.plugins.map (fun plugin => plugin.ipam.routes) =
        [[{ destination := "10.1.0.0/16", gateway := "10.0.0.1" }], []] ∧
      config₂.plugins.map (fun plugin => plugin.ipam.routes) =
        [[{ destination := "10.1.0.0/16", gateway := "10.0.0.2" }], []] :=
  ⟨_, _, _, _, _, _, rfl, rfl, ⟨_, rfl, Option.some_ne_none _, rfl⟩,
    ⟨_, rfl, Option.some_ne_none _, rfl⟩, rfl, rfl⟩

end Nephio.NadFn
