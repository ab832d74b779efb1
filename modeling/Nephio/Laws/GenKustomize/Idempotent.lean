import Nephio.Data.Arrival
import Nephio.Data.Fallible
import Nephio.GenKustomize.Main

/-!
# What gen-kustomize-res leaves in a Kustomization

A run enters the paths of all objects that are not local, and keeps what is listed. The paths are
compared with each other only where something is listed already. So two objects in one file are
entered twice in a new or empty Kustomization, and the next run takes the second entry out: the list
has no duplicates exactly if the next run changes nothing (`run_again_iff`).
-/

namespace Nephio.GenKustomize

open Loops

variable {V : Type}

/-! ## The lists of paths -/

/-- The objects whose paths are entered. -/
def entered (o : KubeObject V) : Bool := !isLocalConfig o && !isKustomization o

theorem getNonLocalConfig_eq (items : List (KubeObject V)) :
    getNonLocalConfig items = (items.filter entered).map pathOf := by
  have hloop : ∀ (items : List (KubeObject V)) (resources : List String),
      items.foldl (fun resources item =>
        if !isLocalConfig item && !isKustomization item then resources ++ [pathOf item]
        else resources) resources = resources ++ (items.filter entered).map pathOf := by
    intro items
    induction items with
    | nil => exact fun resources => (List.append_nil resources).symm
    | cons item items ih =>
      intro resources
      rw [List.foldl_cons, ih, List.filter_cons]
      unfold entered
      split_ifs
      · rw [List.append_assoc]
        rfl
      · rfl
  exact hloop items []

theorem foldl_addUnique {m : List (String × Bool)} {result : List String}
    (h : ∀ item, ((Keyed.lookup Prod.fst item m).map Prod.snd).getD false = true ↔ item ∈ result)
    (l : List String) :
    ∃ m', l.foldl addUnique (m, result) = (m', l.foldl (addFirst id) result) ∧
      ∀ item, ((Keyed.lookup Prod.fst item m').map Prod.snd).getD false = true ↔
        item ∈ l.foldl (addFirst id) result := by
  induction l generalizing m result with
  | nil => exact ⟨m, rfl, h⟩
  | cons x l ih =>
    rw [List.foldl_cons, List.foldl_cons]
    by_cases hx : x ∈ result
    · have hunique : addUnique (m, result) x = (m, result) := by
        rw [addUnique, (h x).mpr hx]
        rfl
      rw [hunique, addFirst_of_mem hx]
      exact ih h
    · have hnew : ((Keyed.lookup Prod.fst x m).map Prod.snd).getD false = false := by
        rw [← Bool.not_eq_true, h x]
        exact hx
      have hunique : addUnique (m, result) x =
          (Keyed.upsert Prod.fst (x, true) m, result ++ [x]) := by
        rw [addUnique, hnew]
        rfl
      rw [hunique, addFirst_of_notMem hx]
      apply ih
      intro item
      rw [Keyed.lookup_upsert, List.mem_append, List.mem_singleton]
      by_cases hitem : x = item
      · rw [if_pos hitem]
        exact iff_of_true rfl (Or.inr hitem.symm)
      · rw [if_neg hitem, h item]
        exact (or_iff_left fun heq => hitem heq.symm).symm

theorem mergeAndRemoveDuplicates_eq (a b : List String) :
    mergeAndRemoveDuplicates [a, b] = firsts id (a ++ b) := by
  obtain ⟨m, hm, hmem⟩ := @foldl_addUnique [] []
    (fun item => iff_of_false Bool.false_ne_true List.not_mem_nil) a
  obtain ⟨m', hm', -⟩ := foldl_addUnique hmem b
  show (b.foldl addUnique (a.foldl addUnique ([], []))).2 = _
  rw [hm, hm', firsts, List.foldl_append]

/-! ## The Kustomization -/

section Target

variable {api : SliceApi V}

theorem isKustomization_congr {o o' : KubeObject V} (h : o.id = o'.id) :
    isKustomization o = isKustomization o' := by
  have hversion : o.apiVersion = o'.apiVersion := congrArg Prod.fst h
  have hkind : o.kind = o'.kind := congrArg (fun id => id.2.1) h
  rw [isKustomization, isGroupKind, isKustomization, isGroupKind, hversion, hkind]

/-- The paths that are listed already. -/
def listed (api : SliceApi V) (items : List (KubeObject V)) : List String :=
  ((getExistingKustomization items).map (nestedStringSlice api)).getD []

theorem isKustomization_target (items : List (KubeObject V)) :
    isKustomization (target api items).1 = true := by
  unfold target
  cases hexisting : getExistingKustomization items with
  | none =>
    show decide (((parseGroupVersion "kustomize.config.k8s.io/v1beta1").toOption.map
      GroupVersion.group).getD "" = kustomizeGroup ∧ "Kustomization" = kustomizeKind) = true
    decide +kernel
  | some o =>
    dsimp only
    split_ifs <;> exact List.find?_some hexisting

theorem target_eq (items : List (KubeObject V)) :
    (target api items).2 =
      if listed api items = [] then getNonLocalConfig items
      else firsts id (listed api items ++ getNonLocalConfig items) := by
  unfold target listed
  cases getExistingKustomization items with
  | none => rfl
  | some o =>
    rw [Option.map_some, Option.getD_some, ← mergeAndRemoveDuplicates_eq]
    dsimp only
    cases nestedStringSlice api o <;> rfl

theorem id_of_existing {items : List (KubeObject V)} {o : KubeObject V}
    (h : getExistingKustomization items = some o) : (target api items).1 = o := by
  unfold target
  rw [h]
  dsimp only
  split_ifs <;> rfl

theorem setNestedStringSlice_eq_ok {l : List String} {o o' : KubeObject V}
    (h : setNestedStringSlice api l o = .ok o') :
    o'.id = o.id ∧ nestedStringSlice api o' = l := by
  obtain ⟨v, hv, ho'⟩ := Fallible.bind_eq_ok.mp h
  rw [← Except.ok.inj ho']
  refine ⟨rfl, ?_⟩
  simp only [nestedStringSlice, Keyed.lookup_upsert, if_true, api.read_write l v hv]

/-- Writing the list that is there, once it was written, changes nothing. -/
theorem setNestedStringSlice_again {l : List String} {o o' : KubeObject V}
    (h : setNestedStringSlice api l o = .ok o') : setNestedStringSlice api l o' = .ok o' := by
  obtain ⟨v, hv, ho'⟩ := Fallible.bind_eq_ok.mp h
  rw [← Except.ok.inj ho', setNestedStringSlice, hv]
  refine congrArg Except.ok ?_
  rw [Keyed.upsert_upsert_self]

end Target

/-! ## Runs -/

section Runs

variable {api : SliceApi V} {rl rl' : ResourceList V}

theorem run_eq_true_iff :
    run api rl = (true, rl') ↔
      ∃ kust, setNestedStringSlice api (target api rl.items).2 (target api rl.items).1 = .ok kust ∧
        rl' = { rl with items := upsertObjectToItems kust rl.items } := by
  unfold run
  dsimp only
  cases setNestedStringSlice api (target api rl.items).2 (target api rl.items).1 with
  | error err =>
    refine iff_of_false (fun h => ?_) (fun ⟨_, h, _⟩ => ?_)
    · cases (Prod.mk.inj h).1
    · cases h
  | ok kust =>
    constructor
    · intro h
      exact ⟨kust, rfl, (Prod.mk.inj h).2.symm⟩
    · rintro ⟨kust', hkust, rfl⟩
      rw [Except.ok.inj hkust]

theorem isKustomization_of_set {items : List (KubeObject V)} {l : List String} {kust : KubeObject V}
    (h : setNestedStringSlice api l (target api items).1 = .ok kust) :
    isKustomization kust = true :=
  (isKustomization_congr (setNestedStringSlice_eq_ok h).1).trans (isKustomization_target items)

/-- The Kustomization that was written is the first one. -/
theorem existing_upsert {items : List (KubeObject V)} {l : List String} {kust : KubeObject V}
    (h : setNestedStringSlice api l (target api items).1 = .ok kust) :
    getExistingKustomization (upsertObjectToItems kust items) = some kust := by
  apply Keyed.find?_upsert _ (isKustomization_of_set h)
  intro y hy
  rw [(setNestedStringSlice_eq_ok h).1, id_of_existing hy]

theorem nonLocal_upsert {items : List (KubeObject V)} {kust : KubeObject V}
    (h : isKustomization kust = true) :
    getNonLocalConfig (upsertObjectToItems kust items) = getNonLocalConfig items := by
  rw [getNonLocalConfig_eq, getNonLocalConfig_eq, upsertObjectToItems,
    Keyed.filter_upsert_of_false]
  · simp only [entered, h, Bool.not_true, Bool.and_false]
  · intro y _ hid
    simp only [entered, isKustomization_congr hid, h, Bool.not_true, Bool.and_false]

theorem nonLocal_subset_target (items : List (KubeObject V)) :
    ∀ p ∈ getNonLocalConfig items, p ∈ (target api items).2 := by
  intro p hp
  rw [target_eq]
  split_ifs
  · exact hp
  · exact mem_firsts_id_iff.mpr (List.mem_append_right _ hp)

theorem listed_subset_target (items : List (KubeObject V)) :
    ∀ p ∈ listed api items, p ∈ (target api items).2 := by
  intro p hp
  rw [target_eq, if_neg (List.ne_nil_of_mem hp)]
  exact mem_firsts_id_iff.mpr (List.mem_append_left _ hp)

theorem nodup_target_iff (items : List (KubeObject V)) :
    (target api items).2.Nodup ↔ listed api items ≠ [] ∨ (getNonLocalConfig items).Nodup := by
  rw [target_eq]
  split_ifs with hlisted
  · rw [or_iff_right (not_not.mpr hlisted)]
  · have hnodup := @nodup_firsts _ _ _ id (listed api items ++ getNonLocalConfig items)
    rw [List.map_id] at hnodup
    exact iff_of_true hnodup (Or.inl hlisted)

/-- What the next run writes. -/
theorem target_again {items : List (KubeObject V)} {kust : KubeObject V}
    (h : setNestedStringSlice api (target api items).2 (target api items).1 = .ok kust) :
    target api (upsertObjectToItems kust items) = (kust, firsts id (target api items).2) := by
  have hexisting := existing_upsert h
  have hlisted : listed api (upsertObjectToItems kust items) = (target api items).2 := by
    rw [listed, hexisting]
    exact (setNestedStringSlice_eq_ok h).2
  refine Prod.ext (id_of_existing hexisting) ?_
  rw [target_eq, hlisted, nonLocal_upsert (isKustomization_of_set h)]
  split_ifs with hnil
  · -- nothing is listed, so that nothing is to be entered
    have hnone : getNonLocalConfig items = [] := by
      apply List.eq_nil_iff_forall_not_mem.mpr
      intro p hp
      have hmem := @nonLocal_subset_target _ api items p hp
      rw [hnil] at hmem
      exact List.not_mem_nil hmem
    rw [hnone, hnil]
    rfl
  · rw [firsts, List.foldl_append]
    apply foldl_addFirst_of_forall
    intro p hp
    exact ⟨p, mem_firsts_id_iff.mpr (nonLocal_subset_target items p hp), rfl⟩

/-- **After a run**, the first Kustomization lists the path of every object that is not local, and
what it listed before. It has no duplicates exactly if something was listed before or the paths are
distinct, and exactly then another run changes nothing. -/
theorem run_again_iff (h : run api rl = (true, rl')) :
    ∃ kust, getExistingKustomization rl'.items = some kust ∧
      (∀ o ∈ rl'.items, isLocalConfig o = false → isKustomization o = false →
        pathOf o ∈ nestedStringSlice api kust) ∧
      (∀ p ∈ listed api rl.items, p ∈ nestedStringSlice api kust) ∧
      ((nestedStringSlice api kust).Nodup ↔
        listed api rl.items ≠ [] ∨ (getNonLocalConfig rl.items).Nodup) ∧
      (run api rl' = (true, rl') ↔
        listed api rl.items ≠ [] ∨ (getNonLocalConfig rl.items).Nodup) := by
  obtain ⟨kust, hset, rfl⟩ := run_eq_true_iff.mp h
  have hlist := (setNestedStringSlice_eq_ok hset).2
  refine ⟨kust, existing_upsert hset, fun o ho hlocal hkust => ?_, fun p hp => ?_, ?_, ?_⟩
  · rw [hlist]
    apply nonLocal_subset_target
    rw [← nonLocal_upsert (isKustomization_of_set hset), getNonLocalConfig_eq]
    apply List.mem_map_of_mem
    refine List.mem_filter.mpr ⟨ho, ?_⟩
    rw [entered, hlocal, hkust]
    rfl
  · rw [hlist]
    exact listed_subset_target rl.items p hp
  · rw [hlist, nodup_target_iff]
  · rw [← nodup_target_iff, run_eq_true_iff, target_again hset]
    have hself : firsts id (target api rl.items).2 = (target api rl.items).2 ↔
        (target api rl.items).2.Nodup := by
      rw [firsts_eq_self_iff, List.map_id]
    rw [← hself]
    constructor
    · rintro ⟨kust', hkust', heq⟩
      have hkust : (target api (upsertObjectToItems kust rl.items)).1 = kust :=
        congrArg Prod.fst (target_again hset)
      have hfirst : getExistingKustomization (upsertObjectToItems kust' (upsertObjectToItems kust
          rl.items)) = some kust' := existing_upsert (hkust.symm ▸ hkust')
      have hitems : upsertObjectToItems kust rl.items =
          upsertObjectToItems kust' (upsertObjectToItems kust rl.items) :=
        congrArg ResourceList.items heq
      rw [← hitems, existing_upsert hset] at hfirst
      have hlist' := (setNestedStringSlice_eq_ok hkust').2
      rw [← Option.some.inj hfirst, hlist] at hlist'
      exact hlist'.symm
    · intro hfirsts
      refine ⟨kust, ?_, ?_⟩
      · rw [hfirsts]
        exact setNestedStringSlice_again hset
      · show ({ rl with items := _ } : ResourceList V) = { rl with items := _ }
        rw [upsertObjectToItems, upsertObjectToItems, Keyed.upsert_upsert_self]

end Runs

/-- Lists of texts as they are. -/
def plainSlice : SliceApi (List String) where
  read l := .ok l
  write l := .ok l
  emptySlice := []
  read_write l v h := by rw [Except.ok.inj h]

/-- An object in a file. -/
def inFile (path name : String) : KubeObject (List String) :=
  { apiVersion := "v1", kind := "ConfigMap", name := name
    annotations := [(pathAnnotationKey, path)] }

theorem distinct_files_settle :
    ∃ rl', run plainSlice { items := [inFile "a.yaml" "a", inFile "b.yaml" "b"] } = (true, rl') ∧
      run plainSlice rl' = (true, rl') := by
  obtain ⟨rl', hrl'⟩ : ∃ rl', run plainSlice
      { items := [inFile "a.yaml" "a", inFile "b.yaml" "b"] } = (true, rl') := ⟨_, rfl⟩
  obtain ⟨-, -, -, -, -, hagain⟩ := run_again_iff hrl'
  exact ⟨rl', hrl', hagain.mpr (Or.inr (by decide +kernel))⟩

/-- Two objects in one file are entered twice, and the next run takes one entry out. -/
theorem one_file_entered_twice :
    ∃ rl' rl'' kust kust', run plainSlice { items := [inFile "a.yaml" "a", inFile "a.yaml" "b"] } =
        (true, rl') ∧ run plainSlice rl' = (true, rl'') ∧
      getExistingKustomization rl'.items = some kust ∧
      nestedStringSlice plainSlice kust = ["a.yaml", "a.yaml"] ∧
      getExistingKustomization rl''.items = some kust' ∧
      nestedStringSlice plainSlice kust' = ["a.yaml"] :=
  ⟨_, _, _, _, rfl, rfl, rfl, rfl, rfl, rfl⟩

end Nephio.GenKustomize
