import Nephio.Laws.Controllers.Specializer

/-!
# Laws.Controllers.Discarded: when the generic specializer stores what it computed

The loop that copies the objects back also looks at each Kptfile, and ends the Reconcile at one whose
conditions meet the readiness gates, before the update. What the functions changed is therefore stored
exactly where no Kptfile ends the loop and no object is written over another (`stored_iff`).
-/

namespace Nephio.Controllers.Specializer

variable {V T : Type}

/-! ## The loop -/

/-- The loop goes on after a Kptfile. -/
def Passes (generic : Generic V) (gates : List String) (kptfile : KubeObject V) : Prop :=
  match generic.conditions kptfile with
  | .error _ => True
  | .ok none => False
  | .ok (some conditions) => Approval.packageRevisionIsReady gates conditions = false

/-- No Kptfile ends the loop. -/
def PassesAll (generic : Generic V) (gates : List String) (items : List (KubeObject V)) : Prop :=
  ∀ o ∈ items, isKind kptfileGVK o = true → Passes generic gates o

section Loop

variable {yaml : Yaml V T} {generic : Generic V} {gates : List String}

/-- The loop reaches its end exactly where no Kptfile ends it. -/
theorem exists_genericWriteBack_iff (items : List (KubeObject V)) (resources : Files T) :
    (∃ written, genericWriteBack yaml generic gates items resources = .ok (some written)) ↔
      PassesAll generic gates items := by
  induction items generalizing resources with
  | nil =>
    refine iff_of_true ⟨resources, rfl⟩ fun o ho => ?_
    cases ho
  | cons o items ih =>
    rw [PassesAll, List.forall_mem_cons, ← PassesAll, genericWriteBack]
    by_cases hkind : isKind kptfileGVK o = true
    · rw [if_pos hkind, Passes]
      cases hconditions : generic.conditions o with
      | error err =>
        rw [ih]
        exact (and_iff_right fun _ => trivial).symm
      | ok found =>
        cases found with
        | none =>
          refine iff_of_false (fun h => ?_) fun h => h.1 hkind
          obtain ⟨written, hwritten⟩ := h
          cases hwritten
        | some conditions =>
          dsimp only
          cases hready : Approval.packageRevisionIsReady gates conditions with
          | true =>
            refine iff_of_false (fun h => ?_) fun h => ?_
            · obtain ⟨written, hwritten⟩ := h
              cases hwritten
            · cases h.1 hkind
          | false =>
            rw [if_neg Bool.false_ne_true, ih]
            exact (and_iff_right fun _ => rfl).symm
    · rw [if_neg hkind, ih]
      exact (and_iff_right fun h => absurd h hkind).symm

end Loop

/-! ## The Reconcile -/

/-- The kinds of the claims, of the children of the config injector and of the Kptfile. -/
def specialized : List ObjectReference :=
  [ClaimFns.ipClaimGVK, ClaimFns.vlanClaimGVK, configGVK, kptfileGVK]

/-- A claim, a child or a Kptfile that the functions have changed or added. -/
structure Changed (items items' : List (KubeObject V)) (o : KubeObject V) : Prop where
  mem : o ∈ items'
  changed : o ∉ items
  kind : ∃ gvk ∈ specialized, isKind gvk o = true

/-- A Reconcile of a package revision that is not published and has a root Kptfile, in which the
functions succeed and change something. -/
structure Ran (yaml : Yaml V T) (order : Go.MapOrder Unit String) (call : Call) (generic : Generic V)
    (server : Server T) (pr : Approval.PackageRevision) (resources : Files T)
    (items items' : List (KubeObject V)) : Prop where
  get : call.get = none
  revision : Keyed.lookup Approval.PackageRevision.key call.req server.revisions = some pr
  variant : Approval.packageVariantReady call.getVariant false pr.ownerReferences = .ok true
  unpublished : pr.lifecycle.isPublished = false
  got : getResources call server = .ok resources
  read : getResourceList yaml order resources = .ok items
  processed : processAll generic pr items = .ok items'
  root : hasRootKptfile items' = true
  changed : ∃ o, Changed items items' o

/-- A Reconcile returns an error, or its update stores what the functions have changed. -/
def Stored (yaml : Yaml V T) (items items' : List (KubeObject V))
    (run : Except Go.Panic (Outcome T)) : Prop :=
  ∃ out, run = .ok out ∧ (out.error.isSome = true ∨
    ∃ written, out.updated = some written ∧ ∀ o, Changed items items' o → Holds yaml written o)

section Reconcile

variable {yaml : Yaml V T} {order : Go.MapOrder Unit String} {call : Call} {generic : Generic V}
  {server : Server T} {pr : Approval.PackageRevision} {resources : Files T}
  {items items' : List (KubeObject V)}

/-- Where no function is selected, nothing changes. -/
theorem processAll_of_not_selected
    (h : ([ClaimFns.ipClaimGVK, ClaimFns.vlanClaimGVK, dependencyGVK].any fun forRef =>
      hasSpecificTypeConditions pr.conditions (getConditionType forRef)) = false) :
    processAll generic pr items = .ok items := by
  have hnone : ∀ forRef ∈ [ClaimFns.ipClaimGVK, ClaimFns.vlanClaimGVK, dependencyGVK],
      ∀ krmfn : Function V, process pr forRef krmfn items = .ok items := by
    intro forRef hforRef krmfn
    rw [process, if_neg (List.any_eq_false.mp h forRef hforRef)]
  rw [processAll, hnone _ (by decide)]
  dsimp only [bind, Except.bind]
  rw [hnone _ (by decide)]
  exact hnone _ (by decide) _

/-- The functions that ran are selected by the conditions of the package revision. -/
theorem Ran.selected (h : Ran yaml order call generic server pr resources items items') :
    ([ClaimFns.ipClaimGVK, ClaimFns.vlanClaimGVK, dependencyGVK].any fun forRef =>
      hasSpecificTypeConditions pr.conditions (getConditionType forRef)) = true := by
  cases hselected : [ClaimFns.ipClaimGVK, ClaimFns.vlanClaimGVK, dependencyGVK].any fun forRef =>
      hasSpecificTypeConditions pr.conditions (getConditionType forRef) with
  | true => rfl
  | false =>
    obtain ⟨o, ho⟩ := h.changed
    have hsame := h.processed
    rw [processAll_of_not_selected hselected] at hsame
    exact absurd (Except.ok.inj hsame ▸ ho.mem) ho.changed

/-- What is left of such a Reconcile: the loop, and the update after it. -/
theorem Ran.genericSpecialize_eq (h : Ran yaml order call generic server pr resources items items') :
    genericSpecialize yaml order call generic server =
      (genericWriteBack yaml generic pr.readinessGates items' resources).map fun written =>
        match written with
        | none => {}
        | some written => { error := call.update.map ApiError.msg, updated := some written } := by
  simp only [genericSpecialize, h.get, h.revision, h.variant, h.selected, if_true,
    genericSpecializeFor, h.got, h.read, h.processed, h.unpublished, h.root]
  cases genericWriteBack yaml generic pr.readinessGates items' resources with
  | error panic => rfl
  | ok written => cases written <;> rfl

/-- The Reconcile stores what was changed exactly where the loop reaches its end and, unless the update
fails, each changed object can be read back. -/
theorem Ran.stored_iff_holds (h : Ran yaml order call generic server pr resources items items') :
    Stored yaml items items' (genericSpecialize yaml order call generic server) ↔
      PassesAll generic pr.readinessGates items' ∧ (call.update.isSome = true ∨
        ∀ o, Changed items items' o →
          Holds yaml (writeAll yaml (genericWrites items') resources) o) := by
  rw [h.genericSpecialize_eq, ← @exists_genericWriteBack_iff V T yaml _ _ items' resources]
  cases hloop : genericWriteBack yaml generic pr.readinessGates items' resources with
  | error panic => exact ⟨fun ⟨_, hout, _⟩ => (nomatch hout), fun ⟨⟨_, hend⟩, _⟩ => nomatch hend⟩
  | ok written =>
    cases written with
    | none =>
      refine ⟨fun ⟨out, hout, hstored⟩ => ?_, fun ⟨⟨_, hend⟩, _⟩ => nomatch hend⟩
      rw [← Except.ok.inj hout] at hstored
      exact hstored.elim (fun herror => nomatch herror) fun ⟨_, hupdated, _⟩ => nomatch hupdated
    | some written =>
      obtain rfl := genericWriteBack_eq hloop
      rw [and_iff_right ⟨_, rfl⟩, ← @Option.isSome_map _ _ ApiError.msg call.update]
      constructor
      · intro ⟨out, hout, hstored⟩
        rw [← Except.ok.inj hout] at hstored
        exact hstored.imp_right fun ⟨_, hupdated, hholds⟩ => Option.some.inj hupdated ▸ hholds
      · intro hstored
        exact ⟨_, rfl, hstored.imp_right fun hholds => ⟨_, rfl, hholds⟩⟩

/-- **Nothing is discarded**, exactly where no Kptfile ends the loop and, unless the update fails, each
changed object is the last one written to a file that is read or is in a file that nothing is written
to. -/
theorem Ran.stored_iff_written (h : Ran yaml order call generic server pr resources items items') :
    Stored yaml items items' (genericSpecialize yaml order call generic server) ↔
      PassesAll generic pr.readinessGates items' ∧ (call.update.isSome = true ∨
        ∀ o, Changed items items' o → Written (genericWrites items') o ∨
          Untouched yaml resources (genericWrites items') o) := by
  rw [h.stored_iff_holds]
  refine and_congr_right fun _ => or_congr_right (forall₂_congr fun o _ => ?_)
  exact holds_writeAll_iff (genericWrites items') resources o

end Reconcile

/-! ## Packages with one object per file -/

/-- Each file that is read has one object. -/
def OnePerFile (yaml : Yaml V T) (resources : Files T) : Prop :=
  ∀ file ∈ resources.entries, Go.includeFile file.1 resourcePatterns = true →
    ∀ docs, yaml.parse file.2 = .ok docs → docs.length = 1

/-- The file of an object that is written. -/
def fileOf (o : KubeObject V) : String :=
  if isKind configGVK o then ownedFile configGVK o else pathOf o

/-- A new child of the config injector has a file that no other object is written to. -/
structure NewChild (items items' : List (KubeObject V)) (o : KubeObject V) : Prop where
  kind : isKind configGVK o = true
  path : pathOf o = ""
  readable : Go.includeFile (ownedFile configGVK o) resourcePatterns = true
  free : ∀ i ∈ items, pathOf i = ownedFile configGVK o → i.id = o.id
  only : ∀ o' ∈ items', isKind configGVK o' = true → pathOf o' = "" →
    ownedFile configGVK o' = ownedFile configGVK o → o'.id = o.id

/-- The functions leave the objects that are written in their files, but for new children. -/
structure InPlace (items items' : List (KubeObject V)) : Prop where
  nodup : (Keyed.keys KubeObject.id items').Nodup
  placed : ∀ o ∈ items', targets o ≠ [] →
    (∃ i ∈ items, i.id = o.id ∧ pathOf i = pathOf o) ∨ NewChild items items' o

section OnePerFile

variable {yaml : Yaml V T} {order : Go.MapOrder Unit String} {resources : Files T}
  {items items' : List (KubeObject V)}

theorem pathOf_setPath (o : KubeObject V) (path : String) :
    pathOf (o.setAnnotation pathAnnotationKey path) = path := by
  have hlookup : Keyed.lookup Prod.fst pathAnnotationKey (Keyed.upsert Prod.fst
      (pathAnnotationKey, path) o.annotations) = some (pathAnnotationKey, path) := by
    rw [Keyed.lookup_upsert, if_pos rfl]
  exact congrArg (fun found => (found.map Prod.snd).getD "") hlookup

/-- The path of an object that is read is that of a file that is read. -/
theorem readable_of_mem (h : getResourceList yaml order resources = .ok items) {o : KubeObject V}
    (ho : o ∈ items) : Go.includeFile (pathOf o) resourcePatterns = true := by
  obtain ⟨file, -, hincluded, -, -, d, -, rfl⟩ := exists_file_of_mem h ho
  rw [pathOf_setPath]
  exact hincluded

/-- No two objects that are read have the same path. -/
theorem eq_of_pathOf_eq (h : getResourceList yaml order resources = .ok items)
    (hone : OnePerFile yaml resources) {o o' : KubeObject V} (ho : o ∈ items) (ho' : o' ∈ items)
    (hpath : pathOf o = pathOf o') : o = o' := by
  obtain ⟨file, hfile, hincluded, docs, hdocs, d, hd, rfl⟩ := exists_file_of_mem h ho
  obtain ⟨file', hfile', -, docs', hdocs', d', hd', rfl⟩ := exists_file_of_mem h ho'
  rw [pathOf_setPath, pathOf_setPath] at hpath
  obtain rfl : file = file' := List.inj_on_of_nodup_map resources.nodup hfile hfile' hpath
  obtain rfl : docs = docs' := Except.ok.inj (hdocs.symm.trans hdocs')
  obtain ⟨x, rfl⟩ := List.length_eq_one_iff.mp (hone file hfile hincluded docs hdocs)
  rw [List.mem_singleton.mp hd, List.mem_singleton.mp hd']

theorem fileOf_of_path {o : KubeObject V} (hpath : pathOf o ≠ "") : fileOf o = pathOf o := by
  unfold fileOf ownedFile
  rw [if_neg hpath, ite_self]

/-- An object of another kind than that of the children. -/
theorem fileOf_of_kind {gvk : ObjectReference} {o : KubeObject V} (hkind : isKind gvk o = true)
    (hne : gvk.kind ≠ configGVK.kind) : fileOf o = pathOf o := by
  refine if_neg fun hconfig => hne ?_
  have h := of_decide_eq_true (Bool.and_eq_true_iff.mp hkind).2
  have h' := of_decide_eq_true (Bool.and_eq_true_iff.mp hconfig).2
  exact h.symm.trans h'

/-- An object is written to one file. -/
theorem eq_fileOf_of_mem {o : KubeObject V} {path : String} (h : path ∈ targets o) :
    path = fileOf o := by
  have hmem : ∀ {gvk : ObjectReference} {p : String}, path ∈ (if isKind gvk o then [p] else []) →
      isKind gvk o = true ∧ path = p := by
    intro gvk p hpath
    split at hpath
    next hkind => exact ⟨hkind, List.mem_singleton.mp hpath⟩
    next => cases hpath
  simp only [targets, List.mem_append] at h
  rcases h with (((h | h) | h) | h) | h
  · exact (hmem h).2.trans (fileOf_of_kind (hmem h).1 (by decide)).symm
  · exact (hmem h).2.trans (fileOf_of_kind (hmem h).1 (by decide)).symm
  · exact (hmem h).2.trans (fileOf_of_kind (hmem h).1 (by decide)).symm
  · exact (hmem h).2.trans (if_pos (hmem h).1).symm
  · exact (hmem h).2.trans (fileOf_of_kind (hmem h).1 (by decide)).symm

/-- The claims, the children and the Kptfile are written. -/
theorem fileOf_mem_targets {gvk : ObjectReference} {o : KubeObject V} (hgvk : gvk ∈ specialized)
    (hkind : isKind gvk o = true) : fileOf o ∈ targets o := by
  have hne : targets o ≠ [] := by
    intro hnil
    simp only [targets, List.append_eq_nil_iff, ite_eq_right_iff, reduceCtorEq, imp_false] at hnil
    fin_cases hgvk
    exacts [hnil.1.1.1.1 hkind, hnil.1.1.1.2 hkind, hnil.1.2 hkind, hnil.2 hkind]
  obtain ⟨path, hpath⟩ := List.exists_mem_of_ne_nil _ hne
  exact eq_fileOf_of_mem hpath ▸ hpath

/-- An object that is written stays in the file that it was read from, or is a new child. -/
theorem InPlace.placed_or_new (hplace : InPlace items items')
    (h : getResourceList yaml order resources = .ok items) {o : KubeObject V} (ho : o ∈ items')
    (hwritten : targets o ≠ []) :
    (∃ i ∈ items, i.id = o.id ∧ pathOf i = fileOf o) ∨ NewChild items items' o := by
  refine (hplace.placed o ho hwritten).imp_left fun ⟨i, hi, hid, hpath⟩ => ⟨i, hi, hid, ?_⟩
  have hread := readable_of_mem h hi
  rw [hpath] at hread ⊢
  refine (fileOf_of_path fun hempty => ?_).symm
  rw [hempty] at hread
  exact absurd hread (by decide)

theorem NewChild.fileOf_eq {o : KubeObject V} (hnew : NewChild items items' o) :
    fileOf o = ownedFile configGVK o := if_pos hnew.kind

/-- The file of an object that is written is read. -/
theorem InPlace.readable (hplace : InPlace items items')
    (h : getResourceList yaml order resources = .ok items) {o : KubeObject V} (ho : o ∈ items')
    (hwritten : targets o ≠ []) : Go.includeFile (fileOf o) resourcePatterns = true := by
  rcases hplace.placed_or_new h ho hwritten with ⟨i, hi, -, hpath⟩ | hnew
  · rw [← hpath]
    exact readable_of_mem h hi
  · rw [hnew.fileOf_eq]
    exact hnew.readable

/-- No two objects are written to the same file. -/
theorem InPlace.eq_of_fileOf_eq (hplace : InPlace items items')
    (h : getResourceList yaml order resources = .ok items) (hone : OnePerFile yaml resources)
    {o o' : KubeObject V} (ho : o ∈ items') (hwritten : targets o ≠ []) (ho' : o' ∈ items')
    (hwritten' : targets o' ≠ []) (hfile : fileOf o = fileOf o') : o = o' := by
  refine List.inj_on_of_nodup_map hplace.nodup ho ho' ?_
  rcases hplace.placed_or_new h ho hwritten with ⟨i, hi, hid, hpath⟩ | hnew
  · rcases hplace.placed_or_new h ho' hwritten' with ⟨i', hi', hid', hpath'⟩ | hnew'
    · have hsame := eq_of_pathOf_eq h hone hi hi' (hpath.trans (hfile.trans hpath'.symm))
      rw [← hid, hsame, hid']
    · rw [← hid]
      exact hnew'.free i hi (hpath.trans (hfile.trans hnew'.fileOf_eq))
  · rcases hplace.placed_or_new h ho' hwritten' with ⟨i', hi', hid', hpath'⟩ | hnew'
    · rw [← hid']
      exact (hnew.free i' hi' (hpath'.trans (hfile.symm.trans hnew.fileOf_eq))).symm
    · refine (hnew.only o' ho' hnew'.kind hnew'.path ?_).symm
      rw [← hnew'.fileOf_eq, ← hfile, hnew.fileOf_eq]

/-- What is changed is written, and nothing is written over it. -/
theorem InPlace.written (hplace : InPlace items items')
    (h : getResourceList yaml order resources = .ok items) (hone : OnePerFile yaml resources)
    {o : KubeObject V} (ho : Changed items items' o) : Written (genericWrites items') o := by
  obtain ⟨gvk, hgvk, hkind⟩ := ho.kind
  have htarget := fileOf_mem_targets hgvk hkind
  refine written_of_alone (hplace.readable h ho.mem (List.ne_nil_of_mem htarget))
    (List.mem_flatMap.mpr ⟨o, ho.mem, List.mem_map_of_mem htarget⟩) fun w hw hpath => ?_
  obtain ⟨o', ho', hw⟩ := List.mem_flatMap.mp hw
  obtain ⟨path, htarget', rfl⟩ := List.mem_map.mp hw
  refine hplace.eq_of_fileOf_eq h hone ho' (List.ne_nil_of_mem htarget') ho.mem
    (List.ne_nil_of_mem htarget) ?_
  exact (eq_fileOf_of_mem htarget').symm.trans hpath

end OnePerFile

/-- **What the generic specializer computed is stored**, in a Reconcile of a package revision that is
not published, exactly where no Kptfile ends the loop and, unless the update fails, nothing is written
over a changed object. With one object per file, and new children in files of their own, the first of
the two decides. -/
theorem stored_iff (yaml : Yaml V T) (order : Go.MapOrder Unit String) (call : Call)
    (generic : Generic V) (server : Server T) (pr : Approval.PackageRevision) (resources : Files T)
    (items items' : List (KubeObject V))
    (h : Ran yaml order call generic server pr resources items items') :
    (Stored yaml items items' (genericSpecialize yaml order call generic server) ↔
      PassesAll generic pr.readinessGates items' ∧ (call.update.isSome = true ∨
        ∀ o, Changed items items' o → Written (genericWrites items') o ∨
          Untouched yaml resources (genericWrites items') o)) ∧
    (OnePerFile yaml resources → InPlace items items' →
      (Stored yaml items items' (genericSpecialize yaml order call generic server) ↔
        PassesAll generic pr.readinessGates items')) := by
  refine ⟨h.stored_iff_written, fun hone hplace => ?_⟩
  rw [h.stored_iff_written]
  exact and_iff_left (Or.inr fun o ho => Or.inl (hplace.written h.read hone ho))

/-! ### A package that becomes ready -/

/-- A function that allocates the address of the claim, and says so in the Kptfile. -/
def allocate (o : KubeObject Unit) : KubeObject Unit :=
  if isKind ClaimFns.ipClaimGVK o || isKind kptfileGVK o then { o with status := some () } else o

def allocating : Generic Unit where
  ipamkrmfn items := (items.map allocate, none)
  vlankrmfn := unchanging
  configInjectkrmfn := unchanging
  conditions o := .ok (some
    [⟨"ipam.resource.nephio.org/v1alpha1.IPClaim.n3", if o.status.isSome then "True" else "False"⟩])

def revisionWith (gates : List String) : Approval.PackageRevision :=
  { revision with readinessGates := gates }

def serverWith (gates : List String) : Server (List (KubeObject Unit)) where
  revisions := [revisionWith gates]
  resources _ := some separate

/-- The objects of the package, and what the function leaves. -/
def objects : List (KubeObject Unit) :=
  [placed kptfile "Kptfile", placed ipClaim "claim.yaml", placed configMap "map.yaml"]

theorem ran_allocating (gates : List String) :
    Ran documents .insertion { req := revision.key } allocating (serverWith gates)
      (revisionWith gates) separate objects (objects.map allocate) where
  get := rfl
  revision := rfl
  variant := rfl
  unpublished := rfl
  got := rfl
  read := by
    have hread : Fallible.okAnd (fun items => items = objects)
        (getResourceList documents .insertion separate) = true := by decide +kernel
    obtain ⟨items, hitems, hsame⟩ := Fallible.exists_of_okAnd hread
    rw [hitems, of_decide_eq_true hsame]
  processed := by
    have hprocess : Fallible.okAnd (fun items => items = objects.map allocate)
        (processAll allocating (revisionWith []) objects) = true := by decide +kernel
    obtain ⟨items, hitems, hsame⟩ := Fallible.exists_of_okAnd hprocess
    rw [← of_decide_eq_true hsame]
    exact hitems
  root := by decide +kernel
  changed := ⟨allocate (placed ipClaim "claim.yaml"), by decide +kernel, by decide +kernel,
    ClaimFns.ipClaimGVK, by decide +kernel, by decide +kernel⟩

theorem onePerFile_separate : OnePerFile documents separate := by
  intro file hfile _ docs hdocs
  obtain rfl : file.2 = docs := Except.ok.inj hdocs
  have hone : ∀ file ∈ separate.entries, file.2.length = 1 := by decide +kernel
  exact hone file hfile

theorem inPlace_objects : InPlace objects (objects.map allocate) where
  nodup := by decide +kernel
  placed := by
    have hplaced : ∀ o ∈ objects.map allocate, ∃ i ∈ objects, i.id = o.id ∧ pathOf i = pathOf o := by
      decide +kernel
    exact fun o ho _ => Or.inl (hplaced o ho)

/-- While the package waits for another gate, the allocation is stored. -/
theorem allocation_stored_while_waiting :
    Stored documents objects (objects.map allocate) (genericSpecialize documents .insertion
      { req := revision.key } allocating (serverWith ["nephio.Specializer.specialize"])) := by
  refine ((stored_iff documents .insertion { req := revision.key } allocating _ _ separate objects
    (objects.map allocate) (ran_allocating _)).2 onePerFile_separate inPlace_objects).mpr ?_
  have hwaits : ∀ allocated : Bool, Approval.packageRevisionIsReady ["nephio.Specializer.specialize"]
      [⟨"ipam.resource.nephio.org/v1alpha1.IPClaim.n3", if allocated then "True" else "False"⟩] =
        false := by decide +kernel
  exact fun o _ _ => hwaits o.status.isSome

/-- What is thrown away: neither an error nor an update. -/
theorem not_stored_of_okAnd {items items' : List (KubeObject Unit)}
    {run : Except Go.Panic (Outcome (List (KubeObject Unit)))}
    (h : Fallible.okAnd (fun out => out.error = none && out.updated = none) run = true) :
    ¬ Stored documents items items' run := by
  intro ⟨out, hout, hstored⟩
  obtain ⟨out', hout', hnone⟩ := Fallible.exists_of_okAnd h
  rw [hout] at hout'
  obtain rfl := Except.ok.inj hout'
  obtain ⟨herror, hupdated⟩ := Bool.and_eq_true_iff.mp hnone
  rcases hstored with hsome | ⟨written, hwritten, -⟩
  · rw [of_decide_eq_true herror] at hsome
    cases hsome
  · rw [of_decide_eq_true hupdated] at hwritten
    cases hwritten

/-- The allocation that makes the package ready is discarded without an error, and so is that of a
package without readiness gates. -/
theorem allocation_discarded_when_ready :
    (Ran documents .insertion { req := revision.key } allocating
        (serverWith ["ipam.resource.nephio.org/v1alpha1.IPClaim.n3"])
        (revisionWith ["ipam.resource.nephio.org/v1alpha1.IPClaim.n3"]) separate objects
        (objects.map allocate) ∧
      ¬ Stored documents objects (objects.map allocate) (genericSpecialize documents .insertion
        { req := revision.key } allocating
        (serverWith ["ipam.resource.nephio.org/v1alpha1.IPClaim.n3"]))) ∧
    (Ran documents .insertion { req := revision.key } allocating (serverWith []) (revisionWith [])
        separate objects (objects.map allocate) ∧
      ¬ Stored documents objects (objects.map allocate) (genericSpecialize documents .insertion
        { req := revision.key } allocating (serverWith []))) ∧
    OnePerFile documents separate :=
  ⟨⟨ran_allocating _, not_stored_of_okAnd (by decide +kernel)⟩,
    ⟨ran_allocating _, not_stored_of_okAnd (by decide +kernel)⟩, onePerFile_separate⟩

end Nephio.Controllers.Specializer
