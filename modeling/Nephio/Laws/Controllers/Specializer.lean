import Nephio.Controllers.Specializer
import Nephio.Data.Fallible

/-!
# Laws.Controllers.Specializer: what a write-back keeps

The specializers read the files of a package into a list of objects and write objects back one by one,
each over the whole text of a file. An object can be read back exactly where it is the last that is
written to a file that is read, or is in such a file that nothing is written to (`write_back_iff`).
-/

namespace Nephio.Controllers.Specializer

variable {V T : Type}

/-- An object without the annotation of its file. -/
def unplaced (o : KubeObject V) : KubeObject V :=
  { o with annotations := Keyed.drop Prod.fst pathAnnotationKey o.annotations }

section Holds

variable (yaml : Yaml V T)

/-- A file that is read holds an object. -/
def FileHolds (file : String × T) (o : KubeObject V) : Prop :=
  Go.includeFile file.1 resourcePatterns = true ∧
    ∃ docs, yaml.parse file.2 = .ok docs ∧ ∃ d ∈ docs, unplaced d = unplaced o

/-- An object of a package. -/
def Holds (files : Files T) (o : KubeObject V) : Prop :=
  ∃ file ∈ files.entries, FileHolds yaml file o

/-- The last object that is written to a file. -/
def lastWrite (writes : List (String × KubeObject V)) (path : String) : Option (KubeObject V) :=
  (writes.filter fun w => w.1 = path).getLast?.map Prod.snd

/-- An object is the last that is written to a file that is read. -/
def Written (writes : List (String × KubeObject V)) (o : KubeObject V) : Prop :=
  ∃ path o', Go.includeFile path resourcePatterns = true ∧ lastWrite writes path = some o' ∧
    unplaced o' = unplaced o

/-- An object is in a file that nothing is written to. -/
def Untouched (files : Files T) (writes : List (String × KubeObject V)) (o : KubeObject V) : Prop :=
  ∃ file ∈ files.entries, (∀ w ∈ writes, w.1 ≠ file.1) ∧ FileHolds yaml file o

/-- The writes, in turn. -/
def writeAll (writes : List (String × KubeObject V)) (files : Files T) : Files T :=
  writes.foldl (fun files w => files.write w.1 (yaml.print w.2)) files

end Holds

section Write

variable {yaml : Yaml V T}

theorem unplaced_setPath (o : KubeObject V) (path : String) :
    unplaced (o.setAnnotation pathAnnotationKey path) = unplaced o := by
  have hdrop : Keyed.drop Prod.fst pathAnnotationKey (Keyed.upsert Prod.fst (pathAnnotationKey, path)
      o.annotations) = Keyed.drop Prod.fst pathAnnotationKey o.annotations := by
    unfold Keyed.drop
    rw [Keyed.filter_upsert Prod.fst (fun a b hab => by rw [hab]), if_neg]
    rw [decide_eq_true_eq]
    exact fun hne => hne rfl
  unfold unplaced KubeObject.setAnnotation
  rw [hdrop]

theorem fileHolds_print {path : String} {o o' : KubeObject V} :
    FileHolds yaml (path, yaml.print o') o ↔
      Go.includeFile path resourcePatterns = true ∧ unplaced o' = unplaced o := by
  refine and_congr_right fun _ => ⟨fun ⟨docs, hdocs, d, hd, hsame⟩ => ?_, fun hsame => ?_⟩
  · rw [yaml.parse_print] at hdocs
    rw [← Except.ok.inj hdocs] at hd
    rw [← List.mem_singleton.mp hd]
    exact hsame
  · exact ⟨_, yaml.parse_print o', o', List.mem_cons_self, hsame⟩

theorem entries_writeAll (writes : List (String × KubeObject V)) (files : Files T) :
    (writeAll yaml writes files).entries =
      Keyed.upsertAll Prod.fst (writes.map fun w => (w.1, yaml.print w.2)) files.entries := by
  induction writes generalizing files with
  | nil => rfl
  | cons w writes ih => exact ih (files.write w.1 (yaml.print w.2))

/-- A file after the writes has the last of them, or is as before. -/
theorem lookup_writeAll (writes : List (String × KubeObject V)) (files : Files T) (path : String) :
    Keyed.lookup Prod.fst path (writeAll yaml writes files).entries =
      ((lastWrite writes path).map fun o => (path, yaml.print o)).or
        (Keyed.lookup Prod.fst path files.entries) := by
  rw [entries_writeAll, Keyed.lookup_upsertAll, List.filter_map, List.getLast?_map, lastWrite,
    Option.map_map]
  congr 1
  refine Option.map_congr fun w hw => ?_
  have hmem := List.mem_of_getLast? hw
  have hpath : w.1 = path := of_decide_eq_true (List.mem_filter.mp hmem).2
  exact Prod.ext hpath rfl

theorem holds_iff_lookup {files : Files T} {o : KubeObject V} :
    Holds yaml files o ↔ ∃ path file, Keyed.lookup Prod.fst path files.entries = some file ∧
      FileHolds yaml file o := by
  constructor
  · intro ⟨file, hfile, hholds⟩
    exact ⟨file.1, file, Keyed.lookup_of_mem Prod.fst files.nodup hfile, hholds⟩
  · intro ⟨path, file, hlookup, hholds⟩
    exact ⟨file, Keyed.mem_of_lookup Prod.fst hlookup, hholds⟩

theorem lastWrite_eq_none {writes : List (String × KubeObject V)} {path : String} :
    lastWrite writes path = none ↔ ∀ w ∈ writes, w.1 ≠ path := by
  rw [lastWrite, Option.map_eq_none_iff, List.getLast?_eq_none_iff, List.filter_eq_nil_iff]
  refine forall₂_congr fun w hw => ?_
  rw [decide_eq_true_eq]

/-- **A write-back** keeps what it writes last and what it does not touch. -/
theorem holds_writeAll_iff (writes : List (String × KubeObject V)) (files : Files T)
    (o : KubeObject V) :
    Holds yaml (writeAll yaml writes files) o ↔ Written writes o ∨ Untouched yaml files writes o := by
  rw [holds_iff_lookup]
  constructor
  · intro ⟨path, file, hlookup, hholds⟩
    rw [lookup_writeAll] at hlookup
    cases hlast : lastWrite writes path with
    | none =>
      right
      rw [hlast, Option.map_none, Option.none_or] at hlookup
      refine ⟨file, Keyed.mem_of_lookup Prod.fst hlookup, ?_, hholds⟩
      rw [Keyed.key_of_lookup Prod.fst hlookup]
      exact lastWrite_eq_none.mp hlast
    | some o' =>
      left
      rw [hlast, Option.map_some, Option.some_or] at hlookup
      rw [← Option.some.inj hlookup, fileHolds_print] at hholds
      exact ⟨path, o', hholds.1, hlast, hholds.2⟩
  · intro h
    rcases h with ⟨path, o', hread, hlast, hsame⟩ | ⟨file, hfile, huntouched, hholds⟩
    · refine ⟨path, (path, yaml.print o'), ?_, fileHolds_print.mpr ⟨hread, hsame⟩⟩
      rw [lookup_writeAll, hlast, Option.map_some, Option.some_or]
    · refine ⟨file.1, file, ?_, hholds⟩
      rw [lookup_writeAll, lastWrite_eq_none.mpr huntouched, Option.map_none, Option.none_or]
      exact Keyed.lookup_of_mem Prod.fst files.nodup hfile

/-- An object that alone is written to its file. -/
theorem written_of_alone {writes : List (String × KubeObject V)} {path : String} {o : KubeObject V}
    (hread : Go.includeFile path resourcePatterns = true) (hwrite : (path, o) ∈ writes)
    (halone : ∀ w ∈ writes, w.1 = path → w.2 = o) : Written writes o := by
  cases hlast : lastWrite writes path with
  | none => exact absurd rfl (lastWrite_eq_none.mp hlast _ hwrite)
  | some o' =>
    refine ⟨path, o', hread, hlast, ?_⟩
    obtain ⟨w, hw, rfl⟩ := Option.map_eq_some_iff.mp hlast
    obtain ⟨hmem, hpath⟩ := List.mem_filter.mp (List.mem_of_getLast? hw)
    rw [halone w hmem (of_decide_eq_true hpath)]

end Write

/-! ## Reading -/

section Read

variable {yaml : Yaml V T} {order : Go.MapOrder Unit String} {resources : Files T}
  {items : List (KubeObject V)}

theorem mem_of_mem_upsertObjects {nodes items : List (KubeObject V)} {o : KubeObject V}
    (h : o ∈ nodes.foldl (fun items o => upsertObjectToItems o items) items) :
    o ∈ nodes ∨ o ∈ items := Keyed.mem_of_mem_upsertAll KubeObject.id h

/-- Every object that is read is in a file, whose path it gets. -/
theorem exists_file_of_mem (h : getResourceList yaml order resources = .ok items)
    {o : KubeObject V} (ho : o ∈ items) :
    ∃ file ∈ resources.entries, Go.includeFile file.1 resourcePatterns = true ∧
      ∃ docs, yaml.parse file.2 = .ok docs ∧
        ∃ d ∈ docs, d.setAnnotation pathAnnotationKey file.1 = o := by
  obtain ⟨nodes, hnodes, hitems⟩ := Fallible.bind_eq_ok.mp h
  rw [← Except.ok.inj hitems] at ho
  rcases mem_of_mem_upsertObjects ho with ho | ho
  · obtain ⟨node, hnode, ho⟩ := List.mem_flatten.mp ho
    obtain ⟨file, hfile, hread⟩ := Fallible.exists_of_mem_mapM hnodes node hnode
    obtain ⟨hmem, hincluded⟩ := List.mem_filter.mp hfile
    obtain ⟨docs, hdocs, hnode⟩ := Fallible.bind_eq_ok.mp hread
    rw [← Except.ok.inj hnode] at ho
    have hfile := (order.perm () resources.entries).mem_iff.mp hmem
    exact ⟨file, hfile, hincluded, docs, hdocs, List.mem_map.mp ho⟩
  · cases ho

theorem holds_of_mem (h : getResourceList yaml order resources = .ok items) {o : KubeObject V}
    (ho : o ∈ items) : Holds yaml resources o := by
  obtain ⟨file, hfile, hincluded, docs, hdocs, d, hd, rfl⟩ := exists_file_of_mem h ho
  exact ⟨file, hfile, hincluded, docs, hdocs, d, hd, (unplaced_setPath d file.1).symm⟩

end Read

/-! ## The two reconcilers -/

/-- The writes of the specializers. -/
def specializerWrites (items : List (KubeObject V)) : List (String × KubeObject V) :=
  items.map fun o => (pathOf o, o)

/-- The writes of the generic specializer. -/
def genericWrites (items : List (KubeObject V)) : List (String × KubeObject V) :=
  items.flatMap fun o => (targets o).map fun path => (path, o)

section Reconcile

variable {yaml : Yaml V T} {order : Go.MapOrder Unit String} {call : Call} {server : Server T}
  {written : Files T}

theorem writeBack_eq (items : List (KubeObject V)) (resources : Files T) :
    writeBack yaml items resources = writeAll yaml (specializerWrites items) resources := by
  rw [writeAll, specializerWrites, List.foldl_map]
  rfl

theorem genericWriteBack_eq {generic : Generic V} {gates : List String}
    {items : List (KubeObject V)} {resources : Files T}
    (h : genericWriteBack yaml generic gates items resources = .ok (some written)) :
    written = writeAll yaml (genericWrites items) resources := by
  induction items generalizing resources with
  | nil => exact (Option.some.inj (Except.ok.inj h)).symm
  | cons o items ih =>
    have hhead : (targets o).foldl (fun resources path => resources.write path (yaml.print o))
        resources = writeAll yaml ((targets o).map fun path => (path, o)) resources := by
      rw [writeAll, List.foldl_map]
    have hcons : writeAll yaml (genericWrites (o :: items)) resources = writeAll yaml
        (genericWrites items) (writeAll yaml ((targets o).map fun path => (path, o)) resources) := by
      rw [genericWrites, List.flatMap_cons, writeAll, List.foldl_append]
      rfl
    rw [hcons]
    rw [genericWriteBack, hhead] at h
    split at h
    · split at h
      · exact ih h
      · cases h
      · split at h
        · cases h
        · exact ih h
    · exact ih h

/-- The files that are read are those of the server. -/
theorem resources_of_getResources {resources : Files T}
    (h : getResources call server = .ok resources) : server.resources call.req = some resources := by
  unfold getResources at h
  split at h
  next => cases h
  next => cases h
  next hresources =>
    rw [hresources]
    exact congrArg some (Except.ok.inj h)

/-- An update of the specializer: what was read, and what is written. -/
theorem updated_specialize {forRef : ObjectReference} {krmfn : Function V}
    (h : (specialize yaml order call forRef krmfn server).updated = some written) :
    ∃ resources items, server.resources call.req = some resources ∧
      getResourceList yaml order resources = .ok items ∧
      written = writeAll yaml (specializerWrites (krmfn items).1) resources := by
  unfold specialize at h
  split at h
  next => cases h
  next =>
    split at h
    next => cases h
    next pr hget =>
      split at h
      next =>
        split at h
        next => cases h
        next resources hresources =>
          split at h
          next => cases h
          next items hitems =>
            simp only at h
            split at h
            next => cases h
            next =>
              refine ⟨resources, items, resources_of_getResources hresources, hitems, ?_⟩
              rw [← writeBack_eq]
              exact (Option.some.inj h).symm
      next => cases h

/-- A Reconcile without an update. -/
theorem ne_of_updated {out out' : Outcome T} (hupdated : out.updated = some written)
    (hnone : out'.updated = none) : (.ok out' : Except Go.Panic (Outcome T)) ≠ .ok out := by
  intro heq
  rw [← Except.ok.inj heq, hnone] at hupdated
  cases hupdated

theorem updated_genericSpecializeFor {generic : Generic V} {pr : Approval.PackageRevision}
    {out : Outcome T} (h : genericSpecializeFor yaml order call generic pr server = .ok out)
    (hupdated : out.updated = some written) :
    ∃ resources items items', server.resources call.req = some resources ∧
      getResourceList yaml order resources = .ok items ∧ processAll generic pr items = .ok items' ∧
      written = writeAll yaml (genericWrites items') resources := by
  unfold genericSpecializeFor at h
  split at h
  next => exact absurd h (ne_of_updated hupdated rfl)
  next resources hresources =>
    split at h
    next => exact absurd h (ne_of_updated hupdated rfl)
    next items hitems =>
      split at h
      next => exact absurd h (ne_of_updated hupdated rfl)
      next items' hprocess =>
        split at h
        next => exact absurd h (ne_of_updated hupdated rfl)
        next =>
          split at h
          next => cases h
          next => exact absurd h (ne_of_updated hupdated rfl)
          next files hfiles =>
            split at h
            next => exact absurd h (ne_of_updated hupdated rfl)
            next =>
              refine ⟨resources, items, items', resources_of_getResources hresources, hitems,
                hprocess, ?_⟩
              rw [← Except.ok.inj h] at hupdated
              rw [← genericWriteBack_eq hfiles]
              exact (Option.some.inj hupdated).symm

/-- An update of the generic specializer: what was read, what the functions left, and what is
written. -/
theorem updated_genericSpecialize {generic : Generic V} {out : Outcome T}
    (h : genericSpecialize yaml order call generic server = .ok out)
    (hupdated : out.updated = some written) :
    ∃ pr resources items items', server.resources call.req = some resources ∧
      getResourceList yaml order resources = .ok items ∧ processAll generic pr items = .ok items' ∧
      written = writeAll yaml (genericWrites items') resources := by
  unfold genericSpecialize at h
  split at h
  next => exact absurd h (ne_of_updated hupdated rfl)
  next =>
    split at h
    next => exact absurd h (ne_of_updated hupdated rfl)
    next pr hget =>
      split at h
      next => exact absurd h (ne_of_updated hupdated rfl)
      next => exact absurd h (ne_of_updated hupdated rfl)
      next =>
        split at h
        next => exact ⟨pr, updated_genericSpecializeFor h hupdated⟩
        next => exact absurd h (ne_of_updated hupdated rfl)

end Reconcile

/-- What is kept by writes of the objects that a function has left of those of a package: all that it
has left, or, where it has changed nothing, all of the package. -/
structure KeptExactly (yaml : Yaml V T) (resources : Files T) (items items' : List (KubeObject V))
    (writes : List (String × KubeObject V)) (written : Files T) : Prop where
  output : (∀ o ∈ items', Holds yaml written o) ↔
    ∀ o ∈ items', Written writes o ∨ Untouched yaml resources writes o
  unchanged : items' = items → ((∀ o, Holds yaml written o ↔ Holds yaml resources o) ↔
    ∀ o, Holds yaml resources o → Written writes o ∨ Untouched yaml resources writes o)

theorem keptExactly_writeAll {yaml : Yaml V T} {order : Go.MapOrder Unit String}
    {resources : Files T} {items items' : List (KubeObject V)}
    {writes : List (String × KubeObject V)}
    (hitems : getResourceList yaml order resources = .ok items)
    (hwrites : ∀ w ∈ writes, w.2 ∈ items') :
    KeptExactly yaml resources items items' writes (writeAll yaml writes resources) where
  output := forall₂_congr fun o _ => holds_writeAll_iff writes resources o
  unchanged := by
    intro hsame
    constructor
    · intro h o ho
      exact (holds_writeAll_iff writes resources o).mp ((h o).mpr ho)
    · intro h o
      refine ⟨fun ho => ?_, fun ho => (holds_writeAll_iff writes resources o).mpr (h o ho)⟩
      rcases (holds_writeAll_iff writes resources o).mp ho with
        ⟨path, o', -, hlast, hunplaced⟩ | ⟨file, hfile, -, hholds⟩
      · -- what is written was read, so that it is in a file
        obtain ⟨w, hw, rfl⟩ := Option.map_eq_some_iff.mp hlast
        have hmem := hwrites w (List.mem_filter.mp (List.mem_of_getLast? hw)).1
        obtain ⟨file, hfile, hincluded, docs, hdocs, d, hd, hd'⟩ := holds_of_mem hitems (hsame ▸ hmem)
        exact ⟨file, hfile, hincluded, docs, hdocs, d, hd, hd'.trans hunplaced⟩
      · exact ⟨file, hfile, hholds⟩

/-- Files as the lists of their documents. -/
def documents : Yaml Unit (List (KubeObject Unit)) where
  parse docs := .ok docs
  print o := [o]
  parse_print _ := rfl

theorem holds_documents {files : Files (List (KubeObject Unit))} {o : KubeObject Unit} :
    Holds documents files o ↔ ∃ file ∈ files.entries,
      Go.includeFile file.1 resourcePatterns = true ∧ ∃ d ∈ file.2, unplaced d = unplaced o := by
  refine exists_congr fun file => and_congr_right fun _ => and_congr_right fun _ => ?_
  refine ⟨fun ⟨docs, hdocs, h⟩ => ?_, fun h => ⟨file.2, rfl, h⟩⟩
  rw [show file.2 = docs from Except.ok.inj hdocs]
  exact h

def kptfile : KubeObject Unit := { apiVersion := "kpt.dev/v1", kind := "Kptfile", name := "edge" }

def ipClaim : KubeObject Unit :=
  { apiVersion := "ipam.resource.nephio.org/v1alpha1", kind := "IPClaim", name := "n3" }

def configMap : KubeObject Unit := { apiVersion := "v1", kind := "ConfigMap", name := "n3" }

/-- A package with each object in a file of its own. -/
def separate : Files (List (KubeObject Unit)) where
  entries := [("Kptfile", [kptfile]), ("claim.yaml", [ipClaim]), ("map.yaml", [configMap])]

/-- A package with two objects in one file. -/
def shared : Files (List (KubeObject Unit)) where
  entries := [("Kptfile", [kptfile]), ("n3.yaml", [ipClaim, configMap])]

/-- A package revision that waits for the claim. -/
def revision : Approval.PackageRevision where
  key := ⟨"default", "edge"⟩
  repositoryName := "edge"
  packageName := "edge"
  lifecycle := .draft
  creationTimestamp := 0
  readinessGates := ["nephio.Specializer.specialize"]
  conditions := [⟨"ipam.resource.nephio.org/v1alpha1.IPClaim.n3", "False"⟩]

def serverOf (files : Files (List (KubeObject Unit))) : Server (List (KubeObject Unit)) where
  revisions := [revision]
  resources _ := some files

/-- A function that changes nothing. -/
def unchanging : Function Unit := fun items => (items, none)

def unchangingGeneric : Generic Unit where
  ipamkrmfn := unchanging
  vlankrmfn := unchanging
  configInjectkrmfn := unchanging
  conditions _ := .ok (some [])

def placed (o : KubeObject Unit) (path : String) : KubeObject Unit := o.setAnnotation pathAnnotationKey path

end Nephio.Controllers.Specializer
