import Nephio.Kptfile.ConditionType

/-!
# Laws.Kptfile.ConditionType: what the decoder reads back

`GetGVKNFromConditionType` is used as the inverse of `GetConditionType`: on owner annotations, on
condition types and on condition reasons. It is one on the documented form
(`ObjectReference.Documented.decode`), and on valid Kubernetes references exactly there
(`decode_encode_iff`): a core-group reference comes back with a `/` in front of its version, and a
name with a dot comes back as the empty reference.
-/

namespace Nephio

/-! ## Splitting -/

theorem split_of_notMem {s : String} {sep : Char} (h : sep ∉ s.toList) : split s sep = [s] := by
  simp only [split, List.splitOn_eq_singleton h, List.map_cons, List.map_nil, String.ofList_toList]

theorem split_append {a b : String} {sep : Char} (h : sep ∉ a.toList) :
    split (a ++ String.singleton sep ++ b) sep = a :: split b sep := by
  have hlist : (a ++ String.singleton sep ++ b).toList = a.toList ++ sep :: b.toList := by
    simp only [String.toList_append, String.toList_singleton, List.append_assoc,
      List.singleton_append]
  simp only [split, hlist, List.splitOn_append_cons_self_of_not_mem h, List.map_cons,
    String.ofList_toList]

/-- Splitting never answers the empty list. -/
theorem split_ne_nil (s : String) (sep : Char) : split s sep ≠ [] := by
  simp only [split, ne_eq, List.map_eq_nil_iff]
  exact List.splitOn_ne_nil sep s.toList

theorem splitOn_append_cons {sep : Char} (a b : List Char) :
    (a ++ sep :: b).splitOn sep = a.splitOn sep ++ b.splitOn sep := by
  induction h : a.length using Nat.strong_induction_on generalizing a with
  | _ n ih =>
    by_cases hmem : sep ∈ a
    · obtain ⟨a₁, a₂, rfl, ha₁⟩ := List.eq_append_cons_of_mem hmem
      have hlen : a₂.length < n := by
        rw [← h, List.length_append, List.length_cons]
        omega
      rw [List.append_assoc, List.cons_append,
        List.splitOn_append_cons_self_of_not_mem ha₁, List.splitOn_append_cons_self_of_not_mem ha₁,
        ih a₂.length hlen a₂ rfl, List.cons_append]
    · rw [List.splitOn_append_cons_self_of_not_mem hmem, List.splitOn_eq_singleton hmem,
        List.singleton_append]

theorem split_append_separator (a b : String) (sep : Char) :
    split (a ++ String.singleton sep ++ b) sep = split a sep ++ split b sep := by
  have hlist : (a ++ String.singleton sep ++ b).toList = a.toList ++ sep :: b.toList := by
    simp only [String.toList_append, String.toList_singleton, List.append_assoc,
      List.singleton_append]
  simp only [split, hlist, splitOn_append_cons, List.map_append]

theorem split_injective (sep : Char) : Function.Injective fun s => split s sep := by
  intro a b h
  have hinj : Function.Injective String.ofList := fun _ _ h => String.ofList_injective h
  have hparts : a.toList.splitOn sep = b.toList.splitOn sep := hinj.list_map h
  have hjoin : ∀ l : List Char, [sep].intercalate (l.splitOn sep) = l :=
    fun l => List.intercalate_splitOn sep
  rw [← String.toList_inj, ← hjoin a.toList, hparts, hjoin]

/-- A text that holds the separator splits into two parts at least. -/
theorem split_of_mem {s : String} {sep : Char} (h : sep ∈ s.toList) :
    ∃ a b rest, split s sep = a :: b :: rest := by
  obtain ⟨as, bs, hs, has⟩ := List.eq_append_cons_of_mem h
  obtain ⟨b, rest, hb⟩ := List.exists_cons_of_ne_nil (List.splitOn_ne_nil sep bs)
  refine ⟨String.ofList as, String.ofList b, rest.map String.ofList, ?_⟩
  simp only [split, hs, List.splitOn_append_cons_self_of_not_mem has, hb, List.map_cons]

theorem string_ne_empty_append_left {a b : String} (h : a ≠ "") : a ++ b ≠ "" := by
  intro hab
  have hlist : (a ++ b).toList = [] := by rw [hab]; rfl
  rw [String.toList_append, List.append_eq_nil_iff] at hlist
  exact h (String.toList_inj.mp (hlist.1.trans rfl))

/-! ## Reading back what was written -/

theorem parseGroupVersion_grouped {group version : String} (hg : '/' ∉ group.toList)
    (hv : '/' ∉ version.toList) (hne : group ≠ "") :
    parseGroupVersion (group ++ "/" ++ version) = .ok ⟨group, version⟩ := by
  have hsplit : split (group ++ "/" ++ version) '/' = [group, version] := by
    rw [show ("/" : String) = String.singleton '/' from rfl, split_append hg, split_of_notMem hv]
  have hempty : group ++ "/" ++ version ≠ "" :=
    string_ne_empty_append_left (string_ne_empty_append_left hne)
  have hslash : group ++ "/" ++ version ≠ "/" := by
    intro h
    rw [h] at hsplit
    have : split "/" '/' = ["", ""] := by decide
    rw [this] at hsplit
    simp only [List.cons.injEq] at hsplit
    exact hne hsplit.1.symm
  simp only [parseGroupVersion, hempty, hslash, or_self, if_false, hsplit]

theorem writeAPIVersion_grouped {group version : String} (hne : group ≠ "")
    (hg : '/' ∉ group.toList) (hv : '/' ∉ version.toList) :
    writeAPIVersion (group ++ "/" ++ version) = group ++ "/" ++ version := by
  have hgv : group ++ "/" ++ version ≠ "" :=
    string_ne_empty_append_left (string_ne_empty_append_left hne)
  simp only [writeAPIVersion, ne_eq, hgv, not_false_eq_true, if_true,
    parseGroupVersion_grouped hg hv hne, GroupVersion.string, hne]

/-- A grouped reference with a kind and a name is written `group/version.kind.name`. -/
theorem getConditionType_grouped {o : ObjectReference} {group version : String}
    (hapi : o.apiVersion = group ++ "/" ++ version) (hne : group ≠ "")
    (hg : '/' ∉ group.toList) (hv : '/' ∉ version.toList)
    (hkind : o.kind ≠ "") (hname : o.name ≠ "") :
    getConditionType o = group ++ "/" ++ (version ++ "." ++ (o.kind ++ "." ++ o.name)) := by
  have hgv : group ++ "/" ++ version ≠ "" :=
    string_ne_empty_append_left (string_ne_empty_append_left hne)
  have hdot : group ++ "/" ++ version ++ "." ++ o.kind ≠ "" :=
    string_ne_empty_append_left (string_ne_empty_append_left hgv)
  simp only [getConditionType, hapi, writeAPIVersion_grouped hne hg hv, writePart, ne_eq, hkind, hname, hgv, hdot,
    not_false_eq_true, if_true]
  simp only [String.append_assoc]

/-- Reading `version.kind.name` with a dot-free version and kind: the name is all that is left, and
it has to be one part. -/
theorem readVKN_parts {group version kind name : String} (hv : '.' ∉ version.toList)
    (hk : '.' ∉ kind.toList) :
    readVKN group (version ++ "." ++ (kind ++ "." ++ name)) =
      if '.' ∈ name.toList then {}
      else { apiVersion := group ++ "/" ++ version, kind := kind, name := name } := by
  have hsplit : split (version ++ "." ++ (kind ++ "." ++ name)) '.' =
      version :: kind :: split name '.' := by
    rw [show ("." : String) = String.singleton '.' from rfl, split_append hv, split_append hk]
  unfold readVKN
  rw [hsplit]
  split_ifs with hdot
  · obtain ⟨a, b, rest, h⟩ := split_of_mem hdot
    simp only [h]
  · simp only [split_of_notMem hdot]

/-- A grouped text reads as its group over what follows the `/`. -/
theorem getGVKNFromConditionType_grouped {group vkn : String} (hg : '/' ∉ group.toList)
    (hvkn : '/' ∉ vkn.toList) :
    getGVKNFromConditionType (group ++ "/" ++ vkn) = readVKN group vkn := by
  have hsplit : split (group ++ "/" ++ vkn) '/' = [group, vkn] := by
    rw [show ("/" : String) = String.singleton '/' from rfl, split_append hg, split_of_notMem hvkn]
  simp only [getGVKNFromConditionType, hsplit]

theorem slash_notMem_vkn {version kind name : String} (hv : '/' ∉ version.toList)
    (hk : '/' ∉ kind.toList) (hn : '/' ∉ name.toList) :
    '/' ∉ (version ++ "." ++ (kind ++ "." ++ name)).toList := by
  have hdot : '/' ∉ (".".toList : List Char) := by decide
  simp only [String.toList_append, List.mem_append]
  tauto

/-- **Reading back what was written** in the documented form. -/
theorem ObjectReference.Documented.decode {o : ObjectReference} (h : o.Documented) :
    getGVKNFromConditionType (getConditionType o) = o := by
  obtain ⟨group, version, hapi, hne, -, hg, hv, hvd⟩ := h.grouped
  rw [getConditionType_grouped hapi hne hg hv h.kind_ne h.name_ne,
    getGVKNFromConditionType_grouped hg (slash_notMem_vkn hv h.kind_slash h.name_slash),
    readVKN_parts hvd h.kind_dot, if_neg h.name_dot, ← hapi]

/-- Documented references are told apart by their condition types. -/
theorem ObjectReference.Documented.injective {a b : ObjectReference} (ha : a.Documented)
    (hb : b.Documented) (h : getConditionType a = getConditionType b) : a = b := by
  rw [← ha.decode, h, hb.decode]

theorem ObjectReference.Documented.named {o : ObjectReference} (h : o.Documented) : o.Named := by
  obtain ⟨group, version, hapi, hne, -⟩ := h.grouped
  refine ⟨?_, h.kind_ne, h.name_ne⟩
  rw [hapi]
  exact string_ne_empty_append_left (string_ne_empty_append_left hne)

/-- The group and the version of an `apiVersion`: what stands before and after the first `/`. -/
def groupOf (apiVersion : String) : String :=
  String.ofList (apiVersion.toList.takeWhile (· ≠ '/'))

def versionOf (apiVersion : String) : String :=
  String.ofList ((apiVersion.toList.dropWhile (· ≠ '/')).drop 1)

theorem groupOf_grouped {group version : String} (hg : '/' ∉ group.toList) :
    groupOf (group ++ "/" ++ version) = group ∧ versionOf (group ++ "/" ++ version) = version := by
  have hall : ∀ c ∈ group.toList, decide (c ≠ '/') = true := by
    intro c hc
    simp only [ne_eq, decide_eq_true_eq]
    rintro rfl
    exact hg hc
  have hslash : "/".toList = ['/'] := rfl
  constructor
  · simp only [groupOf, String.toList_append, List.append_assoc,
      List.takeWhile_append_of_pos hall, hslash, List.cons_append, List.nil_append,
      List.takeWhile_cons, ne_eq, not_true_eq_false, decide_false, Bool.false_eq_true, if_false,
      List.append_nil, String.ofList_toList]
  · simp only [versionOf, String.toList_append, List.append_assoc,
      List.dropWhile_append_of_pos hall, hslash, List.cons_append, List.nil_append,
      List.dropWhile_cons, ne_eq, not_true_eq_false, decide_false, Bool.false_eq_true, if_false,
      List.drop_succ_cons, List.drop_zero, String.ofList_toList]

/-- The documented form can be decided. -/
instance (o : ObjectReference) : Decidable o.Documented :=
  decidable_of_iff
    ((o.apiVersion = groupOf o.apiVersion ++ "/" ++ versionOf o.apiVersion ∧
      groupOf o.apiVersion ≠ "" ∧ versionOf o.apiVersion ≠ "" ∧
      '/' ∉ (groupOf o.apiVersion).toList ∧ '/' ∉ (versionOf o.apiVersion).toList ∧
      '.' ∉ (versionOf o.apiVersion).toList) ∧
      (o.kind ≠ "" ∧ '/' ∉ o.kind.toList ∧ '.' ∉ o.kind.toList) ∧
      o.name ≠ "" ∧ '/' ∉ o.name.toList ∧ '.' ∉ o.name.toList) <| by
    constructor
    · rintro ⟨hgrouped, ⟨hk, hks, hkd⟩, hn, hns, hnd⟩
      exact ⟨⟨_, _, hgrouped⟩, hk, hks, hkd, hn, hns, hnd⟩
    · rintro ⟨⟨group, version, hapi, hne, hrest⟩, hk, hks, hkd, hn, hns, hnd⟩
      obtain ⟨hgroup, hversion⟩ := @groupOf_grouped group version hrest.2.1
      rw [hapi, hgroup, hversion]
      exact ⟨⟨rfl, hne, hrest⟩, ⟨hk, hks, hkd⟩, hn, hns, hnd⟩

/-! ## Valid Kubernetes references -/

/-- A character of a DNS-1123 label. -/
def isLabelChar (c : Char) : Bool := c.isLower || c.isDigit || c == '-'

/-- `[a-z0-9]([-a-z0-9]*[a-z0-9])?`. -/
def isDNS1123Label (l : List Char) : Bool :=
  l.all isLabelChar && (l.head?.any (· != '-')) && (l.getLast?.any (· != '-'))

/-- `[a-z]([-a-z0-9]*[a-z0-9])?`. -/
def isDNS1035Label (l : List Char) : Bool :=
  isDNS1123Label l && l.head?.any Char.isLower

/-- A DNS-1123 subdomain: labels separated by dots, 253 characters at most. -/
def isDNS1123Subdomain (s : String) : Bool :=
  s.length ≤ 253 && (s.toList.splitOn '.').all isDNS1123Label

/-- An `apiVersion`: `group/version`, or `version` alone for the core group. -/
inductive ValidAPIVersion : String → Prop
  | core {version : String} : isDNS1035Label version.toList → ValidAPIVersion version
  | grouped {group version : String} : isDNS1123Subdomain group → isDNS1035Label version.toList →
      ValidAPIVersion (group ++ "/" ++ version)

/-- A reference the Kubernetes API accepts: a kind is a DNS-1035 label in lower case, a name a
DNS-1123 subdomain. -/
structure ObjectReference.Valid (o : ObjectReference) : Prop where
  apiVersion : ValidAPIVersion o.apiVersion
  kind : isDNS1035Label (o.kind.toList.map Char.toLower)
  name : isDNS1123Subdomain o.name

theorem notMem_of_isLabel {l : List Char} {c : Char} (h : isDNS1123Label l)
    (hc : isLabelChar c = false) : c ∉ l := by
  intro hmem
  simp only [isDNS1123Label, Bool.and_eq_true, List.all_eq_true] at h
  rw [h.1.1 c hmem] at hc
  cases hc

theorem ne_nil_of_isLabel {l : List Char} (h : isDNS1123Label l) : l ≠ [] := by
  rintro rfl
  cases h

/-- A character other than the separator is in one of the parts. -/
theorem exists_mem_splitOn {l : List Char} {c sep : Char} (hc : c ∈ l) (hne : c ≠ sep) :
    ∃ part ∈ l.splitOn sep, c ∈ part := by
  induction l with
  | nil => cases hc
  | cons x xs ih =>
    obtain ⟨p, ps, hps⟩ := List.exists_cons_of_ne_nil (List.splitOn_ne_nil sep xs)
    rw [List.splitOn_cons_eq_if_modifyHead, hps]
    rcases List.mem_cons.mp hc with rfl | hmem
    · rw [if_neg (by simpa using hne)]
      exact ⟨c :: p, List.mem_cons_self, List.mem_cons_self⟩
    · obtain ⟨part, hpart, hin⟩ := ih hmem
      rw [hps] at hpart
      split_ifs with hx
      · exact ⟨part, List.mem_cons_of_mem _ hpart, hin⟩
      · rcases List.mem_cons.mp hpart with rfl | hpart
        · exact ⟨x :: part, List.mem_cons_self, List.mem_cons_of_mem _ hin⟩
        · exact ⟨part, List.mem_cons_of_mem _ hpart, hin⟩

theorem slash_notMem_subdomain {s : String} (h : isDNS1123Subdomain s) : '/' ∉ s.toList := by
  simp only [isDNS1123Subdomain, Bool.and_eq_true, List.all_eq_true] at h
  intro hmem
  obtain ⟨part, hpart, hin⟩ := exists_mem_splitOn hmem (show '/' ≠ '.' by decide)
  exact notMem_of_isLabel (h.2 part hpart) (by decide) hin

theorem subdomain_ne_empty {s : String} (h : isDNS1123Subdomain s) : s ≠ "" := by
  rintro rfl
  revert h
  decide

/-- A version label holds neither separator, and it is not empty. -/
theorem label_separators {s : String} (h : isDNS1035Label s.toList) :
    s ≠ "" ∧ '/' ∉ s.toList ∧ '.' ∉ s.toList := by
  simp only [isDNS1035Label, Bool.and_eq_true] at h
  refine ⟨?_, notMem_of_isLabel h.1 (by decide), notMem_of_isLabel h.1 (by decide)⟩
  rintro rfl
  exact ne_nil_of_isLabel h.1 rfl

/-- The same for a kind, whose lower-case form is the label. -/
theorem kind_separators {s : String} (h : isDNS1035Label (s.toList.map Char.toLower)) :
    s ≠ "" ∧ '/' ∉ s.toList ∧ '.' ∉ s.toList := by
  simp only [isDNS1035Label, Bool.and_eq_true] at h
  have hchar : ∀ c : Char, isLabelChar c = false → c.toLower = c → c ∉ s.toList := by
    intro c hc hlow hmem
    exact notMem_of_isLabel h.1 hc (List.mem_map.mpr ⟨c, hmem, hlow⟩)
  refine ⟨?_, hchar '/' (by decide) (by decide), hchar '.' (by decide) (by decide)⟩
  rintro rfl
  exact ne_nil_of_isLabel h.1 rfl

/-- A core-group reference is written `version.kind.name`, without a `/`. -/
theorem getConditionType_core {o : ObjectReference} (hv : isDNS1035Label o.apiVersion.toList)
    (hkind : o.kind ≠ "") (hname : o.name ≠ "") :
    getConditionType o = o.apiVersion ++ "." ++ (o.kind ++ "." ++ o.name) := by
  obtain ⟨hne, hslash, -⟩ := label_separators hv
  have hone : o.apiVersion ≠ "/" := by
    intro h
    rw [h] at hslash
    exact hslash (by decide)
  have hparse : parseGroupVersion o.apiVersion = .ok ⟨"", o.apiVersion⟩ := by
    simp only [parseGroupVersion, hne, hone, or_self, if_false, split_of_notMem hslash]
  have hwrite : writeAPIVersion o.apiVersion = o.apiVersion := by
    simp only [writeAPIVersion, ne_eq, hne, not_false_eq_true, if_true, hparse,
      GroupVersion.string, not_true_eq_false, if_false]
  have hdot : o.apiVersion ++ "." ++ o.kind ≠ "" :=
    string_ne_empty_append_left (string_ne_empty_append_left hne)
  simp only [getConditionType, hwrite, writePart, ne_eq, hkind, hname, hne, hdot,
    not_false_eq_true, if_true]
  simp only [String.append_assoc]

/-- **The round trip, exactly.** A valid reference reads back from its condition type if and only if
its `apiVersion` has a group and its name has no dot. -/
theorem decode_encode_iff {o : ObjectReference} (h : o.Valid) :
    getGVKNFromConditionType (getConditionType o) = o ↔
      '/' ∈ o.apiVersion.toList ∧ '.' ∉ o.name.toList := by
  obtain ⟨hkne, hks, hkd⟩ := kind_separators h.kind
  have hnne := subdomain_ne_empty h.name
  have hns := slash_notMem_subdomain h.name
  generalize hapi : o.apiVersion = api
  have hva := hapi ▸ h.apiVersion
  cases hva with
  | core hv =>
    -- no group: what is read back, if anything, has a `/` in its `apiVersion`
    obtain ⟨-, hvs, hvd⟩ := label_separators hv
    rw [getConditionType_core (hapi ▸ hv) hkne hnne, hapi]
    have hslash := slash_notMem_vkn hvs hks hns
    simp only [getGVKNFromConditionType, split_of_notMem hslash, readVKN_parts hvd hkd]
    constructor
    · intro heq
      split_ifs at heq with hdot
      · exact absurd (congrArg ObjectReference.kind heq).symm hkne
      · have happ := congrArg (fun r => r.apiVersion.toList) heq
        simp only [hapi, String.toList_append] at happ
        exact absurd (happ ▸ by simp) hvs
    · intro hand
      exact absurd hand.1 hvs
  | @grouped group version hg hv =>
    obtain ⟨-, hvs, hvd⟩ := label_separators hv
    have hgs := slash_notMem_subdomain hg
    rw [getConditionType_grouped hapi (subdomain_ne_empty hg) hgs hvs hkne hnne,
      getGVKNFromConditionType_grouped hgs (slash_notMem_vkn hvs hks hns), readVKN_parts hvd hkd]
    have hmem : '/' ∈ (group ++ "/" ++ version).toList := by
      simp only [String.toList_append, List.mem_append]
      exact Or.inl (Or.inr (by decide))
    simp only [hmem, true_and]
    constructor
    · intro heq hdot
      rw [if_pos hdot] at heq
      exact absurd (congrArg ObjectReference.kind heq).symm hkne
    · intro hdot
      rw [if_neg hdot, ← hapi]

/-- An Interface of the package is read back. -/
theorem decode_encode_interface :
    getGVKNFromConditionType (getConditionType
      { apiVersion := "req.nephio.org" ++ "/" ++ "v1alpha1", kind := "Interface", name := "n3" }) =
      { apiVersion := "req.nephio.org" ++ "/" ++ "v1alpha1", kind := "Interface", name := "n3" } :=
  (decode_encode_iff ⟨@ValidAPIVersion.grouped "req.nephio.org" "v1alpha1" (by decide) (by decide),
    by decide, by decide⟩).mpr ⟨by decide, by decide⟩

/-- A core-group reference is not: `v1` comes back as `/v1`. -/
theorem core_group_not_read_back :
    ObjectReference.Valid { apiVersion := "v1", kind := "ConfigMap", name := "gnb" } ∧
      getGVKNFromConditionType
        (getConditionType { apiVersion := "v1", kind := "ConfigMap", name := "gnb" }) ≠
        { apiVersion := "v1", kind := "ConfigMap", name := "gnb" } :=
  ⟨⟨.core (by decide), by decide, by decide⟩, by decide⟩

/-! ## Valid references are told apart

Read back or not, two valid references do not share a condition type. -/

theorem append_separator_inj {a a' b b' : String} {sep : Char} (ha : sep ∉ a.toList)
    (ha' : sep ∉ a'.toList)
    (h : a ++ String.singleton sep ++ b = a' ++ String.singleton sep ++ b') : a = a' ∧ b = b' := by
  have hsplit := congrArg (split · sep) h
  simp only [split_append ha, split_append ha', List.cons.injEq] at hsplit
  obtain ⟨rfl, -⟩ := hsplit
  have hlist := congrArg String.toList h
  rw [String.toList_append (t := b), String.toList_append (t := b')] at hlist
  exact ⟨rfl, String.toList_inj.mp (List.append_cancel_left hlist)⟩

theorem vkn_inj {version version' kind kind' name name' : String} (hv : '.' ∉ version.toList)
    (hv' : '.' ∉ version'.toList) (hk : '.' ∉ kind.toList) (hk' : '.' ∉ kind'.toList)
    (h : version ++ "." ++ (kind ++ "." ++ name) = version' ++ "." ++ (kind' ++ "." ++ name')) :
    version = version' ∧ kind = kind' ∧ name = name' := by
  obtain ⟨hversion, h⟩ := append_separator_inj hv hv' h
  exact ⟨hversion, append_separator_inj hk hk' h⟩

namespace ObjectReference.Valid

variable {o : ObjectReference} (h : o.Valid)

include h

/-- The text of a valid reference, without and with a group. -/
theorem written :
    (isDNS1035Label o.apiVersion.toList ∧
      getConditionType o = o.apiVersion ++ "." ++ (o.kind ++ "." ++ o.name)) ∨
    ∃ group version : String, o.apiVersion = group ++ "/" ++ version ∧ isDNS1123Subdomain group ∧
      isDNS1035Label version.toList ∧
      getConditionType o = group ++ "/" ++ (version ++ "." ++ (o.kind ++ "." ++ o.name)) := by
  have hkind := (kind_separators h.kind).1
  have hname := subdomain_ne_empty h.name
  generalize hapi : o.apiVersion = api
  have hva := hapi ▸ h.apiVersion
  cases hva with
  | core hv => exact Or.inl ⟨hv, hapi ▸ getConditionType_core (hapi ▸ hv) hkind hname⟩
  | @grouped group version hg hv =>
    exact Or.inr ⟨group, version, rfl, hg, hv, getConditionType_grouped hapi (subdomain_ne_empty hg)
      (slash_notMem_subdomain hg) (label_separators hv).2.1 hkind hname⟩

theorem named : o.Named := by
  refine ⟨?_, (kind_separators h.kind).1, subdomain_ne_empty h.name⟩
  rcases h.written with ⟨hv, -⟩ | ⟨group, version, hapi, hg, -⟩
  · exact (label_separators hv).1
  · rw [hapi]
    exact string_ne_empty_append_left (string_ne_empty_append_left (subdomain_ne_empty hg))

theorem slash_notMem {version : String} (hv : isDNS1035Label version.toList) :
    '/' ∉ (version ++ "." ++ (o.kind ++ "." ++ o.name)).toList :=
  slash_notMem_vkn (label_separators hv).2.1 (kind_separators h.kind).2.1
    (slash_notMem_subdomain h.name)

/-- What is read back has another GVK, or is the reference. -/
theorem decode_of_gvk (hgvk : (getGVKNFromConditionType (getConditionType o)).gvk = o.gvk) :
    getGVKNFromConditionType (getConditionType o) = o := by
  obtain ⟨hkne, -, hkd⟩ := kind_separators h.kind
  simp only [ObjectReference.gvk, ObjectReference.mk.injEq, and_true] at hgvk
  obtain ⟨hversion, hkind⟩ := hgvk
  rcases h.written with ⟨hv, ht⟩ | ⟨group, version, hapi, hg, hv, ht⟩
  · obtain ⟨-, hvs, hvd⟩ := label_separators hv
    rw [ht, getGVKNFromConditionType, split_of_notMem (h.slash_notMem hv)] at hkind hversion
    simp only [readVKN_parts hvd hkd] at hkind hversion
    split_ifs at hkind hversion
    · exact absurd hkind.symm hkne
    · refine absurd ?_ hvs
      rw [← hversion]
      simp only [String.toList_append, List.mem_append]
      exact Or.inl (Or.inr (by decide))
  · have hread := getGVKNFromConditionType_grouped (slash_notMem_subdomain hg) (h.slash_notMem hv)
    rw [readVKN_parts (label_separators hv).2.2 hkd] at hread
    rw [ht, hread] at hkind ⊢
    split_ifs at hkind ⊢
    · exact absurd hkind.symm hkne
    · rw [← hapi]

theorem injective {o' : ObjectReference} (h' : o'.Valid)
    (heq : getConditionType o = getConditionType o') : o = o' := by
  obtain ⟨-, -, hkd⟩ := kind_separators h.kind
  obtain ⟨-, -, hkd'⟩ := kind_separators h'.kind
  have hslash : ∀ {group vkn : String}, '/' ∈ (group ++ "/" ++ vkn).toList := by
    intro group vkn
    simp only [String.toList_append, List.mem_append]
    exact Or.inl (Or.inr (by decide))
  have hext : o.apiVersion = o'.apiVersion → o.kind = o'.kind → o.name = o'.name → o = o' := by
    intro hapi hkind hname
    cases o
    cases o'
    simp only [ObjectReference.mk.injEq]
    exact ⟨hapi, hkind, hname⟩
  rcases h.written with ⟨hv, ht⟩ | ⟨group, version, hapi, hg, hv, ht⟩ <;>
    rcases h'.written with ⟨hv', ht'⟩ | ⟨group', version', hapi', hg', hv', ht'⟩ <;>
    rw [ht, ht'] at heq
  · obtain ⟨hversion, hkind, hname⟩ :=
      vkn_inj (label_separators hv).2.2 (label_separators hv').2.2 hkd hkd' heq
    exact hext hversion hkind hname
  · exact absurd (heq ▸ hslash) (h.slash_notMem hv)
  · exact absurd (heq ▸ hslash) (h'.slash_notMem hv')
  · obtain ⟨rfl, hvkn⟩ :=
      append_separator_inj (slash_notMem_subdomain hg) (slash_notMem_subdomain hg') heq
    obtain ⟨rfl, hkind, hname⟩ :=
      vkn_inj (label_separators hv).2.2 (label_separators hv').2.2 hkd hkd' hvkn
    exact hext (hapi.trans hapi'.symm) hkind hname

end ObjectReference.Valid

instance (s : String) : Decidable (ValidAPIVersion s) :=
  decidable_of_iff (isDNS1035Label s.toList ∨ s = groupOf s ++ "/" ++ versionOf s ∧
      isDNS1123Subdomain (groupOf s) ∧ isDNS1035Label (versionOf s).toList) <| by
    constructor
    · rintro (hv | ⟨hs, hg, hv⟩)
      · exact .core hv
      · rw [hs]
        exact .grouped hg hv
    · intro h
      cases h with
      | core hv => exact Or.inl hv
      | grouped hg hv =>
        obtain ⟨hgroup, hversion⟩ := groupOf_grouped (slash_notMem_subdomain hg)
        rw [hgroup, hversion]
        exact Or.inr ⟨rfl, hg, hv⟩

instance (o : ObjectReference) : Decidable o.Valid :=
  decidable_of_iff (ValidAPIVersion o.apiVersion ∧
      isDNS1035Label (o.kind.toList.map Char.toLower) ∧ isDNS1123Subdomain o.name)
    ⟨fun h => ⟨h.1, h.2.1, h.2.2⟩, fun h => ⟨h.apiVersion, h.kind, h.name⟩⟩

/-! ## References of one GVK -/

/-- The text of a reference is the text of its GVK, and then the name. -/
theorem writePart_gvk (ref : ObjectReference) :
    writePart (getConditionType ref.gvk) ref.name = getConditionType ref := by
  have hempty : ∀ sb, writePart sb "" = sb := fun sb => if_neg (not_not_intro rfl)
  simp only [getConditionType, ObjectReference.gvk, hempty]

theorem writePart_ne {sb part : String} (hne : part ≠ "") : writePart sb part ≠ sb := by
  intro h
  have hlength := congrArg (fun s : String => s.toList.length) h
  have hpos : part.toList.length ≠ 0 := fun hzero =>
    hne (String.toList_inj.mp ((List.length_eq_zero_iff.mp hzero).trans rfl))
  simp only [writePart, if_pos hne, String.toList_append, List.length_append] at hlength
  split_ifs at hlength
  · rw [String.toList_append, List.length_append] at hlength
    omega
  · omega

theorem writePart_inj {sb part part' : String} (h : writePart sb part = writePart sb part') :
    part = part' := by
  have hempty : writePart sb "" = sb := if_neg (not_not_intro rfl)
  by_cases hpart : part = ""
  · subst hpart
    by_contra hpart'
    exact writePart_ne (Ne.symm hpart') (h.symm.trans hempty)
  · by_cases hpart' : part' = ""
    · subst hpart'
      exact absurd (h.trans hempty) (writePart_ne hpart)
    · rw [writePart, writePart, if_pos hpart, if_pos hpart'] at h
      have hlist := congrArg String.toList h
      rw [String.toList_append, String.toList_append] at hlist
      exact String.toList_inj.mp (List.append_cancel_left hlist)

/-- References of one GVK are told apart by their condition types, whatever their names. -/
theorem eq_of_gvk {a b : ObjectReference} (hgvk : a.gvk = b.gvk)
    (h : getConditionType a = getConditionType b) : a = b := by
  rw [← writePart_gvk a, ← writePart_gvk b, hgvk] at h
  have hname := writePart_inj h
  cases a
  cases b
  simp only [ObjectReference.gvk, ObjectReference.mk.injEq] at hgvk hname ⊢
  exact ⟨hgvk.1, hgvk.2.1, hname⟩

/-- The text of a GVK without a name reads as nothing. -/
theorem decode_unnamed {F G : ObjectReference} (hF : F.Documented) (hgvk : G.gvk = F.gvk)
    (hname : G.name = "") : getGVKNFromConditionType (getConditionType G) = {} := by
  obtain ⟨group, version, hapi, hne, -, hg, hv, hvd⟩ := hF.grouped
  simp only [ObjectReference.gvk, ObjectReference.mk.injEq, and_true] at hgvk
  have hgv : group ++ "/" ++ version ≠ "" :=
    string_ne_empty_append_left (string_ne_empty_append_left hne)
  have htext : getConditionType G = group ++ "/" ++ (version ++ "." ++ F.kind) := by
    simp only [getConditionType, hgvk.1, hgvk.2, hname, hapi, writeAPIVersion_grouped hne hg hv,
      writePart, ne_eq, hF.kind_ne, hgv, not_false_eq_true, not_true_eq_false, if_true, if_false]
    simp only [String.append_assoc]
  have hslash : '/' ∉ (version ++ "." ++ F.kind).toList := by
    have hdot : '/' ∉ (".".toList : List Char) := by decide
    simp only [String.toList_append, List.mem_append]
    have hkind := hF.kind_slash
    tauto
  have hsplit : split (version ++ "." ++ F.kind) '.' = [version, F.kind] := by
    rw [show ("." : String) = String.singleton '.' from rfl, split_append hvd,
      split_of_notMem hF.kind_dot]
  rw [htext, getGVKNFromConditionType_grouped hg hslash, readVKN, hsplit]

end Nephio
