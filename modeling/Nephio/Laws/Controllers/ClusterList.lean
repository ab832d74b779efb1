import Nephio.Controllers.SpireBootstrap
import Nephio.Data.Arrival
import Nephio.Data.Fallible
import Nephio.Data.Words
import Nephio.Laws.Kptfile.ConditionType

/-!
# Laws.Controllers.ClusterList: the list of clusters over any history

The list is edited as a text: it is trimmed, searched for the quoted name, spliced before its last
closing brace and indented, on each call. What stays over any number of calls is its words: those of
the opening, of one block for each name, and of the closing brace (`Lists`). A name is then found
exactly where it is listed, since no other quoted part of the text is a valid name (`cluster_list`).
-/

namespace Nephio.Controllers.SpireBootstrap

open Words (words)

/-- The words of a text. -/
def wordsOf (s : String) : List (List Char) := words Go.isSpace s.toList

/-! ## Cluster names -/

/-- A visible character of ASCII is no space. -/
theorem not_isSpace_of_visible {c : Char} (hlow : 32 < c.toNat) (hhigh : c.toNat < 127) :
    Go.isSpace c = false := by
  simp only [Go.isSpace, Bool.or_eq_false_iff, Bool.and_eq_false_iff, decide_eq_false_iff_not]
  omega

theorem visible_of_label {c : Char} (h : isLabelChar c = true) : 32 < c.toNat ∧ c.toNat < 127 := by
  simp only [isLabelChar, Char.isLower, Char.isDigit, Bool.or_eq_true, Bool.and_eq_true,
    decide_eq_true_eq, beq_iff_eq] at h
  rcases h with (⟨hlow, hhigh⟩ | ⟨hlow, hhigh⟩) | rfl
  · have hlow' : 97 ≤ c.toNat := UInt32.le_iff_toNat_le.mp hlow
    have hhigh' : c.toNat ≤ 122 := UInt32.le_iff_toNat_le.mp hhigh
    omega
  · have hlow' : 48 ≤ c.toNat := UInt32.le_iff_toNat_le.mp hlow
    have hhigh' : c.toNat ≤ 57 := UInt32.le_iff_toNat_le.mp hhigh
    omega
  · decide

section Name

variable {name : String} (h : isDNS1123Subdomain name = true)
include h

theorem label_or_dot {c : Char} (hc : c ∈ name.toList) : isLabelChar c = true ∨ c = '.' := by
  by_cases hdot : c = '.'
  · exact Or.inr hdot
  · left
    rw [isDNS1123Subdomain, Bool.and_eq_true, List.all_eq_true] at h
    obtain ⟨part, hpart, hin⟩ := exists_mem_splitOn hc hdot
    cases hlabel : isLabelChar c with
    | true => rfl
    | false => exact absurd hin (notMem_of_isLabel (h.2 part hpart) hlabel)

theorem notMem_name {c : Char} (hlabel : isLabelChar c = false) (hdot : c ≠ '.') :
    c ∉ name.toList := by
  intro hc
  rcases label_or_dot h hc with htrue | heq
  · rw [hlabel] at htrue
    cases htrue
  · exact hdot heq

theorem not_isSpace_name {c : Char} (hc : c ∈ name.toList) : Go.isSpace c = false := by
  rcases label_or_dot h hc with hlabel | rfl
  · exact not_isSpace_of_visible (visible_of_label hlabel).1 (visible_of_label hlabel).2
  · decide

end Name

/-! ## The words of a block -/

/-- A quoted text. -/
def quote (l : List Char) : List Char := '"' :: (l ++ ['"'])

theorem toList_quoted (name : String) : (quoted name).toList = quote name.toList := by
  simp [quoted, quote]

/-- The path of the kubeconfig of a cluster. -/
def kubeconfig (name : String) : List Char :=
  "/run/spire/kubeconfigs/kubeconfig-".toList ++ name.toList

/-- The words between the name and the path. -/
def middle : List Char :=
  ("= \x7b\n        service_account_allow_list = [\"spire:spire-agent\"]\n" ++
    "        kube_config_file =").toList

theorem quote_ne_nil (l : List Char) : quote l ≠ [] := List.cons_ne_nil _ _

theorem quote_append (l rest : List Char) : quote l ++ rest = '"' :: (l ++ '"' :: rest) := by
  rw [quote, List.cons_append, List.append_assoc, List.singleton_append]

/-- How the parts of a block are read as words, with texts for its constants. -/
theorem block_eq {opening name first second third path closing last blanks middle : List Char}
    (hopening : opening = ' ' :: (blanks ++ ['"']))
    (hmiddle : first ++ (second ++ third) = '"' :: ' ' :: (middle ++ ' ' :: '"' :: path))
    (hclosing : closing = ['"', '\n']) :
    opening ++ name ++ first ++ second ++ third ++ name ++ closing ++ last =
      ' ' :: (blanks ++ (quote name ++ ' ' :: (middle ++ ' ' ::
        (quote (path ++ name) ++ '\n' :: last)))) := by
  have hmiddle' : ∀ rest, first ++ (second ++ (third ++ rest)) =
      '"' :: ' ' :: (middle ++ ' ' :: '"' :: (path ++ rest)) := by
    intro rest
    rw [← List.append_assoc second, ← List.append_assoc, hmiddle]
    simp only [List.cons_append, List.append_assoc]
  simp only [hopening, hclosing, List.append_assoc, List.cons_append, List.nil_append, hmiddle',
    quote_append]

theorem toList_newCluster (name : String) :
    (newCluster name).toList = ' ' :: ("     ".toList ++ (quote name.toList ++ ' ' :: (middle ++ ' ' ::
      (quote (kubeconfig name) ++ '\n' :: "      \x7d".toList)))) := by
  unfold newCluster kubeconfig
  iterate 7 rw [String.toList_append]
  exact block_eq rfl rfl rfl

/-- A quoted text without spaces is a word. -/
theorem words_quote {l : List Char} (h : ∀ c ∈ l, Go.isSpace c = false) :
    ∀ c ∈ quote l, Go.isSpace c = false := by
  intro c hc
  rcases List.mem_cons.mp hc with rfl | hc
  · decide
  · rcases List.mem_append.mp hc with hc | hc
    · exact h c hc
    · rw [List.mem_singleton.mp hc]
      decide

theorem not_isSpace_kubeconfig {name : String} (h : isDNS1123Subdomain name = true) :
    ∀ c ∈ kubeconfig name, Go.isSpace c = false := by
  have hpath : ("/run/spire/kubeconfigs/kubeconfig-".toList.all fun c => !Go.isSpace c) = true := rfl
  intro c hc
  rcases List.mem_append.mp hc with hc | hc
  · exact (Bool.not_eq_true' _).mp (List.all_eq_true.mp hpath c hc)
  · exact not_isSpace_name h hc

theorem words_brace : words Go.isSpace ['\x7d'] = [['\x7d']] := by
  refine Words.words_of_forall (List.cons_ne_nil _ _) fun c hc => ?_
  rw [List.mem_singleton.mp hc]
  decide

theorem wordsOf_newCluster {name : String} (h : isDNS1123Subdomain name = true) :
    wordsOf (newCluster name) =
      [quote name.toList] ++ (words Go.isSpace middle ++ [quote (kubeconfig name), ['\x7d']]) := by
  have hspace : Go.isSpace ' ' = true := by decide
  have hblanks : ("     ".toList.all Go.isSpace) = true := rfl
  have hclose : words Go.isSpace "      \x7d".toList = [['\x7d']] := by
    have hparts : "      \x7d".toList = "      ".toList ++ ['\x7d'] := rfl
    have hall : ("      ".toList.all Go.isSpace) = true := rfl
    rw [hparts, Words.words_append_of_forall (List.all_eq_true.mp hall), words_brace]
  rw [wordsOf, toList_newCluster, Words.words_cons_blank hspace,
    Words.words_append_of_forall (List.all_eq_true.mp hblanks), Words.words_append_blank hspace, Words.words_append_blank hspace,
    Words.words_append_blank (by decide : Go.isSpace '\n' = true), hclose,
    Words.words_of_forall (quote_ne_nil _) (words_quote fun _ => not_isSpace_name h),
    Words.words_of_forall (quote_ne_nil _) (words_quote (not_isSpace_kubeconfig h))]
  rfl

/-! ## Finding a name -/

theorem not_infix_of_notMem {l w : List Char} (h : '"' ∉ w) : ¬ quote l <:+: w :=
  fun hfound => h (hfound.subset List.mem_cons_self)

theorem quote_infix_iff {l x n y : List Char} (hl : '"' ∉ l) (hx : '"' ∉ x) (hn : '"' ∉ n)
    (hy : '"' ∉ y) : quote l <:+: x ++ '"' :: (n ++ '"' :: y) ↔ l = n :=
  Words.quoted_infix_iff hl hx hn hy

theorem quote_infix_quote_iff {l n : List Char} (hl : '"' ∉ l) (hn : '"' ∉ n) :
    quote l <:+: quote n ↔ l = n :=
  @quote_infix_iff l [] n [] hl List.not_mem_nil hn List.not_mem_nil

section Name

variable {name : String} (h : isDNS1123Subdomain name = true)
include h

/-- A quoted name is found in a text exactly where it is found in a word. -/
theorem infix_iff_exists_word (t : List Char) :
    quote name.toList <:+: t ↔ ∃ w ∈ words Go.isSpace t, quote name.toList <:+: w :=
  Words.infix_iff_exists_word (quote_ne_nil _) (words_quote fun _ => not_isSpace_name h) t

theorem quote_notMem_name : '"' ∉ name.toList := notMem_name h (by decide) (by decide)

/-- The quoted text between the name and the path has a colon. -/
theorem not_infix_middle : ¬ quote name.toList <:+: middle := by
  have hmiddle : middle = "= \x7b\n        service_account_allow_list = [".toList ++ '"' ::
      ("spire:spire-agent".toList ++ '"' :: "]\n        kube_config_file =".toList) := rfl
  rw [hmiddle, quote_infix_iff (quote_notMem_name h) (by decide) (by decide) (by decide)]
  intro heq
  refine absurd ?_ (notMem_name h (by decide : isLabelChar ':' = false) (by decide))
  rw [heq]
  decide

/-- The path has a slash. -/
theorem not_infix_kubeconfig {listed : String} (hlisted : isDNS1123Subdomain listed = true) :
    ¬ quote name.toList <:+: quote (kubeconfig listed) := by
  have hnotMem : '"' ∉ kubeconfig listed := by
    intro hmem
    rcases List.mem_append.mp hmem with hmem | hmem
    · exact absurd hmem (by decide)
    · exact quote_notMem_name hlisted hmem
  rw [quote_infix_quote_iff (quote_notMem_name h) hnotMem]
  intro heq
  refine absurd ?_ (notMem_name h (by decide : isLabelChar '/' = false) (by decide))
  rw [heq]
  exact List.mem_append_left _ (by decide)

/-- A name is found in a block exactly where the block is its own. -/
theorem exists_word_newCluster_iff {listed : String} (hlisted : isDNS1123Subdomain listed = true) :
    (∃ w ∈ wordsOf (newCluster listed), quote name.toList <:+: w) ↔ name = listed := by
  have hmiddle : ¬ ∃ w ∈ words Go.isSpace middle, quote name.toList <:+: w := by
    rw [← infix_iff_exists_word h]
    exact not_infix_middle h
  rw [wordsOf_newCluster hlisted, ← String.toList_inj,
    ← quote_infix_quote_iff (quote_notMem_name h) (quote_notMem_name hlisted)]
  constructor
  · intro ⟨w, hw, hfound⟩
    rcases List.mem_append.mp hw with hw | hw
    · exact List.mem_singleton.mp hw ▸ hfound
    · rcases List.mem_append.mp hw with hw | hw
      · exact absurd ⟨w, hw, hfound⟩ hmiddle
      · rcases List.mem_cons.mp hw with rfl | hw
        · exact absurd hfound (not_infix_kubeconfig h hlisted)
        · rw [List.mem_singleton.mp hw] at hfound
          exact absurd hfound (not_infix_of_notMem (by decide))
  · intro hfound
    exact ⟨_, List.mem_append_left _ (List.mem_singleton_self _), hfound⟩

end Name

/-! ## The list -/

/-- The words of a list of clusters, up to the closing brace. -/
def content (names : List String) : List (List Char) :=
  wordsOf "clusters = \x7b" ++ names.flatMap fun name => wordsOf (newCluster name)

/-- A text is a list of clusters. -/
def Ends (names : List String) (t : List Char) : Prop :=
  ∃ z, t = z ++ ['\x7d'] ∧ words Go.isSpace z = content names ∧
    words Go.isSpace t = content names ++ [['\x7d']]

theorem Ends.infix_iff {names : List String} {t : List Char} (ht : Ends names t)
    (hnames : ∀ listed ∈ names, isDNS1123Subdomain listed = true) {name : String}
    (h : isDNS1123Subdomain name = true) : quote name.toList <:+: t ↔ name ∈ names := by
  obtain ⟨-, -, -, hwords⟩ := ht
  have hopening : ¬ ∃ w ∈ wordsOf "clusters = \x7b", quote name.toList <:+: w := by
    rw [wordsOf, ← infix_iff_exists_word h]
    exact not_infix_of_notMem (by decide)
  rw [infix_iff_exists_word h, hwords]
  constructor
  · intro ⟨w, hw, hfound⟩
    rcases List.mem_append.mp hw with hw | hw
    · rcases List.mem_append.mp hw with hw | hw
      · exact absurd ⟨w, hw, hfound⟩ hopening
      · obtain ⟨listed, hlisted, hw⟩ := List.mem_flatMap.mp hw
        rwa [(exists_word_newCluster_iff h (hnames listed hlisted)).mp ⟨w, hw, hfound⟩]
    · rw [List.mem_singleton.mp hw] at hfound
      exact absurd hfound (not_infix_of_notMem (by decide))
  · intro hmem
    obtain ⟨w, hw, hfound⟩ := (exists_word_newCluster_iff h h).mpr rfl
    refine ⟨w, List.mem_append_left _ (List.mem_append_right _ ?_), hfound⟩
    exact List.mem_flatMap.mpr ⟨name, hmem, hw⟩

/-! ## One call -/

section Edit

variable {names : List String} {t : List Char}

/-- An absent list is empty. -/
theorem ends_absent : Ends [] "clusters = \x7b\n\x7d".toList := by
  have hparts : "clusters = \x7b\n\x7d".toList = "clusters = \x7b".toList ++ '\n' :: ['\x7d'] := rfl
  have hnewline : Go.isSpace '\n' = true := by decide
  refine ⟨"clusters = \x7b".toList ++ ['\n'], ?_, ?_, ?_⟩
  · rw [hparts, List.append_assoc]
    rfl
  · rw [Words.words_append_blank hnewline, Words.words_nil]
    rfl
  · rw [hparts, Words.words_append_blank hnewline, words_brace]
    rfl

/-- Spaces are cut at the ends of the text. -/
theorem Ends.trim (ht : Ends names t) :
    Ends names ((t.dropWhile Go.isSpace).rdropWhile Go.isSpace) := by
  obtain ⟨z, rfl, hz, hwords⟩ := ht
  have hbrace : Go.isSpace '\x7d' = false := by decide
  have hdrop : (z ++ ['\x7d']).dropWhile Go.isSpace = z.dropWhile Go.isSpace ++ ['\x7d'] := by
    rw [List.dropWhile_append]
    cases hempty : (z.dropWhile Go.isSpace).isEmpty with
    | true => rw [List.isEmpty_iff.mp hempty, if_pos rfl, List.dropWhile_cons, hbrace]; rfl
    | false => rw [if_neg Bool.false_ne_true]
  rw [hdrop, List.rdropWhile_concat, if_neg (by rw [hbrace]; exact Bool.false_ne_true)]
  refine ⟨z.dropWhile Go.isSpace, rfl, ?_, ?_⟩
  · rw [Words.words_dropWhile, hz]
  · rw [← hdrop, Words.words_dropWhile, hwords]

/-- The block of a cluster is put before the closing brace. -/
theorem Ends.insert (ht : Ends names t) (name : String) :
    ∃ z, t = z ++ ['\x7d'] ∧
      Ends (names ++ [name]) (z ++ ((newCluster name).toList ++ '\n' :: ['\x7d'])) := by
  obtain ⟨z, rfl, hz, -⟩ := ht
  have hnewline : Go.isSpace '\n' = true := by decide
  have hcontent : words Go.isSpace (z ++ (newCluster name).toList) = content (names ++ [name]) := by
    rw [toList_newCluster, Words.words_append_cons_blank (by decide), ← toList_newCluster, hz,
      content, content, List.flatMap_append, List.flatMap_singleton, List.append_assoc]
    rfl
  refine ⟨z, rfl, z ++ ((newCluster name).toList ++ ['\n']), ?_, ?_, ?_⟩
  · rw [List.append_assoc, List.append_assoc]
    rfl
  · rw [← List.append_assoc, Words.words_append_blank hnewline, Words.words_nil, List.append_nil,
      hcontent]
  · rw [← List.append_assoc, Words.words_append_blank hnewline, hcontent, words_brace]

/-- The lines of the text are indented. -/
def indent (c : Char) : List Char := if c = '\n' then "\n    ".toList else [c]

theorem words_indent (t : List Char) :
    words Go.isSpace (t.flatMap indent) = words Go.isSpace t := by
  refine Words.words_flatMap (fun c hc => if_neg fun heq => ?_) (fun c hc => ?_) t
  · rw [heq] at hc
    exact absurd hc (by decide)
  · by_cases heq : c = '\n'
    · have hindent : "\n    ".toList = '\n' :: "    ".toList := rfl
      refine ⟨"    ".toList, (if_pos heq).trans ?_, List.all_eq_true.mp rfl⟩
      rw [hindent, heq]
    · exact ⟨[], if_neg heq, fun _ h => nomatch h⟩

theorem Ends.indent (ht : Ends names t) :
    Ends names ("\n    ".toList ++ t.flatMap SpireBootstrap.indent) := by
  obtain ⟨z, rfl, hz, hwords⟩ := ht
  have hblanks : ("\n    ".toList.all Go.isSpace) = true := rfl
  refine ⟨"\n    ".toList ++ z.flatMap SpireBootstrap.indent, ?_, ?_, ?_⟩
  · rw [List.flatMap_append, List.append_assoc]
    rfl
  · rw [Words.words_append_of_forall (List.all_eq_true.mp hblanks), words_indent, hz]
  · rw [Words.words_append_of_forall (List.all_eq_true.mp hblanks), words_indent, hwords]

end Edit

/-! ## The stored text -/

/-- A ConfigMap has the list of the names, and no text where there is none. -/
def Lists (names : List String) (data : Data) : Prop :=
  match Keyed.lookup Prod.fst clustersConfKey data with
  | none => names = []
  | some stored => ∃ t, stored.2.toList = '|' :: t ∧ Ends names t

section Stored

variable {names : List String} {data : Data}

theorem toList_trimPrefix_pipe {s : String} {t : List Char} (h : s.toList = '|' :: t) :
    (Go.trimPrefix s "|").toList = t := by
  have hpipe : "|".toList = ['|'] := rfl
  have hpiped : Go.hasPrefix s "|" = true := by
    refine decide_eq_true ?_
    rw [h, hpipe]
    exact ⟨t, rfl⟩
  rw [Go.trimPrefix, if_pos hpiped, String.toList_ofList, h, hpipe]
  rfl

theorem Lists.ends (h : Lists names data) : Ends names (clustersConf data).toList := by
  unfold Lists at h
  rw [clustersConf, Go.trimSpace, String.toList_ofList]
  refine Ends.trim ?_
  split at h
  next hlookup =>
    have habsent : Go.trimPrefix "clusters = \x7b\n\x7d" "|" = "clusters = \x7b\n\x7d" :=
      if_neg (by decide)
    rw [hlookup, h, Option.map_none, Option.getD_none, habsent]
    exact ends_absent
  next stored hlookup =>
    obtain ⟨t, ht, hends⟩ := h
    rw [hlookup]
    rwa [Option.map_some, Option.getD_some, toList_trimPrefix_pipe ht]

/-- A name is found exactly where it is listed. -/
theorem Lists.contains_iff (h : Lists names data)
    (hnames : ∀ listed ∈ names, isDNS1123Subdomain listed = true) {name : String}
    (hname : isDNS1123Subdomain name = true) :
    Go.contains (clustersConf data) (quoted name) = true ↔ name ∈ names := by
  rw [Go.contains_iff, toList_quoted, h.ends.infix_iff hnames hname]

theorem lastIndex_concat {s : String} {z : List Char} {c : Char} (h : s.toList = z ++ [c]) :
    Go.lastIndex s c = some z.length := by
  rw [Go.lastIndex, h, List.reverse_append, List.reverse_singleton, List.singleton_append,
    List.findIdx?_cons, if_pos (decide_eq_true rfl), Option.map_some, List.length_append,
    List.length_singleton]
  rfl

theorem insertCluster_concat {conf : String} {z : List Char} (h : conf.toList = z ++ ['\x7d'])
    (name : String) :
    ∃ conf', insertCluster conf name = some conf' ∧
      conf'.toList = z ++ ((newCluster name).toList ++ '\n' :: ['\x7d']) := by
  have hnewline : "\n".toList = ['\n'] := rfl
  refine ⟨_, by rw [insertCluster, lastIndex_concat h, Option.map_some], ?_⟩
  simp only [String.toList_append, String.toList_ofList]
  rw [h, List.take_left, List.drop_left, hnewline, List.append_assoc, List.append_assoc]
  rfl

theorem toList_formattedConf (conf : String) :
    (formattedConf conf).toList = '|' :: ("\n    ".toList ++ conf.toList.flatMap indent) := by
  have hopening : "|\n    ".toList = '|' :: "\n    ".toList := rfl
  have hlines : (Go.replaceAll conf '\n' "\n    ").toList = conf.toList.flatMap indent :=
    String.toList_ofList
  rw [formattedConf, String.toList_append, hopening, hlines]
  rfl

/-- A name that is not listed is added. -/
theorem Lists.insert (h : Lists names data) (name : String) :
    ∃ conf, insertCluster (clustersConf data) name = some conf ∧
      Lists (names ++ [name]) [(clustersConfKey, formattedConf conf)] := by
  obtain ⟨z, hz, hends⟩ := h.ends.insert name
  obtain ⟨conf, hconf, htext⟩ := insertCluster_concat hz name
  refine ⟨conf, hconf, ?_⟩
  rw [Lists, Keyed.lookup_cons, if_pos rfl]
  exact ⟨_, toList_formattedConf conf, htext ▸ hends.indent⟩

/-- What a call leaves: the ConfigMap as it was where the name is listed, and a list with the name
where it is not. -/
theorem Lists.update (h : Lists names data)
    (hnames : ∀ listed ∈ names, isDNS1123Subdomain listed = true) {call : Call}
    (hname : isDNS1123Subdomain call.clusterName = true) {data' : Data}
    (hcall : updateClusterListConfigMap data call = .ok data') :
    if call.clusterName ∈ names then data' = data
    else Lists (names ++ [call.clusterName]) data' := by
  unfold updateClusterListConfigMap at hcall
  split at hcall
  next => cases hcall
  next =>
    dsimp only at hcall
    split at hcall
    next hcontains =>
      rw [if_pos ((h.contains_iff hnames hname).mp hcontains)]
      exact (Except.ok.inj hcall).symm
    next hnew =>
      rw [if_neg fun hmem => hnew ((h.contains_iff hnames hname).mpr hmem)]
      obtain ⟨conf, hconf, hlists⟩ := h.insert call.clusterName
      rw [hconf] at hcall
      dsimp only at hcall
      split at hcall
      next => cases hcall
      next => exact Except.ok.inj hcall ▸ hlists

/-- A call does not fail unless the API server does. -/
theorem Lists.exists_update (h : Lists names data) {call : Call} (hget : call.get = none)
    (hupdate : call.update = none) : ∃ data', updateClusterListConfigMap data call = .ok data' := by
  unfold updateClusterListConfigMap
  rw [hget, hupdate]
  dsimp only
  split
  · exact ⟨data, rfl⟩
  · obtain ⟨conf, hconf, -⟩ := h.insert call.clusterName
    rw [hconf]
    exact ⟨_, rfl⟩

/-- A call with a name that is listed changes nothing. -/
theorem Lists.update_of_mem (h : Lists names data)
    (hnames : ∀ listed ∈ names, isDNS1123Subdomain listed = true) {call : Call}
    (hget : call.get = none) (hmem : call.clusterName ∈ names) :
    updateClusterListConfigMap data call = .ok data := by
  unfold updateClusterListConfigMap
  rw [hget]
  exact if_pos ((h.contains_iff hnames (hnames _ hmem)).mpr hmem)

end Stored

/-! ## Any number of calls -/

theorem wordsOf_brace : wordsOf "\x7d" = [['\x7d']] := by
  rw [wordsOf, show "\x7d".toList = ['\x7d'] from rfl, words_brace]

open Loops (firsts)

/-- A call adds its name to the list, unless it is there. -/
theorem Lists.addFirst {names : List String} {data data' : Data} {call : Call}
    (h : Lists names data) (hnames : ∀ listed ∈ names, isDNS1123Subdomain listed = true)
    (hname : isDNS1123Subdomain call.clusterName = true)
    (hcall : updateClusterListConfigMap data call = .ok data') :
    Lists (Loops.addFirst id names call.clusterName) data' ∧
      ∀ listed ∈ Loops.addFirst id names call.clusterName, isDNS1123Subdomain listed = true := by
  have hupdate := h.update hnames hname hcall
  by_cases hmem : call.clusterName ∈ names
  · rw [if_pos hmem] at hupdate
    rw [Loops.addFirst_of_mem hmem]
    exact ⟨hupdate ▸ h, hnames⟩
  · rw [if_neg hmem] at hupdate
    rw [Loops.addFirst_of_notMem hmem]
    refine ⟨hupdate, fun listed hlisted => ?_⟩
    rcases List.mem_append.mp hlisted with hlisted | hlisted
    · exact hnames listed hlisted
    · rw [List.mem_singleton.mp hlisted]
      exact hname

/-- After any number of calls the list has the names of the calls, each once. -/
theorem Lists.run {calls : List Call} {names : List String} {data data' : Data}
    (h : Lists names data) (hnames : ∀ listed ∈ names, isDNS1123Subdomain listed = true)
    (hcalls : ∀ call ∈ calls, isDNS1123Subdomain call.clusterName = true)
    (hrun : calls.foldlM updateClusterListConfigMap data = .ok data') :
    Lists ((calls.map Call.clusterName).foldl (Loops.addFirst id) names) data' := by
  induction calls generalizing names data with
  | nil => exact Except.ok.inj hrun ▸ h
  | cons call calls ih =>
    rw [List.foldlM_cons] at hrun
    obtain ⟨data₁, hcall, hrest⟩ := Fallible.bind_eq_ok.mp hrun
    obtain ⟨hlists, hvalid⟩ := h.addFirst hnames (hcalls call List.mem_cons_self) hcall
    exact ih hlists hvalid (fun other hother => hcalls other (List.mem_cons_of_mem _ hother)) hrest

/-- Calls of an API server that does not fail succeed. -/
theorem Lists.exists_run {calls : List Call} {names : List String} {data : Data}
    (h : Lists names data) (hnames : ∀ listed ∈ names, isDNS1123Subdomain listed = true)
    (hcalls : ∀ call ∈ calls, isDNS1123Subdomain call.clusterName = true ∧ call.get = none ∧
      call.update = none) :
    ∃ data', calls.foldlM updateClusterListConfigMap data = .ok data' := by
  have hstep : ∀ data call, call ∈ calls →
      (∃ names, Lists names data ∧ ∀ listed ∈ names, isDNS1123Subdomain listed = true) →
      ∃ data', updateClusterListConfigMap data call = .ok data' ∧
        ∃ names, Lists names data' ∧ ∀ listed ∈ names, isDNS1123Subdomain listed = true := by
    intro data call hcall ⟨names, hlists, hnames⟩
    obtain ⟨hname, hget, hupdate⟩ := hcalls call hcall
    obtain ⟨data', hdata'⟩ := hlists.exists_update hget hupdate
    exact ⟨data', hdata', _, hlists.addFirst hnames hname hdata'⟩
  obtain ⟨data', hrun, -⟩ := Fallible.foldlM_total _ hstep ⟨names, h, hnames⟩
  exact ⟨data', hrun⟩

/-- **The list of clusters** after any number of calls that succeed, from an absent one: its words are
those of the opening, of one block for each name in the order of the first calls, and of the closing
brace. A call that repeats a name changes nothing, and no call fails unless the API server does. -/
theorem cluster_list (calls : List Call) (data data' : Data)
    (habsent : Keyed.lookup Prod.fst clustersConfKey data = none)
    (hcalls : ∀ call ∈ calls, isDNS1123Subdomain call.clusterName = true)
    (hrun : calls.foldlM updateClusterListConfigMap data = .ok data') :
    (calls ≠ [] → ∃ text, Keyed.lookup Prod.fst clustersConfKey data' = some (clustersConfKey, text) ∧
      wordsOf (Go.trimPrefix text "|") = wordsOf "clusters = \x7b" ++
        ((firsts id (calls.map Call.clusterName)).flatMap fun name => wordsOf (newCluster name)) ++
        wordsOf "\x7d") ∧
    (∀ call, call.get = none → call.clusterName ∈ calls.map Call.clusterName →
      updateClusterListConfigMap data' call = .ok data') ∧
    ∀ call, call.get = none → call.update = none →
      ∃ data'', updateClusterListConfigMap data' call = .ok data'' := by
  have hstart : Lists [] data := by
    rw [Lists, habsent]
  have hlists := hstart.run (fun _ h => nomatch h) hcalls hrun
  refine ⟨fun hne => ?_, fun call hget hmem => ?_, fun call hget hupdate =>
    hlists.exists_update hget hupdate⟩
  · unfold Lists at hlists
    split at hlists
    next =>
      obtain ⟨call, hcall⟩ := List.exists_mem_of_ne_nil calls hne
      have hmem : call.clusterName ∈ firsts id (calls.map Call.clusterName) :=
        Loops.mem_firsts_id_iff.mpr (List.mem_map_of_mem hcall)
      rw [firsts, hlists] at hmem
      cases hmem
    next stored hlookup =>
      obtain ⟨t, ht, -, -, -, hwords⟩ := hlists
      refine ⟨stored.2, ?_, ?_⟩
      · rw [hlookup]
        exact congrArg some (Prod.ext (Keyed.key_of_lookup Prod.fst hlookup) rfl)
      · rw [wordsOf, toList_trimPrefix_pipe ht, hwords, content, wordsOf_brace]
        rfl
  · refine hlists.update_of_mem (fun listed hlisted => ?_) hget (Loops.mem_firsts_id_iff.mpr hmem)
    obtain ⟨call, hcall, rfl⟩ := List.mem_map.mp (Loops.mem_firsts_id_iff.mp hlisted)
    exact hcalls call hcall

/-- Three calls with two names, of which one begins with the other. -/
def calls : List Call :=
  [{ clusterName := "edge" }, { clusterName := "edge-1" }, { clusterName := "edge" }]

theorem edge_and_edge1_listed : ∃ data' text,
    calls.foldlM updateClusterListConfigMap [] = .ok data' ∧
    Keyed.lookup Prod.fst clustersConfKey data' = some (clustersConfKey, text) ∧
    wordsOf (Go.trimPrefix text "|") = wordsOf "clusters = \x7b" ++
      (wordsOf (newCluster "edge") ++ wordsOf (newCluster "edge-1")) ++ wordsOf "\x7d" := by
  have hcalls : ∀ call ∈ calls, isDNS1123Subdomain call.clusterName = true ∧ call.get = none ∧
      call.update = none := by
    intro call hcall
    fin_cases hcall
    · exact ⟨by decide, rfl, rfl⟩
    · exact ⟨by decide, rfl, rfl⟩
    · exact ⟨by decide, rfl, rfl⟩
  have hstart : Lists [] [] := rfl
  obtain ⟨data', hrun⟩ := hstart.exists_run (fun _ h => nomatch h) hcalls
  obtain ⟨text, hlookup, hwords⟩ := (cluster_list calls [] data' rfl
    (fun call hcall => (hcalls call hcall).1) hrun).1 (List.cons_ne_nil _ _)
  have hfirsts : firsts id (calls.map Call.clusterName) = ["edge", "edge-1"] := by decide
  refine ⟨data', text, hrun, hlookup, ?_⟩
  rw [hwords, hfirsts, List.flatMap_cons, List.flatMap_singleton]

end Nephio.Controllers.SpireBootstrap
