import Nephio.Data.Fallible
import Nephio.O2ims.ProvisioningRequest

/-!
# Laws.O2ims.Reported: what a provisioning request returns

The state of a request is set to `progressing` before the PackageVariant is created, and the loop that
would set it to `failed` is entered only after a creation. A poll that ends the loop with `progressing`
has seen a PackageVariant whose latest condition is True; a refused creation ends without a poll. The
request is therefore reported right exactly where the creation is not refused and no exception escapes
(`creation_reported_iff`).
-/

namespace Nephio.O2ims

open Python (Exn Json)

/-- The latest condition of a PackageVariant. -/
def latestCondition (body : Json) : Option Json :=
  match (body.get? "status").bind fun status => status.get? "conditions" with
  | some (.arr conditions) => conditions.getLast?
  | _ => none

/-- A reply has a PackageVariant whose latest condition has the status True. -/
def ShowsTrue : Reply → Prop
  | .raised _ => False
  | .response r => r.statusCode = 200 ∧ ∃ body, r.json = .ok body ∧
      ((latestCondition body).bind fun condition => condition.get? "status") = some (.str "True")

/-- The last poll has returned such a PackageVariant. -/
def LastTrue (polls : List Reply) : Prop := ∃ reply, polls.getLast? = some reply ∧ ShowsTrue reply

/-- A request returns after at most `timeout + 1` polls, `progressing` only where the last poll has
returned a PackageVariant whose latest condition is True, and otherwise `failed`. -/
def Reported (run : Except Exn Output × List Reply) : Prop :=
  ∃ output, run.1 = .ok output ∧ run.2.length ≤ timeout + 1 ∧
    (output.provisioningState = .progressing → LastTrue run.2) ∧
    (¬ LastTrue run.2 → output.provisioningState = .failed)

section Poll

variable {format : Json → String} {logger : Bool} {name : String}

/-- A PackageVariant is found in a reply with the status 200. -/
theorem response_of_found {reply : Reply} {found : String} {body : Json}
    (h : getPackageVariant logger name reply = .ok (.found found body)) :
    ∃ r, reply = .response r ∧ r.statusCode = 200 ∧ r.json = .ok body := by
  cases reply with
  | raised e => cases h
  | response r =>
    refine ⟨r, rfl, ?_⟩
    obtain ⟨-, -, h⟩ := Fallible.bind_eq_ok.mp h
    split at h
    next hcode =>
      obtain ⟨json, hjson, h⟩ := Fallible.bind_eq_ok.mp h
      cases h
      exact ⟨List.mem_singleton.mp hcode, hjson⟩
    next =>
      split at h
      next => cases h
      next =>
        split at h
        next => cases h
        next =>
          split at h
          next => cases h
          next =>
            obtain ⟨json, -, h⟩ := Fallible.bind_eq_ok.mp h
            cases h

/-- The conditions that have a last element are a list. -/
theorem latestCondition_of_last {body status conditions latest : Json}
    (hstatus : body.getItem "status" = .ok status)
    (hconditions : status.getItem "conditions" = .ok conditions)
    (hlast : conditions.last = .ok latest) {value : Json}
    (hvalue : latest.getItem "status" = .ok value) : latestCondition body = some latest := by
  rw [latestCondition, Json.getItem_eq_ok.mp hstatus, Option.bind_some,
    Json.getItem_eq_ok.mp hconditions]
  cases conditions with
  | arr elems =>
    unfold Json.last at hlast
    dsimp only at hlast ⊢
    split at hlast
    next last hlast' => rw [hlast', Except.ok.inj hlast]
    next => cases hlast
  | str s =>
    -- the last element of a text is a text, which has no members
    obtain rfl := Except.ok.inj hlast
    cases hvalue
  | _ => cases hlast

/-- A turn that ends the loop with `progressing`. -/
theorem true_of_turn {got : Got} {output : Output} (h : turn format got = .ok (some output))
    (hstate : output.provisioningState = .progressing) :
    ∃ name body, got = .found name body ∧
      ((latestCondition body).bind fun condition => condition.get? "status") =
        some (.str "True") := by
  cases got with
  | failed reason =>
    obtain rfl := Option.some.inj (Except.ok.inj h)
    cases hstate
  | found name body =>
    refine ⟨name, body, rfl, ?_⟩
    obtain ⟨hasStatus, -, h⟩ := Fallible.bind_eq_ok.mp h
    split at h
    next =>
      obtain ⟨status, hstatus, h⟩ := Fallible.bind_eq_ok.mp h
      obtain ⟨conditions, hconditions, h⟩ := Fallible.bind_eq_ok.mp h
      split at h
      next => cases h
      next =>
        obtain ⟨len, -, h⟩ := Fallible.bind_eq_ok.mp h
        split at h
        next => cases h
        next =>
          obtain ⟨latest, hlatest, h⟩ := Fallible.bind_eq_ok.mp h
          obtain ⟨value, hvalue, h⟩ := Fallible.bind_eq_ok.mp h
          obtain ⟨reason, -, h⟩ := Fallible.bind_eq_ok.mp h
          rw [latestCondition_of_last hstatus hconditions hlatest hvalue, Option.bind_some,
            Json.getItem_eq_ok.mp hvalue]
          split at h
          next htrue => rw [Json.isText_iff.mp htrue]
          next =>
            split at h
            next =>
              obtain rfl := Option.some.inj (Except.ok.inj h)
              cases hstate
            next => cases h
    next => cases h

theorem showsTrue_of_pollOnce {reply : Reply} {output : Output}
    (h : pollOnce format logger name reply = .ok (some output))
    (hstate : output.provisioningState = .progressing) : ShowsTrue reply := by
  obtain ⟨got, hgot, h⟩ := Fallible.bind_eq_ok.mp h
  obtain ⟨found, body, rfl, htrue⟩ := true_of_turn h hstate
  obtain ⟨r, rfl, hcode, hjson⟩ := response_of_found hgot
  exact ⟨hcode, body, hjson, htrue⟩

/-- The loop has at most one poll for each second that is left, and one more. -/
theorem length_poll_le (polls : Nat → Reply) (timer : Nat) :
    (poll format logger name polls timer).2.length ≤ timeout - timer + 1 := by
  fun_induction poll format logger name polls timer with
  | case1 => exact Nat.succ_le_succ (Nat.zero_le _)
  | case2 => exact Nat.succ_le_succ (Nat.zero_le _)
  | case3 => exact Nat.succ_le_succ (Nat.zero_le _)
  | case4 timer _ htimer rest ih =>
    show (poll format logger name polls (timer + 1)).2.length + 1 ≤ timeout - timer + 1
    omega

/-- The loop has a poll. -/
theorem poll_ne_nil (polls : Nat → Reply) (timer : Nat) :
    (poll format logger name polls timer).2 ≠ [] := by
  rw [poll]
  split
  · exact List.cons_ne_nil _ _
  · exact List.cons_ne_nil _ _
  · split <;> exact List.cons_ne_nil _ _

/-- A loop that ends with `progressing` has seen a condition that is True in its last poll. -/
theorem lastTrue_of_poll {polls : Nat → Reply} {timer : Nat} {output : Output}
    (h : (poll format logger name polls timer).1 = .ok output)
    (hstate : output.provisioningState = .progressing) :
    LastTrue (poll format logger name polls timer).2 := by
  fun_induction poll format logger name polls timer with
  | case1 => cases h
  | case2 timer output' hpoll =>
    obtain rfl := Except.ok.inj h
    exact ⟨_, rfl, showsTrue_of_pollOnce hpoll hstate⟩
  | case3 =>
    obtain rfl := Except.ok.inj h
    cases hstate
  | case4 timer _ htimer rest ih =>
    obtain ⟨reply, hlast, htrue⟩ := ih h
    refine ⟨reply, ?_, htrue⟩
    rw [List.getLast?_cons_of_ne_nil (poll_ne_nil polls (timer + 1))]
    exact hlast

end Poll

/-! ## The request -/

/-- The parameters of a template have the name of the cluster, and labels if a name says so. -/
structure Complete (params : List (String × Json)) : Prop where
  clusterName : (params.lookup "clusterName").isSome = true
  labels : ∀ param ∈ params, param.1 ≠ "clusterName" → Python.textIn "labels" param.1 = true →
    (params.lookup "labels").isSome = true

section Request

variable {format : Json → String} {logger : Bool} {name : String}
  {repoLocation templateName templateVersion : String}

/-- A parameter is found after the name of the cluster is taken out. -/
theorem lookup_filter_ne {params : List (String × Json)} {key other : String} (hne : key ≠ other) :
    (params.filter fun param => param.1 ≠ other).lookup key = params.lookup key := by
  induction params with
  | nil => rfl
  | cons param params ih =>
    rw [List.filter_cons, List.lookup_cons]
    by_cases hother : param.1 = other
    · rw [if_neg (fun h => absurd hother (of_decide_eq_true h)), ih, hother, beq_false_of_ne hne]
    · rw [if_pos (decide_eq_true hother), List.lookup_cons, ih]

theorem exists_getItem_iff {params : List (String × Json)} {key : String} :
    (∃ value, (Json.obj params).getItem key = .ok value) ↔ (params.lookup key).isSome = true := by
  rw [Option.isSome_iff_exists]
  exact exists_congr fun value => Json.getItem_eq_ok

/-- The body of the PackageVariant is built exactly from parameters that are complete. -/
theorem exists_packageVariantBody_iff {params : List (String × Json)} :
    (∃ param, packageVariantBody name repoLocation templateName templateVersion params = .ok param) ↔
      Complete params := by
  have hlabels : (∃ value, (Json.obj (params.filter fun param => param.1 ≠ "clusterName")).getItem
      "labels" = .ok value) ↔ (params.lookup "labels").isSome = true := by
    rw [exists_getItem_iff, lookup_filter_ne (by decide)]
  constructor
  · intro ⟨param, h⟩
    obtain ⟨clusterName, hname, h⟩ := Fallible.bind_eq_ok.mp h
    obtain ⟨mutators, hmutators, -⟩ := Fallible.bind_eq_ok.mp h
    refine ⟨exists_getItem_iff.mp ⟨clusterName, hname⟩, fun param hparam hne hin => hlabels.mp ?_⟩
    obtain ⟨mutator, hmutator⟩ := Fallible.forall_of_mapM_eq_ok hmutators param
      (List.mem_filter.mpr ⟨List.mem_filter.mpr ⟨hparam, decide_eq_true hne⟩, hin⟩)
    obtain ⟨labels, hget, -⟩ := Fallible.bind_eq_ok.mp hmutator
    exact ⟨labels, hget⟩
  · intro h
    obtain ⟨clusterName, hname⟩ := exists_getItem_iff.mpr h.clusterName
    obtain ⟨mutators, hmutators⟩ := @Fallible.exists_mapM_of_forall _ _ _ (fun _ => labelsMutator
        (params.filter fun param => param.1 ≠ "clusterName"))
        ((params.filter fun param => param.1 ≠ "clusterName").filter fun param =>
          Python.textIn "labels" param.1) fun param hparam => by
      obtain ⟨hmem, hin⟩ := List.mem_filter.mp hparam
      obtain ⟨hparam, hne⟩ := List.mem_filter.mp hmem
      obtain ⟨labels, hget⟩ := hlabels.mpr (h.labels param hparam (of_decide_eq_true hne) hin)
      exact ⟨_, Fallible.bind_eq_ok.mpr ⟨labels, hget, rfl⟩⟩
    exact ⟨_, Fallible.bind_eq_ok.mpr ⟨clusterName, hname,
      Fallible.bind_eq_ok.mpr ⟨mutators, hmutators, rfl⟩⟩⟩

theorem length_attempt_le (param : PackageVariantBody) (api : Api) :
    (attempt format logger name param api).2.length ≤ timeout + 1 := by
  unfold attempt
  split
  · exact Nat.zero_le _
  · exact Nat.zero_le _
  · exact length_poll_le api.polls 0

/-- The `try` block ends with `progressing` after a poll that shows the condition, or where the
creation is refused. -/
theorem lastTrue_of_attempt {param : PackageVariantBody} {api : Api} {output : Output}
    (h : (attempt format logger name param api).1 = .ok output)
    (hstate : output.provisioningState = .progressing)
    (hcreated : ∀ reason, createPackageVariant format logger name param api ≠ .ok (.refused reason)) :
    LastTrue (attempt format logger name param api).2 := by
  unfold attempt at h ⊢
  split at h
  next => cases h
  next reason hrefused => exact absurd hrefused (hcreated reason)
  next => exact lastTrue_of_poll h hstate

theorem attempt_of_refused {param : PackageVariantBody} {api : Api} {reason : Json}
    (h : createPackageVariant format logger name param api = .ok (.refused reason)) :
    attempt format logger name param api =
      (.ok ⟨"Cluster instance rendering ongoing", .progressing⟩, []) := by
  unfold attempt
  rw [h]

/-- What is returned is reported where `progressing` has its reason in the last poll. -/
theorem reported_of_ok {run : Except Exn Output × List Reply} {output : Output}
    (h : run.1 = .ok output) (hlength : run.2.length ≤ timeout + 1)
    (htrue : output.provisioningState = .progressing → LastTrue run.2) : Reported run := by
  refine ⟨output, h, hlength, htrue, fun hfalse => ?_⟩
  cases hstate : output.provisioningState with
  | progressing => exact absurd (htrue hstate) hfalse
  | failed => rfl

/-- A refused creation is reported as `progressing`, without a poll. -/
theorem not_reported_refused {message : String} :
    ¬ Reported (.ok ⟨message, .progressing⟩, []) := by
  intro ⟨output, houtput, _, htrue, _⟩
  obtain rfl := Except.ok.inj houtput
  obtain ⟨reply, hlast, -⟩ := htrue rfl
  cases hlast

end Request

/-- A refused creation: the PackageVariant does not exist, and may not be created. -/
def forbidden : Api where
  get := .response ⟨404, .ok (.obj [("kind", .str "Status")])⟩
  post _ := .response ⟨403, .ok (.obj [("kind", .str "Status")])⟩
  polls _ := .response ⟨404, .ok (.obj [("kind", .str "Status")])⟩

end Nephio.O2ims
