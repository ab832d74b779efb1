import Mathlib

/-!
# Fallible computations

How `Except` computations come apart: a bind, a loop, a `mapM`. A loop keeps what its turns keep
(`foldlM_invariant`), and it completes when no turn fails from where the turns before it can leave
the state (`foldlM_total`).
-/

namespace Nephio.Fallible

variable {ε α β σ τ : Type}

theorem bind_eq_ok {x : Except ε α} {f : α → Except ε β} {b : β} :
    (x >>= f) = .ok b ↔ ∃ a, x = .ok a ∧ f a = .ok b := by
  cases x with
  | error e =>
    constructor
    · intro h
      cases h
    · rintro ⟨a, ha, -⟩
      cases ha
  | ok a =>
    constructor
    · intro h
      exact ⟨a, rfl, h⟩
    · rintro ⟨a', ha, h⟩
      cases ha
      exact h

theorem map_eq_ok {x : Except ε α} {f : α → β} {b : β} :
    (f <$> x) = .ok b ↔ ∃ a, x = .ok a ∧ f a = b := by
  cases x with
  | error e =>
    constructor
    · intro h
      cases h
    · rintro ⟨a, ha, -⟩
      cases ha
  | ok a =>
    constructor
    · intro h
      exact ⟨a, rfl, Except.ok.inj h⟩
    · rintro ⟨a', ha, h⟩
      cases ha
      exact congrArg Except.ok h

/-- A loop keeps what its turns keep. -/
theorem foldlM_invariant {step : σ → α → Except ε σ} (P : σ → Prop) {l : List α}
    (hstep : ∀ s s' a, a ∈ l → P s → step s a = .ok s' → P s') {s s' : σ} (hs : P s)
    (h : l.foldlM step s = .ok s') : P s' := by
  induction l generalizing s with
  | nil =>
    rw [← Except.ok.inj h]
    exact hs
  | cons a l ih =>
    rw [List.foldlM_cons] at h
    obtain ⟨s₁, hs₁, hrest⟩ := bind_eq_ok.mp h
    exact ih (fun t t' b hb => hstep t t' b (List.mem_cons_of_mem _ hb))
      (hstep s s₁ a List.mem_cons_self hs hs₁) hrest

/-- A loop completes when each of its turns does. -/
theorem foldlM_total {step : σ → α → Except ε σ} (P : σ → Prop) {l : List α}
    (hstep : ∀ s a, a ∈ l → P s → ∃ s', step s a = .ok s' ∧ P s') {s : σ} (hs : P s) :
    ∃ s', l.foldlM step s = .ok s' ∧ P s' := by
  induction l generalizing s with
  | nil => exact ⟨s, rfl, hs⟩
  | cons a l ih =>
    obtain ⟨s₁, hs₁, hP⟩ := hstep s a List.mem_cons_self hs
    obtain ⟨s', hs', hP'⟩ := ih (fun t b hb => hstep t b (List.mem_cons_of_mem _ hb)) hP
    refine ⟨s', ?_, hP'⟩
    rw [List.foldlM_cons, hs₁]
    exact hs'

theorem mapM_eq_ok_map {f : α → Except ε β} {g : α → β} {l : List α}
    (h : ∀ x ∈ l, f x = .ok (g x)) : l.mapM f = .ok (l.map g) := by
  induction l with
  | nil => rfl
  | cons x l ih =>
    rw [List.mapM_cons, h x List.mem_cons_self, ih fun y hy => h y (List.mem_cons_of_mem _ hy)]
    rfl

/-- A `mapM` that completes completes on each element. -/
theorem forall_of_mapM_eq_ok {f : α → Except ε β} {l : List α} {ys : List β}
    (h : l.mapM f = .ok ys) : ∀ x ∈ l, ∃ y, f x = .ok y := by
  induction l generalizing ys with
  | nil =>
    intro x hx
    cases hx
  | cons x l ih =>
    rw [List.mapM_cons] at h
    obtain ⟨y, hy, h⟩ := bind_eq_ok.mp h
    obtain ⟨ys', hys', -⟩ := bind_eq_ok.mp h
    intro z hz
    rcases List.mem_cons.mp hz with rfl | hz
    · exact ⟨y, hy⟩
    · exact ih hys' z hz

theorem exists_mapM_of_forall {f : α → Except ε β} {l : List α}
    (h : ∀ x ∈ l, ∃ y, f x = .ok y) : ∃ ys, l.mapM f = .ok ys := by
  induction l with
  | nil => exact ⟨[], rfl⟩
  | cons x l ih =>
    obtain ⟨y, hy⟩ := h x List.mem_cons_self
    obtain ⟨ys, hys⟩ := ih fun z hz => h z (List.mem_cons_of_mem _ hz)
    refine ⟨y :: ys, ?_⟩
    rw [List.mapM_cons, hy, hys]
    rfl

theorem exists_of_mem_mapM {f : α → Except ε β} {l : List α} {ys : List β}
    (h : l.mapM f = .ok ys) : ∀ y ∈ ys, ∃ x ∈ l, f x = .ok y := by
  induction l generalizing ys with
  | nil =>
    rw [List.mapM_nil] at h
    rw [← Except.ok.inj h]
    exact fun y hy => nomatch hy
  | cons x l ih =>
    rw [List.mapM_cons, bind_eq_ok] at h
    obtain ⟨y, hy, h⟩ := h
    obtain ⟨ys', hys', h⟩ := bind_eq_ok.mp h
    rw [← Except.ok.inj h]
    intro z hz
    rcases List.mem_cons.mp hz with rfl | hz
    · exact ⟨x, List.mem_cons_self, hy⟩
    · obtain ⟨x', hx', hz⟩ := ih hys' z hz
      exact ⟨x', List.mem_cons_of_mem _ hx', hz⟩

/-- A loop that only appends comes to the same from any list. -/
theorem foldlM_append_of_forall {step : List β → α → Except ε (List β)}
    (h : ∀ s a, step s a = (s ++ ·) <$> step [] a) (l : List α) (s : List β) :
    l.foldlM step s = (s ++ ·) <$> l.foldlM step [] := by
  induction l generalizing s with
  | nil => exact congrArg Except.ok (List.append_nil s).symm
  | cons a l ih =>
    rw [List.foldlM_cons, List.foldlM_cons, h s a]
    cases step [] a with
    | error e => rfl
    | ok out =>
      show l.foldlM step (s ++ out) = (s ++ ·) <$> l.foldlM step out
      rw [ih (s ++ out), ih out]
      cases l.foldlM step [] with
      | error e => rfl
      | ok rest => exact congrArg Except.ok (List.append_assoc s out rest)

/-- A loop whose turns append, read at what they append. -/
theorem map_foldlM {γ : Type} {step : List β → α → Except ε (List β)} {g : β → γ}
    {f : α → List γ} {l : List α} {s s' : List β} (h : l.foldlM step s = .ok s')
    (hstep : ∀ s a s', step s a = .ok s' → s'.map g = s.map g ++ f a) :
    s'.map g = s.map g ++ l.flatMap f := by
  induction l generalizing s with
  | nil =>
    rw [← Except.ok.inj h, List.flatMap_nil, List.append_nil]
  | cons a l ih =>
    rw [List.foldlM_cons] at h
    obtain ⟨s₁, hs₁, hrest⟩ := bind_eq_ok.mp h
    rw [ih hrest, hstep s a s₁ hs₁, List.flatMap_cons, List.append_assoc]

/-- The computation succeeds, and its result passes a check. -/
def okAnd (p : α → Bool) : Except ε α → Bool
  | .ok a => p a
  | .error _ => false

theorem exists_of_okAnd {p : α → Bool} {x : Except ε α} (h : okAnd p x = true) :
    ∃ a, x = .ok a ∧ p a = true := by
  cases x with
  | ok a => exact ⟨a, rfl, h⟩
  | error e => cases h

/-- A loop whose turns can fail: it ends at the first error, and what the turns before did stays. The
monad `m` is for what ends the whole program. -/
def untilError {m : Type → Type} [Monad m] (step : σ → α → m (Except ε σ)) :
    σ → List α → m (σ × Option ε)
  | s, [] => pure (s, none)
  | s, a :: l => do
    match ← step s a with
    | .ok s => untilError step s l
    | .error e => pure (s, some e)

/-- Two computations end the same way: with results that are related, or with one error. -/
inductive Agree (R : α → β → Prop) : Except ε α → Except ε β → Prop where
  | ok {a : α} {b : β} (h : R a b) : Agree R (.ok a) (.ok b)
  | error (e : ε) : Agree R (.error e) (.error e)

theorem Agree.bind {γ δ : Type} {R : α → β → Prop} {S : γ → δ → Prop} {x : Except ε α}
    {y : Except ε β} {f : α → Except ε γ} {g : β → Except ε δ} (h : Agree R x y)
    (hrest : ∀ a b, R a b → Agree S (f a) (g b)) : Agree S (x >>= f) (y >>= g) := by
  cases h with
  | ok h => exact hrest _ _ h
  | error e => exact .error e

theorem foldlM_agree {R : σ → τ → Prop} {f : σ → α → Except ε σ} {g : τ → α → Except ε τ}
    {l : List α} (hstep : ∀ a ∈ l, ∀ s t, R s t → Agree R (f s a) (g t a)) {s : σ} {t : τ}
    (h : R s t) : Agree R (l.foldlM f s) (l.foldlM g t) := by
  induction l generalizing s t with
  | nil => exact .ok h
  | cons a l ih =>
    rw [List.foldlM_cons, List.foldlM_cons]
    refine (hstep a List.mem_cons_self s t h).bind fun s' t' h' => ?_
    exact ih (fun b hb => hstep b (List.mem_cons_of_mem _ hb)) h'

/-- Loops whose turns agree end the same way, with the states related. -/
theorem untilError_agree {π : Type} {R : σ → τ → Prop} {f : σ → α → Except π (Except ε σ)}
    {g : τ → α → Except π (Except ε τ)} {l : List α}
    (hstep : ∀ a ∈ l, ∀ s t, R s t → Agree (Agree R) (f s a) (g t a)) {s : σ} {t : τ}
    (h : R s t) :
    Agree (fun x y => R x.1 y.1 ∧ x.2 = y.2) (untilError f s l) (untilError g t l) := by
  induction l generalizing s t with
  | nil => exact .ok ⟨h, rfl⟩
  | cons a l ih =>
    refine (hstep a List.mem_cons_self s t h).bind fun x y hxy => ?_
    cases hxy with
    | ok h' => exact ih (fun b hb => hstep b (List.mem_cons_of_mem _ hb)) h'
    | error e => exact .ok ⟨h, rfl⟩

theorem untilError_invariant {π : Type} {f : σ → α → Except π (Except ε σ)} (P : σ → Prop)
    {l : List α} (hstep : ∀ a ∈ l, ∀ s s', P s → f s a = .ok (.ok s') → P s') {s s' : σ}
    {e : Option ε} (hs : P s) (h : untilError f s l = .ok (s', e)) : P s' := by
  induction l generalizing s with
  | nil =>
    cases h
    exact hs
  | cons a l ih =>
    obtain ⟨x, hx, hrest⟩ := bind_eq_ok.mp h
    cases x with
    | ok s₁ =>
      exact ih (fun b hb => hstep b (List.mem_cons_of_mem _ hb))
        (hstep a List.mem_cons_self s s₁ hs hx) hrest
    | error err =>
      cases hrest
      exact hs

/-- The computation fails with a given error. -/
def failsWith [DecidableEq ε] (e : ε) : Except ε α → Bool
  | .ok _ => false
  | .error e' => e' = e

theorem eq_error_of_failsWith [DecidableEq ε] {e : ε} {x : Except ε α}
    (h : failsWith e x = true) : x = .error e := by
  cases x with
  | ok a => cases h
  | error e' => rw [of_decide_eq_true h]

end Nephio.Fallible
