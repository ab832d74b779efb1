import Mathlib.Data.List.Induction

/-!
# Data.Runs: runs of a state machine

A machine is a step function. `history` keeps, for a list of actions, the state that each of them
starts in; what one step preserves is preserved by a run.
-/

namespace Nephio.Runs

variable {σ α : Type} (step : σ → α → σ)

/-- The state after the actions. -/
def run (s : σ) (as : List α) : σ := as.foldl step s

/-- Each action with the state it starts in. -/
def history (s : σ) : List α → List (σ × α)
  | [] => []
  | a :: as => (s, a) :: history (step s a) as

@[simp] theorem run_nil (s : σ) : run step s [] = s := rfl

@[simp] theorem run_cons (s : σ) (a : α) (as : List α) :
    run step s (a :: as) = run step (step s a) as := rfl

@[simp] theorem history_nil (s : σ) : history step s [] = [] := rfl

@[simp] theorem history_cons (s : σ) (a : α) (as : List α) :
    history step s (a :: as) = (s, a) :: history step (step s a) as := rfl

theorem run_concat (s : σ) (as : List α) (a : α) :
    run step s (as ++ [a]) = step (run step s as) a := by
  rw [run, List.foldl_append]
  rfl

theorem history_concat (s : σ) (as : List α) (a : α) :
    history step s (as ++ [a]) = history step s as ++ [(run step s as, a)] := by
  induction as generalizing s with
  | nil => rfl
  | cons b as ih => rw [List.cons_append, history_cons, ih, history_cons, run_cons, List.cons_append]

variable {step}

/-- A relation between the history and the state that each step keeps. -/
theorem history_induction {I : List (σ × α) → σ → Prop} {s : σ} (hs : I [] s)
    (hstep : ∀ h s a, I h s → I (h ++ [(s, a)]) (step s a)) (as : List α) :
    I (history step s as) (run step s as) := by
  induction as using List.reverseRecOn with
  | nil => exact hs
  | append_singleton as a ih =>
    rw [history_concat, run_concat]
    exact hstep _ _ a ih

section Invariant

variable {I : σ → Prop} {s : σ} {as : List α} (hs : I s)
  (hstep : ∀ e ∈ history step s as, I e.1 → I (step e.1 e.2))

include hs hstep

/-- What every step of a run preserves holds after it. -/
theorem invariant : I (run step s as) := by
  induction as generalizing s with
  | nil => exact hs
  | cons a as ih =>
    refine ih (hstep (s, a) List.mem_cons_self hs) fun e he => ?_
    exact hstep e (List.mem_cons_of_mem _ he)

/-- It holds where each of its steps starts, too. -/
theorem invariant_history : ∀ e ∈ history step s as, I e.1 := by
  induction as generalizing s with
  | nil => exact nofun
  | cons a as ih =>
    intro e he
    rcases List.mem_cons.mp he with rfl | he
    · exact hs
    · refine ih (hstep (s, a) List.mem_cons_self hs) (fun e he => ?_) e he
      exact hstep e (List.mem_cons_of_mem _ he)

end Invariant

/-- Two steps of a run exclude each other, where the first makes something hold that lasts and that
the second needs not to hold. -/
theorem pairwise_history {κ : Type} {I : κ → σ → Prop} {R : κ → σ × α → Prop} {s : σ}
    {as : List α} (hmakes : ∀ e ∈ history step s as, ∀ k, R k e → I k (step e.1 e.2))
    (hneeds : ∀ e ∈ history step s as, ∀ k, R k e → ¬ I k e.1)
    (hstep : ∀ e ∈ history step s as, ∀ k, I k e.1 → I k (step e.1 e.2)) :
    (history step s as).Pairwise fun e e' => ∀ k, R k e → ¬ R k e' := by
  induction as generalizing s with
  | nil => exact List.Pairwise.nil
  | cons a as ih =>
    have htail : ∀ e ∈ history step (step s a) as, e ∈ history step s (a :: as) :=
      fun e he => List.mem_cons_of_mem _ he
    refine List.Pairwise.cons (fun e he k hfirst hlater => ?_) (ih (fun e he => hmakes e (htail e he))
      (fun e he => hneeds e (htail e he)) fun e he => hstep e (htail e he))
    refine hneeds e (htail e he) k hlater ?_
    exact invariant_history (hmakes (s, a) List.mem_cons_self k hfirst)
      (fun e he => hstep e (htail e he) k) e he

end Nephio.Runs
