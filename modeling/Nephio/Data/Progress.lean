import Mathlib.Data.List.Basic

/-!
# Data.Progress: turns that a word takes in order

A task needs some turns one after the other. A letter of a word takes the next turn if it is that
turn, and does nothing otherwise. `left` is what the word leaves; nothing is left exactly where the
turns are a subsequence of the word (`left_eq_nil_iff`). `foldlM_left` is the rule for a machine whose
state says which turns are left.
-/

namespace Nephio.Progress

variable {α : Type} [DecidableEq α]

/-- One letter. -/
def advance (need : List α) (a : α) : List α :=
  match need with
  | [] => []
  | b :: rest => if a = b then rest else b :: rest

/-- A word. -/
def left (need word : List α) : List α := word.foldl advance need

@[simp] theorem left_nil (need : List α) : left need [] = need := rfl

@[simp] theorem left_cons (need : List α) (a : α) (word : List α) :
    left need (a :: word) = left (advance need a) word := rfl

/-- **The turns are done** exactly where they stand in the word, in their order. -/
theorem left_eq_nil_iff {need word : List α} : left need word = [] ↔ need.Sublist word := by
  induction word generalizing need with
  | nil => rw [left_nil, List.sublist_nil]
  | cons a word ih =>
    rw [left_cons, ih]
    cases need with
    | nil => exact iff_of_true (List.nil_sublist _) (List.nil_sublist _)
    | cons b rest =>
      rw [advance]
      split_ifs with hab
      · rw [hab, List.cons_sublist_cons]
      · refine ⟨fun h => h.cons a, fun h => ?_⟩
        cases h with
        | cons _ h => exact h
        | cons_cons _ _ => exact absurd rfl hab

/-- What each step keeps, with the turns that are left, a run keeps; and it completes if each step
does. -/
theorem foldlM_left {σ ε : Type} {β : Type*} {step : σ → β → Except ε σ} (letter : β → α)
    {I : List α → σ → Prop}
    (hstep : ∀ need s b, I need s → ∃ s', step s b = .ok s' ∧ I (advance need (letter b)) s')
    {need : List α} {s : σ} (hs : I need s) (word : List β) :
    ∃ s', word.foldlM step s = .ok s' ∧ I (left need (word.map letter)) s' := by
  induction word generalizing need s with
  | nil => exact ⟨s, rfl, hs⟩
  | cons b word ih =>
    obtain ⟨s₁, hs₁, hI⟩ := hstep need s b hs
    obtain ⟨s', hs', hI'⟩ := ih hI
    refine ⟨s', ?_, hI'⟩
    rw [List.foldlM_cons, hs₁]
    exact hs'

end Nephio.Progress
