import Mathlib

/-!
# Texts modulo blanks

The words of a text are its longest parts without a blank. They are the same after blanks are cut at
the ends, or added beside others, and a text without blanks is found in another exactly where it is
found in one of its words. Everything about words follows from `words_append_blank`.
-/

namespace Nephio.Words

variable {α : Type} {blank : α → Bool}

/-- The words of a text. -/
def words (blank : α → Bool) (t : List α) : List (List α) :=
  (t.splitOnP blank).filter fun w => !w.isEmpty

theorem words_append_blank {c : α} (hc : blank c = true) (x y : List α) :
    words blank (x ++ c :: y) = words blank x ++ words blank y := by
  unfold words
  rw [List.splitOnP_append_cons x y hc, List.filter_append]

theorem words_nil : words blank [] = [] := rfl

theorem words_cons_blank {c : α} (hc : blank c = true) (t : List α) :
    words blank (c :: t) = words blank t := words_append_blank hc [] t

/-- The words of a text that is followed by a blank and more. -/
theorem words_append_cons_blank {c : α} (hc : blank c = true) (x y : List α) :
    words blank (x ++ c :: y) = words blank x ++ words blank (c :: y) := by
  rw [words_append_blank hc, words_cons_blank hc]

/-- Blanks before a text. -/
theorem words_append_of_forall {x : List α} (hx : ∀ c ∈ x, blank c = true) (t : List α) :
    words blank (x ++ t) = words blank t := by
  induction x with
  | nil => rfl
  | cons c x ih =>
    rw [List.cons_append, words_cons_blank (hx c List.mem_cons_self)]
    exact ih fun d hd => hx d (List.mem_cons_of_mem _ hd)

/-- A text without blanks is a word. -/
theorem words_of_forall {w : List α} (hne : w ≠ []) (h : ∀ c ∈ w, blank c = false) :
    words blank w = [w] := by
  rw [words, List.splitOnP_eq_singleton h, List.filter_singleton]
  cases w with
  | nil => exact absurd rfl hne
  | cons c w => rfl

theorem words_dropWhile (t : List α) : words blank (t.dropWhile blank) = words blank t := by
  induction t with
  | nil => rfl
  | cons c t ih =>
    rw [List.dropWhile_cons]
    split
    next hc => rw [ih, words_cons_blank hc]
    next => rfl

/-- Blanks beside blanks: each blank may become several. -/
theorem words_flatMap {f : α → List α} (hword : ∀ c, blank c = false → f c = [c])
    (hblank : ∀ c, blank c = true → ∃ x, f c = c :: x ∧ ∀ d ∈ x, blank d = true) (t : List α) :
    words blank (t.flatMap f) = words blank t := by
  -- the text up to its first blank is a word, and the rest is shorter
  have hpre : ∀ (x t : List α), (∀ c ∈ x, blank c = false) →
      words blank (x ++ t.flatMap f) = words blank (x ++ t) := by
    intro x t
    induction t generalizing x with
    | nil => exact fun _ => rfl
    | cons c t ih =>
      intro hx
      rw [List.flatMap_cons]
      cases hc : blank c with
      | false =>
        rw [hword c hc, ← List.append_assoc, ih, List.append_assoc]
        · rfl
        · intro d hd
          rcases List.mem_append.mp hd with hd | hd
          · exact hx d hd
          · exact List.mem_singleton.mp hd ▸ hc
      | true =>
        obtain ⟨y, hy, hblanks⟩ := hblank c hc
        rw [hy, List.cons_append, words_append_blank hc, words_append_of_forall hblanks,
          words_append_blank hc]
        exact congrArg _ (ih [] fun _ h => nomatch h)
  exact hpre [] t fun _ h => nomatch h

/-! ## Finding a text -/

/-- A text without a certain element is found on one side of it. -/
theorem infix_append_cons_iff {c : α} {s : List α} (hs : c ∉ s) (x y : List α) :
    s <:+: x ++ c :: y ↔ s <:+: x ∨ s <:+: y := by
  constructor
  · intro h
    rcases List.infix_append_iff.mp h with h | h | ⟨l₁, l₂, rfl, hl₁, hl₂⟩
    · exact Or.inl h
    · rcases List.infix_cons_iff.mp h with h | h
      · left
        cases s with
        | nil => exact List.nil_infix
        | cons d s => exact absurd ((List.cons_prefix_cons.mp h).1 ▸ List.mem_cons_self) hs
      · exact Or.inr h
    · cases l₂ with
      | nil =>
        rw [List.append_nil]
        exact Or.inl hl₁.isInfix
      | cons d l₂ =>
        refine absurd ?_ hs
        rw [← (List.cons_prefix_cons.mp hl₂).1]
        exact List.mem_append_right _ List.mem_cons_self
  · intro h
    rcases h with h | h
    · exact h.trans (List.prefix_append x _).isInfix
    · exact h.trans ((List.suffix_cons c y).trans (List.suffix_append x _)).isInfix

/-- A text without blanks is found exactly where it is found in a word. -/
theorem infix_iff_exists_word {s : List α} (hne : s ≠ []) (hs : ∀ c ∈ s, blank c = false)
    (t : List α) : s <:+: t ↔ ∃ w ∈ words blank t, s <:+: w := by
  by_cases h : ∃ c ∈ t, blank c = true
  · -- split the text at a blank
    obtain ⟨c, hc, hblank⟩ := h
    obtain ⟨x, y, rfl⟩ := List.append_of_mem hc
    have hnotMem : c ∉ s := fun hmem => Bool.false_ne_true ((hs c hmem).symm.trans hblank)
    rw [infix_append_cons_iff hnotMem, words_append_blank hblank,
      infix_iff_exists_word hne hs x, infix_iff_exists_word hne hs y]
    simp only [List.mem_append, or_and_right, exists_or]
  · have hword : ∀ c ∈ t, blank c = false := fun c hc =>
      Bool.eq_false_of_not_eq_true fun hblank => h ⟨c, hc, hblank⟩
    by_cases ht : t = []
    · rw [ht, words_nil]
      exact iff_of_false (fun h => hne (List.eq_nil_of_infix_nil h)) fun ⟨_, h, _⟩ => nomatch h
    · rw [words_of_forall ht hword]
      exact ⟨fun h => ⟨t, List.mem_singleton_self t, h⟩,
        fun ⟨w, hw, h⟩ => List.mem_singleton.mp hw ▸ h⟩
termination_by t.length

/-! ## Quotes -/

theorem eq_of_append_cons_eq [DecidableEq α] {q : α} {m n r y : List α} (hm : q ∉ m) (hn : q ∉ n)
    (h : m ++ q :: r = n ++ q :: y) : m = n := by
  have hsplit := congrArg (List.splitOn q) h
  rw [List.splitOn_append_cons_self_of_not_mem hm, List.splitOn_append_cons_self_of_not_mem hn]
    at hsplit
  exact (List.cons.inj hsplit).1

/-- In a text with two quotes a quoted text is found exactly where it stands between them. -/
theorem quoted_infix_iff [DecidableEq α] {q : α} {m x n y : List α} (hm : q ∉ m) (hx : q ∉ x)
    (hn : q ∉ n) (hy : q ∉ y) :
    q :: (m ++ [q]) <:+: x ++ q :: (n ++ q :: y) ↔ m = n := by
  constructor
  · intro ⟨p, r, h⟩
    rw [List.append_assoc, List.cons_append, List.append_assoc, List.singleton_append] at h
    have hcount := congrArg (List.count q) h
    simp only [List.count_append, List.count_cons_self, List.count_eq_zero_of_not_mem hm,
      List.count_eq_zero_of_not_mem hx, List.count_eq_zero_of_not_mem hn,
      List.count_eq_zero_of_not_mem hy] at hcount
    have hp : q ∉ p := List.count_eq_zero.mp (by omega)
    obtain rfl := eq_of_append_cons_eq hp hx h
    exact eq_of_append_cons_eq hm hn (List.cons.inj (List.append_cancel_left h)).2
  · rintro rfl
    refine ⟨x, y, ?_⟩
    rw [List.append_assoc, List.cons_append, List.append_assoc, List.singleton_append]

end Nephio.Words
