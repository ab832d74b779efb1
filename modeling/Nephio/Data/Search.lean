import Mathlib.Data.List.Infix

/-!
# Data.Search: searching a list with a loose test

An element `x` has the label `label x`, and a search for the label `k` takes the first element that
passes `hit k`, which is weaker than having the label `k`. The search is exact where an element with
the label comes no later than any other that passes (`find_exact_iff`).
-/

namespace Nephio.Search

variable {α κ : Type} (hit : κ → α → Bool) (label : α → κ)

/-- Wherever the list is cut, if an element before the cut passes the test for `k`, so does one with
the label `k`. -/
def Leads (k : κ) (l : List α) : Prop :=
  ∀ l', l' <+: l → (∃ x ∈ l', hit k x = true) → ∃ x ∈ l', hit k x = true ∧ label x = k

variable {hit label}

theorem find_exact_iff {k : κ} {l : List α} :
    (∀ x, l.find? (hit k) = some x → label x = k) ↔ Leads hit label k l := by
  constructor
  · intro hexact l' hprefix hpass
    obtain ⟨y, hy⟩ := Option.isSome_iff_exists.mp (List.find?_isSome.mpr hpass)
    obtain ⟨rest, rfl⟩ := hprefix
    have hfind : (l' ++ rest).find? (hit k) = some y := by
      rw [List.find?_append, hy, Option.some_or]
    exact ⟨y, List.mem_of_find?_eq_some hy, List.find?_some hy, hexact y hfind⟩
  · intro hleads x hx
    obtain ⟨hpass, before, after, hl, hnone⟩ := List.find?_eq_some_iff_append.mp hx
    have hprefix : before ++ [x] <+: l := ⟨after, by rw [hl, List.append_assoc]; rfl⟩
    obtain ⟨y, hy, hpassy, hlabel⟩ :=
      hleads _ hprefix ⟨x, List.mem_append_right _ List.mem_cons_self, hpass⟩
    rcases List.mem_append.mp hy with hy | hy
    · have hfails := hnone y hy
      rw [hpassy] at hfails
      cases hfails
    · rw [← List.mem_singleton.mp hy]
      exact hlabel

/-- Searches for several labels that between them find every one of these labels are exact, as long as
an element that passes a test passes that for its own label. -/
theorem exact_of_covered (hself : ∀ k x, hit k x = true → hit (label x) x = true) {K : κ → Prop}
    {l : List α} (hcover : ∀ k, K k → ∃ k', K k' ∧ ∃ x, l.find? (hit k') = some x ∧ label x = k) :
    ∀ k, K k → ∀ x, l.find? (hit k) = some x → label x = k := by
  induction l generalizing K with
  | nil => exact fun k _ x hx => nomatch hx
  | cons a l ih =>
    have hhead : ∀ {k}, hit k a = true → ∀ {x}, (a :: l).find? (hit k) = some x → x = a := by
      intro k ha x hx
      rw [List.find?_cons_of_pos ha] at hx
      exact (Option.some.inj hx).symm
    have htail : ∀ {k}, ¬ hit k a = true → (a :: l).find? (hit k) = l.find? (hit k) :=
      fun ha => List.find?_cons_of_neg ha
    -- the labels whose search passes over `a` are found by such searches
    have hrest : ∀ k, K k ∧ ¬ hit k a = true → ∀ x, l.find? (hit k) = some x → label x = k := by
      refine ih fun k hk => ?_
      obtain ⟨k', hk', x, hx, hlabel⟩ := hcover k hk.1
      have hover : ¬ hit k' a = true := by
        intro ha
        apply hk.2
        rw [← hlabel, hhead ha hx]
        exact hself k' a ha
      exact ⟨k', ⟨hk', hover⟩, x, htail hover ▸ hx, hlabel⟩
    intro k hk x hx
    by_cases ha : hit k a = true
    · obtain ⟨k', hk', y, hy, hlabel⟩ := hcover k hk
      by_cases ha' : hit k' a = true
      · rw [hhead ha hx, ← hhead ha' hy]
        exact hlabel
      · have hexact := hrest k' ⟨hk', ha'⟩ y (htail ha' ▸ hy)
        rw [← hexact, hlabel] at ha'
        exact absurd ha ha'
    · exact hrest k ⟨hk, ha⟩ x (htail ha ▸ hx)

end Nephio.Search
