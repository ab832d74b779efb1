import Mathlib

/-!
# Go slices, panics and map iteration

What the model uses of the Go runtime: the two panics its code can raise, the removal loop that
shrinks a slice while it ranges over it, and the order of `range` over a map.
-/

namespace Nephio.Go

/-- A panic ends the run: nothing it was doing is returned. -/
inductive Panic where
  /-- A field is read through a nil pointer. -/
  | nilPointer
  /-- `xs[low:]` with `low` past the length of `xs`. -/
  | sliceBounds
deriving DecidableEq, Repr

variable {α : Type}

/-- One turn of

```
for idx, c := range xs { if p(c) { xs = append(xs[:idx], xs[idx+1:]...) } }
```

The state is the array under `xs` and the length of `xs`. `range` fixed the array and the number of
turns when the loop began, so a turn reads the array at `idx` even where `xs` no longer reaches. -/
def removeTurn (p : α → Bool) (s : List α × Nat) (idx : Nat) : Except Panic (List α × Nat) :=
  match s.1[idx]? with
  | none => .ok s
  | some c =>
    if p c then
      if idx + 1 ≤ s.2 then
        .ok (s.1.take idx ++ (s.1.take s.2).drop (idx + 1) ++ s.1.drop (s.2 - 1), s.2 - 1)
      else .error .sliceBounds
    else .ok s

/-- The whole loop. -/
def removeLoop (p : α → Bool) (xs : List α) : Except Panic (List α) := do
  let s ← (List.range xs.length).foldlM (removeTurn p) (xs, xs.length)
  return s.1.take s.2

/-- The order of every `range` over a map keyed by `κ`: one permutation of the entries for each site
`σ` of the program and each content of the map. -/
structure MapOrder (σ κ : Type) where
  range : σ → {α : Type} → List (κ × α) → List (κ × α)
  perm : ∀ (site : σ) {α : Type} (m : List (κ × α)), (range site m).Perm m

/-- The order in which the entries were first written. -/
def MapOrder.insertion {σ κ : Type} : MapOrder σ κ := ⟨fun _ _ m => m, fun _ _ m => .refl m⟩

/-- The opposite order. -/
def MapOrder.opposite {σ κ : Type} : MapOrder σ κ :=
  ⟨fun _ _ m => m.reverse, fun _ _ m => m.reverse_perm⟩

end Nephio.Go
