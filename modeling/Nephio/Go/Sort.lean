import Mathlib

/-!
# Go's `sort.Slice`

`sort.Slice` is not stable, and nothing makes the `less` it is given an order. Up to twelve elements
it is an insertion sort; above that the model only keeps what every sort does.
-/

namespace Nephio.Go

/-- `insertionSort_func`: from left to right, each element is moved left past those that it is less
than. The part that is done already grows from its last element on, hence the reversals. -/
def insertionSort {α : Type} (less : α → α → Bool) (xs : List α) : List α :=
  (xs.reverse.insertionSort fun a b => less a b = false).reverse

section InsertionSort

variable {α : Type} {less less' : α → α → Bool}

theorem orderedInsert_congr {a : α} {xs : List α} (h : ∀ b ∈ xs, less a b = less' a b) :
    xs.orderedInsert (fun a b => less a b = false) a =
      xs.orderedInsert (fun a b => less' a b = false) a := by
  induction xs with
  | nil => rfl
  | cons b xs ih =>
    rw [List.orderedInsert_cons, List.orderedInsert_cons, h b List.mem_cons_self,
      ih fun b hb => h b (List.mem_cons_of_mem _ hb)]

/-- No element is compared with itself. -/
theorem insertionSort_congr {xs : List α}
    (h : xs.Pairwise fun a b => less a b = less' a b ∧ less b a = less' b a) :
    insertionSort less xs = insertionSort less' xs := by
  have hsort : ∀ ys : List α, ys.Pairwise (fun a b => less a b = less' a b) →
      ys.insertionSort (fun a b => less a b = false) =
        ys.insertionSort fun a b => less' a b = false := by
    intro ys hys
    induction ys with
    | nil => rfl
    | cons a ys ih =>
      rw [List.pairwise_cons] at hys
      rw [List.insertionSort_cons, List.insertionSort_cons, ih hys.2]
      refine orderedInsert_congr fun b hb => hys.1 b ?_
      exact (List.perm_insertionSort _ ys).mem_iff.mp hb
  unfold insertionSort
  rw [hsort]
  exact List.pairwise_reverse.mpr (h.imp fun hab => hab.2)

end InsertionSort

/-- What `sort.Slice` asks of its `less`: a strict weak order. -/
structure StrictWeak {α : Type} (less : α → α → Bool) : Prop where
  asymm : ∀ a b, less a b = true → less b a = false
  trans : ∀ a b c, less a b = false → less b c = false → less a c = false

/-- `sort.Slice`. -/
structure SliceSort where
  slice : {α : Type} → (α → α → Bool) → List α → List α
  perm : ∀ {α : Type} (less : α → α → Bool) (xs : List α), (slice less xs).Perm xs
  sorted : ∀ {α : Type} {less : α → α → Bool} (_ : StrictWeak less) (xs : List α),
    (slice less xs).Pairwise fun a b => less b a = false
  small : ∀ {α : Type} (less : α → α → Bool) (xs : List α), xs.length ≤ 12 →
    slice less xs = insertionSort less xs
  /-- The elements that are compared stand at different places. -/
  apart : ∀ {α : Type} {less less' : α → α → Bool} {xs : List α},
    (xs.Pairwise fun a b => less a b = less' a b ∧ less b a = less' b a) →
    slice less xs = slice less' xs

/-- Insertion sort at every length. -/
def SliceSort.insertion : SliceSort where
  slice := insertionSort
  perm less xs := by
    refine (List.reverse_perm _).trans ?_
    exact (List.perm_insertionSort _ _).trans xs.reverse_perm
  sorted {α less} hless xs := by
    have htotal : Std.Total fun a b => less a b = false := by
      refine ⟨fun a b => ?_⟩
      cases hab : less a b with
      | false => exact Or.inl rfl
      | true => exact Or.inr (hless.asymm a b hab)
    have htrans : IsTrans α fun a b => less a b = false := ⟨hless.trans⟩
    exact List.pairwise_reverse.mpr (List.pairwise_insertionSort _ _)
  small _ _ _ := rfl
  apart := insertionSort_congr

end Nephio.Go
