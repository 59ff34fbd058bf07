/-!
Stable sorting: elements that compare as equal stay in order. Short lists are
sorted by insertion, so what an order that is not transitive does to them is
settled, too.
-/

set_option autoImplicit false

namespace Criteria.Sorting

variable {α : Type}

/-- Puts an element into a list that has its last element first. The element moves back past
those that it comes before, up to the first that it does not come before. -/
def insertBack (cmp : α → α → Ordering) (x : α) : List α → List α
  | [] => [x]
  | last :: earlier =>
    if (cmp x last).isLT then last :: insertBack cmp x earlier else x :: last :: earlier

def byInsertion (cmp : α → α → Ordering) (xs : List α) : List α :=
  (xs.foldl (fun sorted x => insertBack cmp x sorted) []).reverse

def byMerging (cmp : α → α → Ordering) (xs : List α) : List α :=
  xs.mergeSort fun a b => (cmp a b).isLE

/-- The longest lists that are sorted by insertion. -/
def maxInsertion : Nat := 20

def sort (cmp : α → α → Ordering) (xs : List α) : List α :=
  if xs.length ≤ maxInsertion then byInsertion cmp xs else byMerging cmp xs

theorem insertBack_perm (cmp : α → α → Ordering) (x : α) (xs : List α) :
    (insertBack cmp x xs).Perm (x :: xs) := by
  induction xs with
  | nil => exact .refl _
  | cons last earlier ih =>
    simp only [insertBack]
    split
    · exact (ih.cons last).trans (.swap x last earlier)
    · exact .refl _

theorem byInsertion_perm (cmp : α → α → Ordering) (xs : List α) :
    (byInsertion cmp xs).Perm xs := by
  suffices ∀ sorted, (xs.foldl (fun sorted x => insertBack cmp x sorted) sorted).Perm
      (xs ++ sorted) by
    simpa [byInsertion] using (List.reverse_perm _).trans (this [])
  induction xs with
  | nil => exact fun _ => .refl _
  | cons x rest ih =>
    intro sorted
    exact (ih _).trans (((insertBack_perm cmp x sorted).append_left rest).trans List.perm_middle)

theorem sort_perm (cmp : α → α → Ordering) (xs : List α) : (sort cmp xs).Perm xs := by
  unfold sort
  split
  · exact byInsertion_perm cmp xs
  · exact List.mergeSort_perm xs _

end Criteria.Sorting
