import Mathlib.Data.List.Nodup

/-! The members of a list that come first with their key, in the order of the list. They are what is
left when each further member is added only if there is none with its key. -/

set_option autoImplicit false

namespace Criteria

variable {α κ : Type} [DecidableEq κ] {key : α → κ}

def firstOfEach (key : α → κ) : List α → List α
  | [] => []
  | x :: rest => x :: (firstOfEach key rest).filter (key · ≠ key x)

theorem mem_map_firstOfEach {k : κ} {xs : List α} :
    k ∈ (firstOfEach key xs).map key ↔ k ∈ xs.map key := by
  induction xs with
  | nil => rfl
  | cons x rest ih =>
    by_cases first : k = key x
    · simp [firstOfEach, first]
    · simp only [firstOfEach, List.map_cons, List.mem_cons, first, false_or, ← ih]
      simp only [List.mem_map, List.mem_filter, decide_eq_true_eq]
      constructor
      · rintro ⟨y, ⟨member, -⟩, rfl⟩
        exact ⟨y, member, rfl⟩
      · rintro ⟨y, member, rfl⟩
        exact ⟨y, ⟨member, first⟩, rfl⟩

theorem nodup_map_firstOfEach (key : α → κ) (xs : List α) :
    ((firstOfEach key xs).map key).Nodup := by
  induction xs with
  | nil => exact List.nodup_nil
  | cons x rest ih =>
    rw [firstOfEach, List.map_cons, List.nodup_cons]
    constructor
    · simp [List.mem_map]
    · exact ih.sublist (List.filter_sublist.map key)

theorem firstOfEach_append_singleton (xs : List α) (x : α) :
    firstOfEach key (xs ++ [x]) =
      if key x ∈ xs.map key then firstOfEach key xs else firstOfEach key xs ++ [x] := by
  induction xs with
  | nil => rfl
  | cons y rest ih =>
    simp only [List.cons_append, firstOfEach, ih, List.map_cons, List.mem_cons]
    by_cases same : key x = key y
    · simp only [same, true_or, if_true]
      split <;> simp [same]
    · simp only [same, false_or]
      split <;> simp [same]

end Criteria
