import Criteria.Text.Basic
import Mathlib.Data.List.Nodup
import Mathlib.Data.List.Perm.Subperm
import Mathlib.Order.Bounds.Defs

/-! The search for a free number: among names that differ for different numbers it ends at the
least one that is not taken, after at most one candidate more than there are taken names. -/

set_option autoImplicit false

namespace Criteria

variable {taken : List String} {name : Nat → String}

/-- All names before the number that is found are taken, and its own only when the tries have
run out. -/
theorem firstFreeWithin_spec (taken : List String) (name : Nat → String) (tries start : Nat) :
    start ≤ firstFreeWithin taken name tries start ∧
    (∀ i, start ≤ i → i < firstFreeWithin taken name tries start → name i ∈ taken) ∧
    (name (firstFreeWithin taken name tries start) ∈ taken →
      firstFreeWithin taken name tries start = start + tries) := by
  induction tries generalizing start with
  | zero =>
    simp only [firstFreeWithin]
    exact ⟨Nat.le_refl _, fun i low high => by omega, fun _ => rfl⟩
  | succ tries ih =>
    simp only [firstFreeWithin]
    split
    · next occupied =>
      obtain ⟨low, before, last⟩ := ih (start + 1)
      refine ⟨by omega, fun i from_start high => ?_, fun member => by rw [last member]; omega⟩
      by_cases first : i = start
      · exact first ▸ occupied
      · exact before i (by omega) high
    · next free =>
      exact ⟨Nat.le_refl _, fun i low high => by omega, fun member => absurd member free⟩

/-- A first name that is free is taken at once. -/
theorem firstFree_eq_start {start : Nat} (free : name start ∉ taken) :
    firstFree taken name start = start := by
  unfold firstFree
  cases taken with
  | nil => rfl
  | cons first rest => exact if_neg free

/-- There is one more candidate than there are taken names, so not all of them are taken. -/
theorem firstFree_notMem (distinct : Function.Injective name) (start : Nat) :
    name (firstFree taken name start) ∉ taken := by
  intro member
  obtain ⟨-, before, last⟩ := firstFreeWithin_spec taken name taken.length start
  have exhausted : firstFree taken name start = start + taken.length := last member
  -- the names tried are as many as the numbers, and all of them would be taken
  let tried := (List.range' start (taken.length + 1)).map name
  have nodup : tried.Nodup := List.Nodup.map distinct (List.nodup_range' 1)
  have inside : tried ⊆ taken := by
    intro text chosen
    obtain ⟨i, position, rfl⟩ := List.mem_map.1 chosen
    obtain ⟨low, high⟩ := List.mem_range'_1.1 position
    by_cases final : i = start + taken.length
    · rwa [final, ← exhausted]
    · exact before i low (by unfold firstFree at exhausted; omega)
  have bound := (List.subperm_of_subset nodup inside).length_le
  simp only [tried, List.length_map, List.length_range'] at bound
  omega

theorem firstFreeWithin_le (taken : List String) (name : Nat → String) (tries start : Nat) :
    firstFreeWithin taken name tries start ≤ start + tries := by
  induction tries generalizing start with
  | zero => exact Nat.le_refl _
  | succ tries ih =>
    have later := ih (start + 1)
    simp only [firstFreeWithin]
    split <;> omega

/-! ### The search as a loop -/

-- The rules bound nothing: a search that went on for ever would have no derivation.
/-- From a number on, so many candidates are looked at one after another, and the last of them is
the first whose name is free. -/
inductive Search (taken : List String) (name : Nat → String) : Nat → Nat → Nat → Prop where
  | free {n : Nat} : name n ∉ taken → Search taken name n 1 n
  | occupied {n tries found : Nat} : name n ∈ taken → Search taken name (n + 1) tries found →
    Search taken name n (tries + 1) found

namespace Search

variable {start tries found : Nat}

theorem of_mem {gap : Nat} (occupied : ∀ i < gap, name (start + i) ∈ taken)
    (free : name (start + gap) ∉ taken) : Search taken name start (gap + 1) (start + gap) := by
  induction gap generalizing start with
  | zero => exact .free free
  | succ gap ih =>
    have shift : ∀ i, start + 1 + i = start + (i + 1) := by omega
    rw [← shift gap] at free ⊢
    apply Search.occupied (occupied 0 (Nat.succ_pos gap))
    apply ih _ free
    intro i inside
    rw [shift]
    exact occupied (i + 1) (Nat.succ_lt_succ inside)

theorem notMem (search : Search taken name start tries found) : name found ∉ taken := by
  induction search with
  | free untaken => exact untaken
  | occupied _ _ ih => exact ih

theorem start_le (search : Search taken name start tries found) : start ≤ found := by
  induction search with
  | free => exact Nat.le_refl _
  | occupied _ _ ih => omega

theorem mem_of_lt (search : Search taken name start tries found) {n : Nat} (low : start ≤ n)
    (high : n < found) : name n ∈ taken := by
  induction search with
  | free => omega
  | @occupied first _ _ member _ ih =>
    by_cases here : n = first
    · exact here ▸ member
    · exact ih (by omega) high

theorem isLeast (search : Search taken name start tries found) :
    IsLeast {n | start ≤ n ∧ name n ∉ taken} found := by
  refine ⟨⟨search.start_le, search.notMem⟩, fun n ⟨reached, untaken⟩ => ?_⟩
  apply Nat.le_of_not_lt
  intro early
  exact untaken (search.mem_of_lt reached early)

end Search

/-- The loop ends, and where the bounded search ends. -/
theorem exists_search (taken : List String) (distinct : Function.Injective name) (start : Nat) :
    ∃ tries ≤ taken.length + 1, Search taken name start tries (firstFree taken name start) := by
  obtain ⟨low, before, -⟩ := firstFreeWithin_spec taken name taken.length start
  have bound := firstFreeWithin_le taken name taken.length start
  obtain ⟨gap, position⟩ := Nat.exists_eq_add_of_le low
  refine ⟨gap + 1, by omega, ?_⟩
  have reached : firstFree taken name start = start + gap := position
  rw [reached]
  apply Search.of_mem
  · intro i inside
    exact before (start + i) (by omega) (by omega)
  · exact reached ▸ firstFree_notMem distinct start

end Criteria
