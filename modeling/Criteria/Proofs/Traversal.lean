import Mathlib.Data.List.Forall2

/-! Traversals of lists by steps that may fail. A traversal succeeds when each of its steps does,
and its value is then made of theirs. -/

set_option autoImplicit false

namespace Criteria

variable {ε α β : Type}

@[simp] theorem ok_bind (value : α) (next : α → Except ε β) : (.ok value >>= next) = next value :=
  rfl

@[simp] theorem error_bind (e : ε) (next : α → Except ε β) : (.error e >>= next) = .error e :=
  rfl

theorem bind_eq_ok_iff {first : Except ε α} {next : α → Except ε β} {result : β} :
    first >>= next = .ok result ↔ ∃ value, first = .ok value ∧ next value = .ok result := by
  cases first <;> simp

theorem bind_eq_error_iff {first : Except ε α} {next : α → Except ε β} {e : ε} :
    first >>= next = .error e ↔
      first = .error e ∨ ∃ value, first = .ok value ∧ next value = .error e := by
  cases first <;> simp

theorem mapM_eq_ok_iff {step : α → Except ε β} {xs : List α} {ys : List β} :
    xs.mapM step = .ok ys ↔ List.Forall₂ (fun x y => step x = .ok y) xs ys := by
  induction xs generalizing ys with
  | nil => cases ys <;> simp [pure, Except.pure]
  | cons x rest ih =>
    rw [List.mapM_cons, List.forall₂_cons_left_iff, bind_eq_ok_iff]
    constructor
    · rintro ⟨y, head, tail⟩
      obtain ⟨zs, each, same⟩ := bind_eq_ok_iff.1 tail
      exact ⟨y, zs, head, ih.1 each, (Except.ok.inj same).symm⟩
    · rintro ⟨y, zs, head, each, rfl⟩
      exact ⟨y, head, bind_eq_ok_iff.2 ⟨zs, ih.2 each, rfl⟩⟩

/-- In a traversal that succeeds, each step has succeeded with one of the values. -/
theorem image_of_mapM {step : α → Except ε β} {xs : List α} {ys : List β}
    (ran : xs.mapM step = .ok ys) : ∀ x ∈ xs, ∃ y ∈ ys, step x = .ok y := by
  induction mapM_eq_ok_iff.1 ran with
  | nil => exact fun _ member => nomatch member
  | @cons x y xs ys head tail ih =>
    refine List.forall_mem_cons.2 ⟨⟨y, List.mem_cons_self, head⟩, fun other member => ?_⟩
    obtain ⟨value, inside, step⟩ := ih (mapM_eq_ok_iff.2 tail) other member
    exact ⟨value, List.mem_cons_of_mem y inside, step⟩

theorem ok_of_mapM {step : α → Except ε β} {xs : List α} {ys : List β}
    (ran : xs.mapM step = .ok ys) : ∀ x ∈ xs, ∃ y, step x = .ok y := by
  intro x member
  obtain ⟨y, -, ok⟩ := image_of_mapM ran x member
  exact ⟨y, ok⟩

/-- The values of a traversal are those of its steps. -/
theorem source_of_mapM {step : α → Except ε β} {xs : List α} {ys : List β}
    (ran : xs.mapM step = .ok ys) : ∀ y ∈ ys, ∃ x ∈ xs, step x = .ok y := by
  induction mapM_eq_ok_iff.1 ran with
  | nil => exact fun _ member => nomatch member
  | @cons x y xs ys head tail ih =>
    refine List.forall_mem_cons.2 ⟨⟨x, List.mem_cons_self, head⟩, fun z member => ?_⟩
    obtain ⟨source, inside, step⟩ := ih (mapM_eq_ok_iff.2 tail) z member
    exact ⟨source, List.mem_cons_of_mem x inside, step⟩

theorem mapM_eq_map {step : α → Except ε β} {value : α → β} {xs : List α}
    (each : ∀ x ∈ xs, step x = .ok (value x)) : xs.mapM step = .ok (xs.map value) := by
  rw [mapM_eq_ok_iff, List.forall₂_map_right_iff, List.forall₂_same]
  exact each

/-- The error of a traversal is that of one of its steps. -/
theorem exists_of_mapM_eq_error {step : α → Except ε β} {xs : List α} {e : ε}
    (failed : xs.mapM step = .error e) : ∃ x ∈ xs, step x = .error e := by
  induction xs with
  | nil => cases failed
  | cons x rest ih =>
    rw [List.mapM_cons, bind_eq_error_iff] at failed
    rcases failed with head | ⟨y, -, tail⟩
    · exact ⟨x, List.mem_cons_self, head⟩
    · rcases bind_eq_error_iff.1 tail with tail | ⟨ys, -, done⟩
      · obtain ⟨other, member, step⟩ := ih tail
        exact ⟨other, List.mem_cons_of_mem x member, step⟩
      · cases done

/-- In a fold that succeeds, each step has succeeded on some value. -/
theorem ok_of_foldlM {step : β → α → Except ε β} {xs : List α} {start result : β}
    (ran : xs.foldlM step start = .ok result) : ∀ x ∈ xs, ∃ value next, step value x = .ok next := by
  induction xs generalizing start with
  | nil => exact fun _ member => nomatch member
  | cons x rest ih =>
    rw [List.foldlM_cons] at ran
    obtain ⟨next, head, tail⟩ := bind_eq_ok_iff.1 ran
    exact List.forall_mem_cons.2 ⟨⟨start, next, head⟩, ih tail⟩

theorem exists_of_foldlM_eq_error {step : β → α → Except ε β} {xs : List α} {start : β} {e : ε}
    (failed : xs.foldlM step start = .error e) : ∃ x ∈ xs, ∃ value, step value x = .error e := by
  induction xs generalizing start with
  | nil => cases failed
  | cons x rest ih =>
    rw [List.foldlM_cons, bind_eq_error_iff] at failed
    rcases failed with head | ⟨value, -, tail⟩
    · exact ⟨x, List.mem_cons_self, start, head⟩
    · obtain ⟨other, member, step⟩ := ih tail
      exact ⟨other, List.mem_cons_of_mem x member, step⟩

-- The traversal collects what it keeps in front, and turns it round at the end.
theorem filterAuxM_map {γ : Type} {step : α → Except ε Bool} {f : γ → α} {keep : γ → Bool}
    {xs : List γ} (each : ∀ x ∈ xs, step (f x) = .ok (keep x)) (kept : List α) :
    (xs.map f).filterAuxM step kept = .ok (((xs.filter keep).map f).reverse ++ kept) := by
  induction xs generalizing kept with
  | nil => rfl
  | cons x rest ih =>
    rw [List.map_cons, List.filterAuxM, each x (by simp), ok_bind,
      ih fun other member => each other (by simp [member])]
    cases selected : keep x <;> simp [selected]

theorem exists_of_filterAuxM_eq_error {step : α → Except ε Bool} {xs kept : List α} {e : ε}
    (failed : xs.filterAuxM step kept = .error e) : ∃ x ∈ xs, step x = .error e := by
  induction xs generalizing kept with
  | nil => cases failed
  | cons x rest ih =>
    rw [List.filterAuxM, bind_eq_error_iff] at failed
    rcases failed with head | ⟨keep, -, tail⟩
    · exact ⟨x, List.mem_cons_self, head⟩
    · obtain ⟨other, member, step⟩ := ih tail
      exact ⟨other, List.mem_cons_of_mem x member, step⟩

theorem exists_of_filterM_eq_error {step : α → Except ε Bool} {xs : List α} {e : ε}
    (failed : xs.filterM step = .error e) : ∃ x ∈ xs, step x = .error e := by
  rw [List.filterM, bind_eq_error_iff] at failed
  rcases failed with failed | ⟨kept, -, done⟩
  · exact exists_of_filterAuxM_eq_error failed
  · cases done

/-- What is kept of the members may be decided on what they were made from. -/
theorem filterM_map {γ : Type} {step : α → Except ε Bool} {f : γ → α} {keep : γ → Bool}
    {xs : List γ} (each : ∀ x ∈ xs, step (f x) = .ok (keep x)) :
    (xs.map f).filterM step = .ok ((xs.filter keep).map f) := by
  rw [List.filterM, filterAuxM_map each, ok_bind, List.append_nil, List.reverse_reverse]
  rfl

theorem ok_of_filterAuxM {step : α → Except ε Bool} {xs kept ys : List α}
    (ran : xs.filterAuxM step kept = .ok ys) : ∀ x ∈ xs, ∃ keep, step x = .ok keep := by
  induction xs generalizing kept with
  | nil => exact fun _ member => nomatch member
  | cons x rest ih =>
    obtain ⟨keep, head, tail⟩ := bind_eq_ok_iff.1 ran
    exact List.forall_mem_cons.2 ⟨⟨keep, head⟩, ih tail⟩

/-- A selection that succeeds has decided on every member. -/
theorem filterM_eq_ok {step : α → Except ε Bool} {xs ys : List α} (ran : xs.filterM step = .ok ys) :
    ∃ keep : α → Bool, (∀ x ∈ xs, step x = .ok (keep x)) ∧ ys = xs.filter keep := by
  obtain ⟨kept, selected, -⟩ := bind_eq_ok_iff.1 ran
  let keep : α → Bool := fun x => (step x).toOption.getD false
  have each : ∀ x ∈ xs, step (id x) = .ok (keep x) := by
    intro x member
    obtain ⟨chosen, decided⟩ := ok_of_filterAuxM selected x member
    simp [keep, decided, Except.toOption]
  have same := filterM_map each
  rw [List.map_id, List.map_id] at same
  exact ⟨keep, each, Except.ok.inj (ran.symm.trans same)⟩

end Criteria
