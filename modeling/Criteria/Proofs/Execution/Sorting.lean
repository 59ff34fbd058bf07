import Criteria.Execution.Sorting

/-!
Sorting under an order that is the same from both sides and transitive. Every
element goes before those that come after it, and elements that compare as
equal stay in the order that they were in, whichever way they are sorted.
-/

set_option autoImplicit false

namespace Criteria.Sorting

variable {α β : Type} {cmp : α → α → Ordering} {early : α → α → Prop} {x : α} {xs sorted : List α}

/-- On these elements the comparison is the same from both sides and transitive. -/
structure OrderedOn (cmp : α → α → Ordering) (xs : List α) : Prop where
  swap : ∀ {a b}, a ∈ xs → b ∈ xs → cmp b a = (cmp a b).swap
  trans : ∀ {a b c}, a ∈ xs → b ∈ xs → c ∈ xs → (cmp a b).isLE → (cmp b c).isLE → (cmp a c).isLE

namespace OrderedOn

variable {first second : α → α → Ordering}

theorem eq : OrderedOn (fun _ _ => .eq) xs where
  swap _ _ := rfl
  trans _ _ _ le _ := le

theorem antisymm {a b : α} (ordered : OrderedOn cmp xs) (inA : a ∈ xs) (inB : b ∈ xs)
    (le : (cmp a b).isLE) (ge : (cmp b a).isLE) : cmp a b = .eq := by
  rw [ordered.swap inA inB] at ge
  cases compared : cmp a b <;> simp [compared] at le ge ⊢

/-- One comparison, and a second one where the first has elements equal. -/
theorem lex (ordered : OrderedOn first xs) (ordered' : OrderedOn second xs) :
    OrderedOn (fun a b => (first a b).then (second a b)) xs where
  swap inA inB := by
    rw [ordered.swap inA inB, ordered'.swap inA inB, Ordering.swap_then]
  trans {a b c} inA inB inC le le' := by
    have parts {o o' : Ordering} (le : (o.then o').isLE) : o.isLE ∧ (o = .eq → o'.isLE) := by
      cases o <;> simp_all
    obtain ⟨low, rest⟩ := parts le
    obtain ⟨low', rest'⟩ := parts le'
    rw [Ordering.isLE_then_iff_or]
    rcases Ordering.isLE_iff_eq_lt_or_eq_eq.1 (ordered.trans inA inB inC low low') with less | same
    · exact .inl less
    · -- the outer elements are equal, and so is the one between them
      have back : (first c a).isLE := by simp [ordered.swap inA inC, same]
      have left : first a b = .eq :=
        ordered.antisymm inA inB low (ordered.trans inB inC inA low' back)
      have right : first b c = .eq :=
        ordered.antisymm inB inC low' (ordered.trans inC inA inB back low)
      exact .inr ⟨same, ordered'.trans inA inB inC (rest left) (rest' right)⟩

theorem of_map {f : β → α} {ys : List β} (ordered : OrderedOn cmp (ys.map f)) :
    OrderedOn (fun a b => cmp (f a) (f b)) ys where
  swap inA inB := ordered.swap (List.mem_map_of_mem inA) (List.mem_map_of_mem inB)
  trans inA inB inC := ordered.trans (List.mem_map_of_mem inA) (List.mem_map_of_mem inB)
    (List.mem_map_of_mem inC)

end OrderedOn

/-- The element comes first, or is equal and was there first. -/
def GoesBefore (cmp : α → α → Ordering) (early : α → α → Prop) (a b : α) : Prop :=
  cmp a b = .lt ∨ cmp a b = .eq ∧ early a b

theorem GoesBefore.isLE {a b : α} (before : GoesBefore cmp early a b) : (cmp a b).isLE := by
  rcases before with less | ⟨same, -⟩ <;> simp [*]

theorem goesBefore_of_isLE {a b : α} (le : (cmp a b).isLE) (first : early a b) :
    GoesBefore cmp early a b := by
  rcases Ordering.isLE_iff_eq_lt_or_eq_eq.1 le with less | same
  · exact .inl less
  · exact .inr ⟨same, first⟩

/-! ### Sorting what elements are made from -/

theorem insertBack_map (f : β → α) (y : β) (ys : List β) :
    insertBack cmp (f y) (ys.map f) = (insertBack (fun a b => cmp (f a) (f b)) y ys).map f := by
  induction ys with
  | nil => rfl
  | cons last earlier ih =>
    simp only [List.map_cons, insertBack, ih]
    split <;> rfl

theorem byInsertion_map (f : β → α) (ys : List β) :
    byInsertion cmp (ys.map f) = (byInsertion (fun a b => cmp (f a) (f b)) ys).map f := by
  suffices ∀ sorted, (ys.map f).foldl (fun sorted x => insertBack cmp x sorted) (sorted.map f) =
      (ys.foldl (fun sorted y => insertBack (fun a b => cmp (f a) (f b)) y sorted) sorted).map f by
    unfold byInsertion
    rw [List.map_reverse, ← this [], List.map_nil]
  induction ys with
  | nil => exact fun _ => rfl
  | cons y rest ih =>
    intro sorted
    rw [List.map_cons, List.foldl_cons, List.foldl_cons, insertBack_map, ih]

theorem sort_map (cmp : α → α → Ordering) (f : β → α) (ys : List β) :
    sort cmp (ys.map f) = (sort (fun a b => cmp (f a) (f b)) ys).map f := by
  unfold sort
  rw [List.length_map]
  split
  · exact byInsertion_map f ys
  · unfold byMerging
    exact (List.map_mergeSort (f := f) fun _ _ _ _ => rfl).symm

/-! ### Insertion -/

section
variable [Std.TransCmp cmp]

-- The last element stands first while the list is made, so the relation is turned round.
theorem pairwise_insertBack (pairs : sorted.Pairwise fun b a => GoesBefore cmp early a b)
    (placed : ∀ y ∈ sorted, early y x) :
    (insertBack cmp x sorted).Pairwise fun b a => GoesBefore cmp early a b := by
  induction sorted with
  | nil => exact List.pairwise_singleton _ x
  | cons last earlier ih =>
    obtain ⟨before, pairs⟩ := List.pairwise_cons.1 pairs
    obtain ⟨first, placed⟩ := List.forall_mem_cons.1 placed
    unfold insertBack
    split
    · next passes =>
      have less : cmp x last = .lt := by simpa using passes
      refine List.pairwise_cons.2 ⟨fun a member => ?_, ih pairs placed⟩
      rcases List.mem_cons.1 ((insertBack_perm cmp x earlier).mem_iff.1 member) with rfl | member
      · exact .inl less
      · exact before a member
    · next stays =>
      have turned : cmp last x = (cmp x last).swap := Std.OrientedCmp.eq_swap
      have le : (cmp last x).isLE := by
        rw [turned]
        cases compared : cmp x last <;> simp [compared] at stays ⊢
      refine List.pairwise_cons.2 ⟨?_, List.pairwise_cons.2 ⟨before, pairs⟩⟩
      refine List.forall_mem_cons.2 ⟨goesBefore_of_isLE le first, fun a member => ?_⟩
      exact goesBefore_of_isLE (Std.TransCmp.isLE_trans (before a member).isLE le) (placed a member)

theorem pairwise_byInsertion (placed : xs.Pairwise early) :
    (byInsertion cmp xs).Pairwise (GoesBefore cmp early) := by
  suffices ∀ sorted, (sorted.Pairwise fun b a => GoesBefore cmp early a b) →
      (∀ y ∈ sorted, ∀ x ∈ xs, early y x) →
      (xs.foldl (fun sorted x => insertBack cmp x sorted) sorted).Pairwise
        fun b a => GoesBefore cmp early a b from
    List.pairwise_reverse.2 (this [] .nil nofun)
  induction xs with
  | nil => exact fun _ pairs _ => pairs
  | cons x rest ih =>
    intro sorted pairs after
    obtain ⟨before, placed⟩ := List.pairwise_cons.1 placed
    refine ih placed _ (pairwise_insertBack pairs fun y member => ?_) fun y member z later => ?_
    · exact after y member x List.mem_cons_self
    · rcases List.mem_cons.1 ((insertBack_perm cmp x sorted).mem_iff.1 member) with rfl | member
      · exact before z later
      · exact after y member z (List.mem_cons_of_mem x later)

end

/-! ### Places -/

/-- Elements with their places, in order: by the comparison, and where that has them equal by their
places. -/
abbrev InOrder (cmp : α → α → Ordering) (placed : List (α × Nat)) : Prop :=
  placed.Pairwise (GoesBefore (fun a b => cmp a.1 b.1) fun a b => a.2 < b.2)

theorem pairwise_zipIdx (xs : List α) : xs.zipIdx.Pairwise fun a b => a.2 < b.2 := by
  have places := List.pairwise_lt_range' (s := 0) (n := xs.length)
  rwa [← List.zipIdx_map_snd, List.pairwise_map] at places

section
variable [Std.TransCmp cmp]

theorem exists_placed_byInsertion (xs : List α) : ∃ placed : List (α × Nat),
    placed.Perm xs.zipIdx ∧ InOrder cmp placed ∧ placed.map Prod.fst = byInsertion cmp xs := by
  have order : Std.TransCmp fun a b : α × Nat => cmp a.1 b.1 :=
    { eq_swap := Std.OrientedCmp.eq_swap, isLE_trans := Std.TransCmp.isLE_trans }
  refine ⟨byInsertion (fun a b => cmp a.1 b.1) xs.zipIdx, byInsertion_perm _ _,
    pairwise_byInsertion (pairwise_zipIdx xs), ?_⟩
  rw [← byInsertion_map, List.zipIdx_map_fst]

theorem goesBefore_of_zipIdxLE {a b : α × Nat} (apart : a.2 ≠ b.2)
    (le : List.zipIdxLE (fun a b => (cmp a b).isLE) a b) :
    GoesBefore (fun a b => cmp a.1 b.1) (fun a b => a.2 < b.2) a b := by
  have turned : cmp b.1 a.1 = (cmp a.1 b.1).swap := Std.OrientedCmp.eq_swap
  simp only [List.zipIdxLE, turned] at le
  unfold GoesBefore
  cases compared : cmp a.1 b.1 <;> simp [compared] at le ⊢
  omega

theorem exists_placed_byMerging (xs : List α) : ∃ placed : List (α × Nat),
    placed.Perm xs.zipIdx ∧ InOrder cmp placed ∧ placed.map Prod.fst = byMerging cmp xs := by
  have total : ∀ a b, ((cmp a b).isLE || (cmp b a).isLE) = true := by
    intro a b
    have turned : cmp b a = (cmp a b).swap := Std.OrientedCmp.eq_swap
    rw [turned]
    cases cmp a b <;> rfl
  let le := List.zipIdxLE fun a b => (cmp a b).isLE
  have perm : (xs.zipIdx.mergeSort le).Perm xs.zipIdx := List.mergeSort_perm _ _
  have distinct : (xs.zipIdx.mergeSort le).Pairwise fun a b => a.2 ≠ b.2 :=
    (perm.pairwise_iff Ne.symm).2 ((pairwise_zipIdx xs).imp Nat.ne_of_lt)
  have pairs := List.pairwise_mergeSort
    (List.zipIdxLE_trans fun a b c => Std.TransCmp.isLE_trans) (List.zipIdxLE_total total) xs.zipIdx
  refine ⟨xs.zipIdx.mergeSort le, perm, ?_, List.mergeSort_zipIdx⟩
  exact (pairs.and distinct).imp fun ⟨le, apart⟩ => goesBefore_of_zipIdxLE apart le

end

/-- What sorting gives, whichever way it goes: the elements with the places that they had, in order. -/
theorem OrderedOn.exists_placed (ordered : OrderedOn cmp xs) : ∃ placed : List (α × Nat),
    placed.Perm xs.zipIdx ∧ InOrder cmp placed ∧ placed.map Prod.fst = sort cmp xs := by
  let within (a b : { x // x ∈ xs }) := cmp a.1 b.1
  have order : Std.TransCmp within :=
    { eq_swap := fun {a b} => ordered.swap b.2 a.2
      isLE_trans := fun {a b c} => ordered.trans a.2 b.2 c.2 }
  obtain ⟨placed, perm, pairs, same⟩ : ∃ placed : List ({ x // x ∈ xs } × Nat),
      placed.Perm xs.attach.zipIdx ∧ InOrder within placed ∧
        placed.map Prod.fst = sort within xs.attach := by
    unfold sort
    split
    · exact exists_placed_byInsertion xs.attach
    · exact exists_placed_byMerging xs.attach
  refine ⟨placed.map (Prod.map Subtype.val id), ?_, ?_, ?_⟩
  · have whole := perm.map (Prod.map Subtype.val id)
    rwa [List.map_zipIdx, List.attach_map_subtype_val] at whole
  · exact List.pairwise_map.2 pairs
  · have whole : sort cmp (xs.attach.map Subtype.val) =
        (sort within xs.attach).map Subtype.val := sort_map cmp Subtype.val xs.attach
    rw [List.attach_map_subtype_val] at whole
    calc (placed.map (Prod.map Subtype.val id)).map Prod.fst
      _ = (placed.map Prod.fst).map Subtype.val := by simp
      _ = sort cmp xs := by rw [same, whole]

/-- Where all elements are equal, nothing moves. -/
theorem sort_eq_self (xs : List α) : sort (fun _ _ => .eq) xs = xs := by
  have level : OrderedOn (fun _ _ : α => Ordering.eq) xs := .eq
  obtain ⟨placed, perm, pairs, same⟩ := level.exists_placed
  have ascending : placed.Pairwise fun a b => a.2 < b.2 := pairs.imp fun
    | .inl less => nomatch less
    | .inr tied => tied.2
  have whole : placed = xs.zipIdx := perm.eq_of_pairwise
    (fun _ _ _ _ less less' => absurd less (Nat.lt_asymm less')) ascending (pairwise_zipIdx xs)
  rw [← same, whole, List.zipIdx_map_fst]

end Criteria.Sorting
