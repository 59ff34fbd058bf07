import Criteria.Proofs.Condition.Reading
import Mathlib.Data.List.Induction

/-!
Tuples: for each clause of a query one row under the alias of the clause, or
none where a LEFT JOIN has found none. They are what bindings are made from, in
the order of the clauses.
-/

set_option autoImplicit false

namespace Criteria

theorem Dictionary.find?_ofList {α : Type} {entries : List (String × α)}
    (distinct : (entries.map Prod.fst).Nodup) (name : String) :
    Dictionary.find? (Dictionary.ofList entries) name = Dictionary.find? entries name := by
  -- the entry that is inserted last is the last one of the list
  induction entries using List.reverseRecOn with
  | nil => rfl
  | append_singleton front last ih =>
    obtain ⟨other, value⟩ := last
    rw [List.map_append, List.nodup_append] at distinct
    obtain ⟨inFront, -, apart⟩ := distinct
    have grown : Dictionary.ofList (front ++ [(other, value)]) =
        (Dictionary.ofList front).insert other value := by
      simp [Dictionary.ofList, List.foldl_append]
    have split : Dictionary.find? (front ++ [(other, value)]) name =
        (Dictionary.find? front name).or (if name = other then some value else none) :=
      List.lookup_append.trans (congrArg _ (Dictionary.find?_cons name other value []))
    rw [grown, Dictionary.find?_insert, ih inFront, split]
    by_cases same : name = other
    · have absent : Dictionary.find? front name = none := by
        refine List.lookup_eq_none_iff.2 fun entry member => bne_iff_ne.2 ?_
        exact same ▸ (apart entry.1 (List.mem_map_of_mem member) other (by simp)).symm
      rw [absent, Option.none_or]
    · rw [if_neg same, if_neg same, Option.or_none]

theorem Dictionary.find?_map {α β : Type} (f : α → β) (entries : List (String × α))
    (name : String) : Dictionary.find? (entries.map fun entry => (entry.1, f entry.2)) name =
      (Dictionary.find? entries name).map f := by
  induction entries with
  | nil => rfl
  | cons entry rest ih =>
    rw [List.map_cons, Dictionary.find?_cons, ih, ← Prod.eta entry, Dictionary.find?_cons]
    split <;> rfl

abbrev Tuple := List (String × Option Json)

/-- A clause as the alternatives that it has for its alias. -/
abbrev Clause := String × List (Option Json)

/-- The condition refers to no other aliases than these, and to no parameter without a value. -/
structure Condition.IsAbout (names : List String) (ps : Parameters) (c : Condition) : Prop where
  fields : ∀ ref ∈ c.fieldRefs, ref.aliasName ∈ names
  parameters : ∀ name ∈ c.parameterNames, name ∈ ps.names

namespace Tuple

variable {t : Tuple} {name : String} {ps : Parameters} {c : Condition}

def names (t : Tuple) : List String :=
  t.map Prod.fst

/-- The row under an alias, null if there is none. -/
def row (t : Tuple) (name : String) : Json :=
  ((t.lookup name).getD none).getD .null

def value (t : Tuple) (ps : Parameters) : Operand → Json
  | .field ref => ((t.row ref.aliasName).get? ref.field).getD .null
  | .parameter name => ((ps.get? name).map Literal.value).getD .null

def binding (t : Tuple) : Binding :=
  Dictionary.ofList (t.map fun component => (component.1, component.2.getD .null))

theorem binding_append (t : Tuple) (name : String) (row : Option Json) :
    binding (t ++ [(name, row)]) = Dictionary.insert name (row.getD .null) t.binding := by
  simp [binding, Dictionary.ofList, List.foldl_append]

theorem row_binding (distinct : t.names.Nodup) (bound : name ∈ t.names) :
    t.binding.row name = .ok (t.row name) := by
  obtain ⟨component, member, rfl⟩ := List.mem_map.1 bound
  have present : (t.lookup component.1).isSome := by
    rw [List.lookup_isSome_iff]
    exact ⟨component, member, beq_self_eq_true _⟩
  obtain ⟨row, known⟩ := Option.isSome_iff_exists.1 present
  have entries : (t.map fun component => (component.1, component.2.getD .null)).map Prod.fst =
      t.names := by
    simp [names, Function.comp_def]
  have entry : Dictionary.find? t.binding component.1 = some (row.getD .null) := by
    unfold binding
    rw [Dictionary.find?_ofList (entries ▸ distinct), Dictionary.find?_map (Option.getD · .null) t]
    exact congrArg (Option.map (Option.getD · .null)) known
  simp [Binding.row, entry, Tuple.row, known]

theorem evaluate_operand {operand : Operand} (distinct : t.names.Nodup)
    (fields : ∀ ref, operand.field? = some ref → ref.aliasName ∈ t.names)
    (parameters : ∀ name, operand.parameter? = some name → name ∈ ps.names) :
    operand.evaluate t.binding ps = .ok (t.value ps operand) := by
  cases operand with
  | field ref =>
    simp only [Operand.evaluate, Binding.field, row_binding distinct (fields ref rfl)]
    rfl
  | parameter name =>
    cases known : ps.get? name with
    | none => exact absurd (parameters name rfl) (Parameters.get?_eq_none_iff.1 known)
    | some literal => simp [Operand.evaluate, value, known]

theorem evaluate_eq (distinct : t.names.Nodup) (about : c.IsAbout t.names ps) :
    c.evaluate t.binding ps = .ok (c.reading (t.value ps)) := by
  apply Condition.evaluate_eq_reading
  intro operand member
  apply evaluate_operand distinct
  · exact fun ref known => about.fields ref (List.mem_filterMap.2 ⟨operand, member, known⟩)
  · exact fun name known => about.parameters name (List.mem_filterMap.2 ⟨operand, member, known⟩)

/-! ### Products -/

/-- The tuples with one of the alternatives of each clause, in lexicographic order of the positions
of the alternatives. -/
def product : List Clause → List Tuple
  | [] => [[]]
  | (name, alternatives) :: rest =>
    alternatives.flatMap fun row => (product rest).map fun t => (name, row) :: t

theorem names_of_mem_product {clauses : List Clause}
    (member : t ∈ product clauses) : t.names = clauses.map Prod.fst := by
  induction clauses generalizing t with
  | nil =>
    obtain rfl := List.mem_singleton.1 member
    rfl
  | cons clause rest ih =>
    obtain ⟨row, -, chosen⟩ := List.mem_flatMap.1 member
    obtain ⟨tail, inside, rfl⟩ := List.mem_map.1 chosen
    exact congrArg (clause.1 :: ·) (ih inside)

/-- The alternatives of the last clause are the first to change. -/
example : (product [("o", [some .null, none]), ("u", [some .null, none])]).map
    (List.map fun component => component.2.isSome) =
      [[true, true], [true, false], [false, true], [false, false]] := rfl

/-- Each tuple followed by each of those that the further clauses have. -/
def extend (ts : List Tuple) (clauses : List Clause) : List Tuple :=
  ts.flatMap fun t => (product clauses).map (t ++ ·)

variable {ts : List Tuple} {clauses : List Clause}

theorem extend_nil (ts : List Tuple) : extend ts [] = ts := by
  simp [extend, product]

theorem extend_cons (ts : List Tuple) (clause : Clause) (clauses : List Clause) :
    extend ts (clause :: clauses) =
      extend (ts.flatMap fun t => clause.2.map fun row => t ++ [(clause.1, row)]) clauses := by
  unfold extend
  rw [List.flatMap_assoc]
  congr 1
  funext t
  simp [product, List.map_flatMap, List.flatMap_map, Function.comp_def]

theorem extend_start (clauses : List Clause) :
    extend [[]] clauses = product clauses := by
  simp [extend]

theorem extend_product (first clauses : List Clause) :
    extend (product first) clauses = product (first ++ clauses) := by
  induction first with
  | nil => exact extend_start clauses
  | cons clause rest ih =>
    unfold extend at ih ⊢
    simp only [product, List.cons_append, List.flatMap_assoc, ← ih, List.map_flatMap,
      List.flatMap_map, List.map_map]
    rfl

/-- What is decided by the tuples may be decided before they are extended. -/
theorem filter_extend {keep : Tuple → Bool} (early : ∀ t ∈ ts, ∀ more, keep (t ++ more) = keep t) :
    (extend ts clauses).filter keep = extend (ts.filter keep) clauses := by
  induction ts with
  | nil => rfl
  | cons t rest ih =>
    have tail := ih fun other member => early other (by simp [member])
    have same : (fun more => keep (t ++ more)) = fun _ => keep t := by
      funext more
      exact early t (by simp) more
    simp only [extend, List.flatMap_cons, List.filter_append] at tail ⊢
    rw [tail, List.filter_map, Function.comp_def, same]
    cases decided : keep t <;> simp [decided]

end Tuple

end Criteria
