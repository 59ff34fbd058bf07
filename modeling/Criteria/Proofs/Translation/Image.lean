import Criteria.Proofs.Condition.Evaluation
import Criteria.Proofs.Context.Call
import Criteria.Proofs.Translation.Frame

/-!
The image of a specification: the condition of the same shape, with the field
comparisons numbered from left to right. As long as nothing but matches adds to
the filter and the parameters, the numbers go on from one match to the next,
and a match that fails takes none.
-/

set_option autoImplicit false

namespace Criteria

/-- The values of field comparisons in order, each under its field and its position. -/
def numbered (cs : List FieldCompare) : List (String × Literal) :=
  cs.mapIdx fun k c => (c.field ++ "_" ++ toString k, c.value)

namespace Spec

variable {Leaf : Type}

mutual
/-- The same tree as a condition. Its comparisons are numbered from `k` on, and the leaves of the
user's have the conditions that are given for them. -/
def image (aliasOf : EntityType → String) (other : Leaf → Condition) (k : Nat) :
    Spec Leaf → Condition
  | .allOf first rest =>
    .all (first.image aliasOf other k ::
      imageEach aliasOf other (k + first.comparisons.length) rest)
  | .anyOf first rest =>
    .any (first.image aliasOf other k ::
      imageEach aliasOf other (k + first.comparisons.length) rest)
  | .not child => .not (child.image aliasOf other k)
  | .any => .always
  | .field c =>
    .compare (.field ⟨aliasOf c.entity, c.field⟩) c.op (.parameter (c.field ++ "_" ++ toString k))
  | .leaf criterion => other criterion

def imageEach (aliasOf : EntityType → String) (other : Leaf → Condition) (k : Nat) :
    List (Spec Leaf) → List Condition
  | [] => []
  | spec :: rest =>
    spec.image aliasOf other k :: imageEach aliasOf other (k + spec.comparisons.length) rest
end

end Spec

/-! ### Numbers of parameters -/

theorem numbered_append (cs more : List FieldCompare) :
    numbered (cs ++ more) =
      numbered cs ++ more.mapIdx fun k c => (c.field ++ "_" ++ toString (k + cs.length), c.value) :=
  List.mapIdx_append

variable {ctx mid after : Context} {cs : List FieldCompare}

/-- The names of numbered parameters end in smaller numbers, so the next one is not among them,
whatever the fields are. -/
theorem Parameters.freshName_of_numbered {ps : Parameters} (entries : ps.entries = numbered cs)
    (c : FieldCompare) : ps.freshName c.field = c.field ++ "_" ++ toString cs.length := by
  have size : ps.size = cs.length := by simp [Parameters.size, entries, numbered]
  have named : ∀ n, numberedName c.field n = c.field ++ "_" ++ toString n := by
    simp [numberedName, stem_of_isIdentifier c.isIdentifier_field]
  have free : numberedName c.field ps.size ∉ ps.names := by
    intro taken
    simp only [Parameters.names, entries, numbered, List.mem_map, List.mem_mapIdx] at taken
    obtain ⟨entry, ⟨k, bound, rfl⟩, same⟩ := taken
    have number : numberedName (cs[k]).field k = numberedName c.field ps.size := by
      rw [← same, numberedName, stem_of_isIdentifier (cs[k]).isIdentifier_field]
    have position := number_eq_of_numberedName number
    omega
  rw [freshName, firstFree_eq_start free, named, size]

namespace Context

theorem entries_addComparison (entries : ctx.query.parameters.entries = numbered cs)
    (c : FieldCompare) :
    (ctx.addComparison c).query.parameters.entries = numbered (cs ++ [c]) := by
  simp only [addComparison, bindParameter, Parameters.bind, parameters_aliasFor, entries,
    Parameters.freshName_of_numbered entries, numbered_append]
  simp

theorem entries_addComparisons (entries : ctx.query.parameters.entries = numbered cs)
    (more : List FieldCompare) :
    (ctx.addComparisons more).query.parameters.entries = numbered (cs ++ more) := by
  induction more generalizing ctx cs with
  | nil => simpa [addComparisons] using entries
  | cons c rest ih => simpa [addComparisons] using ih (entries_addComparison entries c)

end Context

namespace Translates

variable {Leaf : Type} {specs : List (Spec Leaf)} {conditions : List Condition}

theorem entries_eq (derivation : Translates ctx specs conditions after)
    (entries : ctx.query.parameters.entries = numbered cs) :
    after.query.parameters.entries = numbered (cs ++ specs.flatMap Spec.comparisons) :=
  derivation.context_eq ▸ Context.entries_addComparisons entries _

/-- The names of the conditions are those of the comparisons, from left to right. -/
theorem parameterNames_eq (derivation : Translates ctx specs conditions after)
    (entries : ctx.query.parameters.entries = numbered cs) :
    (numbered cs).map Prod.fst ++ conditions.flatMap Condition.parameterNames =
      (numbered (cs ++ specs.flatMap Spec.comparisons)).map Prod.fst := by
  induction derivation generalizing cs with
  | nil => simp
  | always _ ih => exact ih entries
  | @field ctx c rest conditions after _ ih =>
    have further := ih (Context.entries_addComparison entries c)
    rw [List.flatMap_cons, List.flatMap_cons, Spec.comparisons_field, ← List.append_assoc cs,
      ← further, numbered_append, ctx.parameterNames_comparison,
      Parameters.freshName_of_numbered entries]
    simp
  | not inner _ ihInner ih =>
    have further := ih (inner.entries_eq entries)
    rw [← ihInner entries] at further
    simpa [Condition.parameterNames_not] using further
  | all inner _ ihInner ih =>
    have further := ih (inner.entries_eq entries)
    rw [← ihInner entries] at further
    simpa [Condition.parameterNames_all] using further
  | any inner _ ihInner ih =>
    have further := ih (inner.entries_eq entries)
    rw [← ihInner entries] at further
    simpa [Condition.parameterNames_any] using further

/-- Where the context that is left names the entities, the conditions are the images. -/
theorem eq_imageEach {aliasOf : EntityType → String} {other : Leaf → Condition}
    (derivation : Translates ctx specs conditions after)
    (entries : ctx.query.parameters.entries = numbered cs)
    (named : ∀ entity name, after.alias? entity = some name → aliasOf entity = name) :
    conditions = Spec.imageEach aliasOf other cs.length specs := by
  -- an alias that a comparison has found stays the alias of its entity to the end
  induction derivation generalizing cs with
  | nil => rfl
  | always _ ih => simp [Spec.imageEach, Spec.image, ← ih entries named]
  | @field ctx c rest conditions after derivation ih =>
    have known := derivation.extends_context.alias?_eq (ctx.alias?_addComparison c)
    have tail := ih (Context.entries_addComparison entries c) named
    simp only [List.length_append, List.length_singleton] at tail
    simp [Spec.imageEach, Spec.image, Context.comparison, named _ _ known,
      Parameters.freshName_of_numbered entries, tail]
  | not inner outer ihInner ih =>
    have part := ihInner entries fun entity name known =>
      named entity name (outer.extends_context.alias?_eq known)
    have tail := ih (inner.entries_eq entries) named
    simp only [Spec.imageEach, List.cons.injEq, and_true] at part
    simp [Spec.imageEach, Spec.image, part, tail]
  | all inner outer ihInner ih | any inner outer ihInner ih =>
    have parts := ihInner entries fun entity name known =>
      named entity name (outer.extends_context.alias?_eq known)
    have tail := ih (inner.entries_eq entries) named
    simp only [Spec.imageEach] at parts
    simp [Spec.imageEach, Spec.image, parts, tail]

end Translates

end Criteria
