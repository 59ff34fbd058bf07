import Criteria.Proofs.Condition.Evaluation
import Criteria.Proofs.Context.Call
import Criteria.Proofs.Translation.Frame

/-!
Translation preserves meaning. Where the aliases of its entities are bound to
rows, the condition of a specification has the value of the tree judged on these
rows, with the parameters that the translation leaves and with all later ones in
which the names of the condition have not been assigned anew.
-/

set_option autoImplicit false

namespace Criteria

variable {Leaf Object : Type} {binding : Binding} {ps : Parameters} {rowOf : EntityType → Json}
  {ctx after : Context}

theorem FieldCompare.holdsOn_eq (c : FieldCompare) (row : Json) :
    c.holdsOn row = c.op.holds (((row.get? c.field).getD .null).compare? c.value.value) := by
  unfold holdsOn
  cases row.get? c.field <;> rfl

/-- The rows that a binding has for the entities of some comparisons, by the aliases of a
context. -/
def Binding.Holds (binding : Binding) (ctx : Context) (rowOf : EntityType → Json)
    (cs : List FieldCompare) : Prop :=
  ∀ c ∈ cs, ∀ name, ctx.alias? c.entity = some name →
    Dictionary.find? binding name = some (rowOf c.entity)

theorem Context.evaluate_comparison {c : FieldCompare}
    (bound : Dictionary.find? binding (ctx.aliasFor c.entity).1 = some (rowOf c.entity))
    (known : ps.get? (ctx.query.parameters.freshName c.field) = some c.value) :
    (ctx.comparison c).evaluate binding ps = .ok (c.holdsOn (rowOf c.entity)) := by
  simp only [Context.comparison, Condition.evaluate, Operand.evaluate, Binding.field, Binding.row,
    bound, known]
  rw [FieldCompare.holdsOn_eq]
  rfl

namespace Binding.Holds

variable {cs more : List FieldCompare}

theorem left (bound : binding.Holds ctx rowOf (cs ++ more)) : binding.Holds ctx rowOf cs :=
  fun c member => bound c (List.mem_append_left _ member)

theorem right (bound : binding.Holds ctx rowOf (cs ++ more)) : binding.Holds ctx rowOf more :=
  fun c member => bound c (List.mem_append_right _ member)

theorem before (bound : binding.Holds after rowOf cs) (grown : ctx.Extends after) :
    binding.Holds ctx rowOf cs :=
  fun c member name known => bound c member name (grown.alias?_eq known)

end Binding.Holds

/-- Every condition has the value of its specification, whatever the translations beside it have
added to the context. -/
theorem Translates.evaluates {specs : List (Spec Leaf)} {conditions : List Condition}
    (derivation : Translates ctx specs conditions after)
    (bound : binding.Holds after rowOf (specs.flatMap Spec.comparisons))
    (kept : Parameters.KeptOn (conditions.flatMap Condition.parameterNames)
      after.query.parameters ps) (other : Leaf → Bool) :
    List.Forall₂ (fun c value => c.evaluate binding ps = .ok value) conditions
      (specs.map (Spec.judge (fun c => c.holdsOn (rowOf c.entity)) other)) := by
  -- What the siblings to the right add comes after what is there: an alias that was found stays
  -- the alias of its entity, and a name that was fresh keeps the value that it was bound to.
  induction derivation with
  | nil => exact .nil
  | always _ ih => exact .cons rfl (ih bound kept)
  | @field ctx c rest conditions after derivation ih =>
    simp only [List.flatMap_cons, Spec.comparisons_field, ctx.parameterNames_comparison]
      at bound kept
    have grown := derivation.extends_context
    have known := grown.alias?_eq (ctx.alias?_addComparison c)
    have value := grown.keptOn _ _ (List.mem_singleton_self _) _ (ctx.get?_addComparison c)
    refine .cons (Context.evaluate_comparison ?_ ?_) (ih bound.right kept.right)
    · exact bound c (by simp) _ known
    · exact kept _ (by simp) _ value
  | not _ rest ihInner ih =>
    simp only [List.flatMap_cons, Spec.comparisons_not, Condition.parameterNames_not] at bound kept
    have grown := rest.extends_context
    have inner := ihInner (by simpa using bound.left.before grown)
      (by simpa using (grown.keptOn _).trans kept.left)
    refine .cons ?_ (ih bound.right kept.right)
    simp only [List.map_cons, List.map_nil, List.forall₂_cons] at inner
    simp only [Condition.evaluate, inner.1, ok_bind, Spec.judge]
    rfl
  | all _ rest ihInner ih =>
    rw [List.flatMap_cons, Spec.comparisons_allOf] at bound
    rw [List.flatMap_cons, Condition.parameterNames_all] at kept
    have grown := rest.extends_context
    have inner := ihInner (bound.left.before grown) ((grown.keptOn _).trans kept.left)
    refine .cons ?_ (ih bound.right kept.right)
    rw [Condition.evaluate, Condition.evaluateAll_eq inner, Spec.judge_allOf, List.all_map]
    rfl
  | any _ rest ihInner ih =>
    rw [List.flatMap_cons, Spec.comparisons_anyOf] at bound
    rw [List.flatMap_cons, Condition.parameterNames_any] at kept
    have grown := rest.extends_context
    have inner := ihInner (bound.left.before grown) ((grown.keptOn _).trans kept.left)
    refine .cons ?_ (ih bound.right kept.right)
    rw [Condition.evaluate, Condition.evaluateAny_eq inner, Spec.judge_anyOf, List.any_map]
    rfl

namespace Registry

variable [SpecLeaf Leaf Object] {reg : Registry Leaf} {spec : Spec Leaf} {names : List String}
  {calls : List (Call Leaf)}

/-- A call that assigns to none of the names, and that translates with the standard handlers. -/
def Spares (reg : Registry Leaf) (names : List String) : Call Leaf → Prop
  | .assignParameter name _ => name ∉ names
  | .translate spec | .matchSpec spec => reg.StandardOn spec
  | _ => True

theorem keptOn_matchSpec (standard : reg.StandardOn spec) (ctx : Context) :
    Parameters.KeptOn names ctx.query.parameters (reg.matchSpec spec ctx).2.query.parameters := by
  have grown := grows_translate standard ctx
  cases ran : reg.translate spec ctx with
  | mk outcome after =>
    rw [ran] at grown
    cases outcome with
    | ok condition =>
      rw [matchSpec_of_ok ran]
      exact grown.keptOn names
    | error e =>
      rw [matchSpec_of_error ran]
      exact .refl names _

theorem keptOn_answer {call : Call Leaf} (spared : reg.Spares names call) (ctx : Context) :
    Parameters.KeptOn names ctx.query.parameters (reg.answer ctx call).2.query.parameters := by
  -- only an assignment can change a value that is there, and those to the names are ruled out
  cases call with
  | aliasFor entity | fieldOf entity => exact (Context.extends_aliasFor ctx entity).keptOn names
  | bindParameter hint value => exact (Context.extends_bindParameter ctx hint value).keptOn names
  | assignParameter name value => exact .assign spared value
  | translate spec => exact (grows_translate spared ctx).keptOn names
  | matchSpec spec => exact keptOn_matchSpec spared ctx
  | addJoin join =>
    simp only [answer, Registries.answer, Context.addJoin]
    split <;> exact .refl names _
  | query | select | addSelect | addRoot | andWhere | orderBy => exact .refl names _

theorem keptOn_run (spared : ∀ call ∈ calls, reg.Spares names call) (ctx : Context) :
    Parameters.KeptOn names ctx.query.parameters (reg.run ctx calls).2.query.parameters := by
  induction calls generalizing ctx with
  | nil => exact .refl names _
  | cons call rest ih =>
    have early := keptOn_answer (spared call (by simp)) ctx
    exact early.trans (ih (fun other member => spared other (by simp [member])) _)

theorem evaluate_translated {c : Condition} (standard : reg.StandardOn spec)
    (translated : reg.translate spec ctx = (.ok c, after))
    (bound : binding.Holds after rowOf spec.comparisons)
    (kept : Parameters.KeptOn c.parameterNames after.query.parameters ps) (other : Leaf → Bool) :
    c.evaluate binding ps =
      .ok (spec.judge (fun leaf => leaf.holdsOn (rowOf leaf.entity)) other) := by
  have derivation := translates_of_translate standard translated
  have values := derivation.evaluates (by simpa using bound) (by simpa using kept) other
  simpa using values

/-- Where the entities of a specification are bound under the aliases that the context then has
for them, its condition holds exactly when the tree does, each comparison judged on the row of
its entity. It stays so while further calls spare the names of the condition. -/
theorem evaluate_translate {c : Condition} (standard : reg.StandardOn spec)
    (translated : reg.translate spec ctx = (.ok c, after))
    (bound : ∀ leaf ∈ spec.comparisons,
      Dictionary.find? binding (after.aliasFor leaf.entity).1 = some (rowOf leaf.entity))
    (other : Leaf → Bool) (spared : ∀ call ∈ calls, reg.Spares c.parameterNames call) :
    c.evaluate binding (reg.run after calls).2.query.parameters =
      .ok (spec.judge (fun leaf => leaf.holdsOn (rowOf leaf.entity)) other) := by
  have holds : binding.Holds after rowOf spec.comparisons := by
    intro leaf member name known
    have found := bound leaf member
    rwa [Context.aliasFor_of_alias? known] at found
  exact evaluate_translated standard translated holds (keptOn_run spared after) other

def manyItems : FieldCompare :=
  ⟨⟨"app.Order"⟩, "items", .greater, .int 10, by decide⟩

def namedAda : FieldCompare :=
  ⟨⟨"app.User"⟩, "name", .equal, .text "Ada", by decide⟩

/-- Orders of more than ten items that are not Ada's. -/
def largeOrdersOfOthers : Spec Marker :=
  .allOf (.field manyItems) [.not (.field namedAda)]

/-- Orders, and a parameter with the name that the second one of the specification would have. -/
def openedOrders : Context :=
  (({} : Context).addRoot ⟨"app.Order"⟩ "o").assignParameter "name_1" (.text "Ada")

/-- The user gets an alias of its own, and its name a parameter after the one that was there. The
calls afterwards try to take both from it. -/
theorem evaluate_translate_largeOrdersOfOthers :
    Condition.evaluate
      [("o", .record [("items", .number (.int 12))]), ("user0", .record [("name", .text "Bob")])]
      (standard.run (standard.translate largeOrdersOfOthers openedOrders).2
        [.bindParameter "name" .null, .matchSpec (.not (.leaf ⟨"unknown"⟩)),
          .matchSpec largeOrdersOfOthers, .assignParameter "name_1" .null]).2.query.parameters
      (.all [.compare (.field ⟨"o", "items"⟩) .greater (.parameter "items_1"),
        .not (.compare (.field ⟨"user0", "name"⟩) .equal (.parameter "name_2"))]) = .ok true := by
  let rowOf : EntityType → Json := fun entity =>
    if entity = ⟨"app.Order"⟩ then .record [("items", .number (.int 12))]
    else .record [("name", .text "Bob")]
  have translated : standard.translate largeOrdersOfOthers openedOrders =
      (.ok (.all [.compare (.field ⟨"o", "items"⟩) .greater (.parameter "items_1"),
        .not (.compare (.field ⟨"user0", "name"⟩) .equal (.parameter "name_2"))]),
        (standard.translate largeOrdersOfOthers openedOrders).2) := Prod.ext (Eq.refl _) (Eq.refl _)
  have unused : "name_1" ∉ ["items_1", "name_2"] := by decide +kernel
  have value : largeOrdersOfOthers.judge (fun leaf => leaf.holdsOn (rowOf leaf.entity))
      (fun _ => false) = true := by decide +kernel
  rw [← value]
  refine evaluate_translate (standardOn_standard _) translated ?_ _ ?_
  · intro leaf member
    have either : leaf = manyItems ∨ leaf = namedAda := by simpa [largeOrdersOfOthers] using member
    rcases either with rfl | rfl <;> rfl
  · simp only [List.forall_mem_cons]
    exact ⟨trivial, standardOn_standard _, standardOn_standard _, unused, fun _ => nofun⟩

end Registry

end Criteria
