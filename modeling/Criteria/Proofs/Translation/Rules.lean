import Criteria.Proofs.Context.Growth
import Criteria.Proofs.Spec.Tree
import Criteria.Proofs.Translation.Steps

/-!
The rules by which the standard handlers translate. They are stated for rows of
specifications, each translated in the context that the ones before it leave, so
that a group is the row of its children.
-/

set_option autoImplicit false

namespace Criteria

/-- The condition of a field comparison that is added to the context. -/
def Context.comparison (ctx : Context) (c : FieldCompare) : Condition :=
  .compare (.field ⟨(ctx.aliasFor c.entity).1, c.field⟩) c.op
    (.parameter (ctx.query.parameters.freshName c.field))

theorem Context.parameterNames_comparison (ctx : Context) (c : FieldCompare) :
    (ctx.comparison c).parameterNames = [ctx.query.parameters.freshName c.field] := rfl

/-- The name is that of the binding itself, since deriving the alias leaves the parameters alone. -/
theorem Context.comparison_eq (ctx : Context) (c : FieldCompare) :
    ctx.comparison c = .compare (.field ⟨(ctx.aliasFor c.entity).1, c.field⟩) c.op
      (.parameter ((ctx.aliasFor c.entity).2.bindParameter c.field c.value).1) := by
  unfold comparison bindParameter Parameters.bind
  rw [parameters_aliasFor]

-- A group is translated as the row of its children, and `rest` stands for what follows it among its
-- own siblings: the aliases and parameters of the group are there before theirs.
inductive Translates {Leaf : Type} :
    Context → List (Spec Leaf) → List Condition → Context → Prop where
  | nil {ctx} : Translates ctx [] [] ctx
  | always {ctx rest conditions after} :
    Translates ctx rest conditions after →
    Translates ctx (.any :: rest) (.always :: conditions) after
  | field {ctx c rest conditions after} :
    Translates (ctx.addComparison c) rest conditions after →
    Translates ctx (.field c :: rest) (ctx.comparison c :: conditions) after
  | not {ctx child part mid rest conditions after} :
    Translates ctx [child] [part] mid → Translates mid rest conditions after →
    Translates ctx (.not child :: rest) (.not part :: conditions) after
  | all {ctx first children parts mid rest conditions after} :
    Translates ctx (first :: children) parts mid → Translates mid rest conditions after →
    Translates ctx (.allOf first children :: rest) (.all parts :: conditions) after
  | any {ctx first children parts mid rest conditions after} :
    Translates ctx (first :: children) parts mid → Translates mid rest conditions after →
    Translates ctx (.anyOf first children :: rest) (.any parts :: conditions) after

namespace Translates

variable {Leaf : Type} {ctx mid after : Context} {specs others : List (Spec Leaf)}
  {conditions further : List Condition}

theorem append (first : Translates ctx specs conditions mid)
    (second : Translates mid others further after) :
    Translates ctx (specs ++ others) (conditions ++ further) after := by
  induction first with
  | nil => exact second
  | always _ ih => exact .always (ih second)
  | field _ ih => exact .field (ih second)
  | not child _ _ ih => exact .not child (ih second)
  | all children _ _ ih => exact .all children (ih second)
  | any children _ _ ih => exact .any children (ih second)

/-- A translation adds the field comparisons of the trees, from left to right, and nothing else. -/
theorem context_eq (derivation : Translates ctx specs conditions after) :
    after = ctx.addComparisons (specs.flatMap Spec.comparisons) := by
  induction derivation with
  | nil => rfl
  | always _ ih => exact ih
  | field _ ih => exact ih
  | not _ _ inner ih | all _ _ inner ih | any _ _ inner ih =>
    rw [ih, inner, ← Context.addComparisons_append]
    simp

theorem extends_context (derivation : Translates ctx specs conditions after) :
    ctx.Extends after :=
  derivation.context_eq ▸ Context.extends_addComparisons _

end Translates

namespace Registry

variable {Leaf Object : Type} [SpecLeaf Leaf Object] {reg : Registry Leaf}
  {spec : Spec Leaf} {specs : List (Spec Leaf)} {ctx after : Context}

/-- The nodes of the tree have the standard handlers, or none that makes conditions. -/
def StandardOn (reg : Registry Leaf) (spec : Spec Leaf) : Prop :=
  ∀ node ∈ spec.nodes, ∀ handler, reg.lookup? node.type = some handler →
    handler.makeCondition?.isSome → Handler.standard? node.type = some handler

theorem StandardOn.child {child : Spec Leaf} (standard : reg.StandardOn spec)
    (member : child ∈ spec.children) : reg.StandardOn child :=
  fun node inside => standard node (Spec.nodes_subset_of_child member inside)

theorem standardOn_standard (spec : Spec Leaf) : (standard : Registry Leaf).StandardOn spec :=
  fun _ _ _ found _ => (lookup?_standard _).symm.trans found

theorem HasStandard.standardOn (has : reg.HasStandard) (plain : spec.IsPlain) :
    reg.StandardOn spec := by
  intro node inside handler found _
  have same : ∀ standard, Handler.standard? node.type = some standard → standard = handler :=
    fun standard known => Option.some.inj ((has _ _ known).symm.trans found)
  cases node with
  | leaf criterion => exact absurd inside (plain criterion)
  | allOf | anyOf | not | any | field => exact congrArg some (same _ rfl)

theorem translates_of_children {handler : String} {conditions : List Condition}
    (each : ∀ spec ∈ specs, ∀ {ctx c after}, reg.translate spec ctx = (.ok c, after) →
      Translates ctx [spec] [c] after)
    (ran : (specs.map reg.translate).mapM (Translation.within handler) ctx =
      (.ok conditions, after)) :
    Translates ctx specs conditions after := by
  induction specs generalizing ctx conditions after with
  | nil =>
    cases ran
    exact .nil
  | cons spec rest ih =>
    rw [List.map_cons, List.mapM_cons] at ran
    obtain ⟨c, mid, head, ran⟩ := Translation.bind_eq_ok ran
    obtain ⟨cs, last, tail, result⟩ := Translation.bind_eq_ok ran
    cases result
    have first := each spec (by simp) (Translation.within_eq_ok_iff.1 head)
    exact first.append (ih (fun other member => each other (by simp [member])) tail)

/-- What the standard handlers translate, the rules derive. -/
theorem translates_of_translate {c : Condition} (standard : reg.StandardOn spec)
    (translated : reg.translate spec ctx = (.ok c, after)) : Translates ctx [spec] [c] after := by
  induction spec using Spec.induction generalizing ctx c after with
  | node spec ih =>
    rw [reg.translate_eq] at translated
    obtain ⟨handler, make, found, makes, made⟩ := makeCondition_eq_ok translated
    have chosen := standard spec spec.self_mem_nodes handler found (by simp [makes])
    have each : ∀ child ∈ spec.children, ∀ {ctx c after},
        reg.translate child ctx = (.ok c, after) → Translates ctx [child] [c] after :=
      fun child member _ _ _ => ih child member (standard.child member)
    -- the type tells which handler it is, and its run is taken apart at each bind
    cases spec with
    | allOf first rest =>
      cases chosen
      cases makes
      obtain ⟨parts, mid, ran, result⟩ := Translation.bind_eq_ok made
      cases result
      exact .all (translates_of_children each ran) .nil
    | anyOf first rest =>
      cases chosen
      cases makes
      obtain ⟨parts, mid, ran, result⟩ := Translation.bind_eq_ok made
      cases result
      exact .any (translates_of_children each ran) .nil
    | not child =>
      cases chosen
      cases makes
      obtain ⟨part, mid, ran, result⟩ := Translation.bind_eq_ok made
      cases result
      exact .not (each child (List.mem_singleton_self child) ran) .nil
    | any =>
      cases chosen
      cases makes
      cases made
      exact .always .nil
    | field criterion =>
      cases chosen
      cases makes
      obtain ⟨ref, mid, derived, made⟩ := Translation.bind_eq_ok made
      cases derived
      obtain ⟨name, last, bound, result⟩ := Translation.bind_eq_ok made
      cases bound
      cases result
      have rule : Translates ctx [(.field criterion : Spec Leaf)] [ctx.comparison criterion]
          (ctx.addComparison criterion) := .field .nil
      rwa [Context.comparison_eq] at rule
    | leaf criterion => cases chosen

/-- The rule for field comparisons as an equation. -/
theorem translate_field (handled : reg.lookup? .field = some .fieldCompare) (ctx : Context)
    (c : FieldCompare) :
    reg.translate (.field c) ctx = (.ok (ctx.comparison c), ctx.addComparison c) := by
  have chosen : reg.conditionHandlerFor (.field c) = .ok (.fieldCompare, _) :=
    conditionHandlerFor_eq_ok_iff.2 ⟨handled, rfl, rfl⟩
  rw [reg.translate_eq, makeCondition, chosen, Context.comparison_eq]
  rfl

end Registry

end Criteria
