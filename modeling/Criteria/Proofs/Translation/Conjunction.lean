import Criteria.Proofs.Translation.Matching
import Criteria.Proofs.Translation.Meaning
import Criteria.Proofs.Translation.Totality
import Mathlib.Data.List.Induction

/-!
Matching specifications one after another and matching their conjunction. The
two narrow a query to different conditions, since a conjunction takes further
conditions into itself; but they succeed together, leave the same context but
for the filter, and no evaluation can tell the two filters apart.
-/

set_option autoImplicit false

namespace Criteria

/-! ### The filter and the rest of the context -/

namespace Context

variable {ctx : Context} {filter : Option Condition} {c : FieldCompare}

/-- The context with another filter. -/
def withFilter (ctx : Context) (filter : Option Condition) : Context :=
  { ctx with query.filter := filter }

theorem andWhere_eq_withFilter (ctx : Context) (condition : Condition) :
    ctx.andWhere condition = ctx.withFilter (condition.narrowed ctx.query.filter) := rfl

theorem aliasFor_withFilter (ctx : Context) (filter : Option Condition) (entity : EntityType) :
    (ctx.withFilter filter).aliasFor entity =
      ((ctx.aliasFor entity).1, (ctx.aliasFor entity).2.withFilter filter) := by
  have same : (ctx.withFilter filter).alias? entity = ctx.alias? entity := rfl
  cases known : ctx.alias? entity with
  | some name => rw [aliasFor_of_alias? known, aliasFor_of_alias? (same.trans known)]
  | none =>
    rw [aliasFor_of_alias?_eq_none known, aliasFor_of_alias?_eq_none (same.trans known)]
    rfl

theorem addComparison_withFilter :
    (ctx.withFilter filter).addComparison c = (ctx.addComparison c).withFilter filter := by
  rw [addComparison, aliasFor_withFilter]
  rfl

theorem comparison_withFilter : (ctx.withFilter filter).comparison c = ctx.comparison c := by
  rw [comparison, aliasFor_withFilter]
  rfl

end Context

namespace Translates

variable {Leaf : Type} {ctx after later : Context} {specs : List (Spec Leaf)}
  {conditions others : List Condition}

/-- A translation neither looks at the filter nor changes it. -/
theorem withFilter (derivation : Translates ctx specs conditions after)
    (filter : Option Condition) :
    Translates (ctx.withFilter filter) specs conditions (after.withFilter filter) := by
  induction derivation with
  | nil => exact .nil
  | always _ ih => exact .always ih
  | field _ ih =>
    rw [← Context.comparison_withFilter]
    apply Translates.field
    rwa [Context.addComparison_withFilter]
  | not _ _ inner ih => exact .not inner ih
  | all _ _ inner ih => exact .all inner ih
  | any _ _ inner ih => exact .any inner ih

/-- The rules leave no choice: there is one rule for each specification. -/
theorem unique (derivation : Translates ctx specs conditions after)
    (other : Translates ctx specs others later) : conditions = others ∧ after = later := by
  induction derivation generalizing others later with
  | nil =>
    cases other
    exact ⟨rfl, rfl⟩
  | always _ ih =>
    cases other with | always rest =>
    obtain ⟨rfl, rfl⟩ := ih rest
    exact ⟨rfl, rfl⟩
  | field _ ih =>
    cases other with | field rest =>
    obtain ⟨rfl, rfl⟩ := ih rest
    exact ⟨rfl, rfl⟩
  | not _ _ inner ih =>
    cases other with | not child rest =>
    obtain ⟨part, rfl⟩ := inner child
    cases part
    obtain ⟨rfl, rfl⟩ := ih rest
    exact ⟨rfl, rfl⟩
  | all _ _ inner ih =>
    cases other with | all children rest =>
    obtain ⟨rfl, rfl⟩ := inner children
    obtain ⟨rfl, rfl⟩ := ih rest
    exact ⟨rfl, rfl⟩
  | any _ _ inner ih =>
    cases other with | any children rest =>
    obtain ⟨rfl, rfl⟩ := inner children
    obtain ⟨rfl, rfl⟩ := ih rest
    exact ⟨rfl, rfl⟩

end Translates

/-! ### Filters narrowed one by one -/

namespace Condition

variable {binding : Binding} {ps : Parameters}

theorem foldl_narrowed (first : Condition) (rest : List Condition) :
    rest.foldl narrowed (some first) = some (rest.foldl andAlso first) := by
  induction rest generalizing first with
  | nil => rfl
  | cons c rest ih => exact ih (first.andAlso c)

-- Induction from the last condition on: whatever shape the first ones have made together, it is
-- narrowed once more.
/-- Conditions that narrow a first one are evaluated like the parts of a conjunction. -/
theorem evaluate_foldl_andAlso (first : Condition) (rest : List Condition) :
    (rest.foldl andAlso first).evaluate binding ps = (all (first :: rest)).evaluate binding ps := by
  induction rest using List.reverseRecOn with
  | nil => exact (evaluateAll_singleton first).symm
  | append_singleton rest last ih =>
    rw [List.foldl_append, List.foldl_cons, List.foldl_nil, evaluate_andAlso, ih]
    exact (evaluateAll_append (first :: rest) last).symm

end Condition

/-! ### Matches -/

namespace Registry

variable {Leaf Object : Type} [SpecLeaf Leaf Object] {reg : Registry Leaf} {spec first : Spec Leaf}
  {specs rest : List (Spec Leaf)} {ctx : Context}

theorem matchSpec_eq_ok_iff (standard : reg.StandardOn spec) (ctx : Context) :
    (reg.matchSpec spec ctx).1 = .ok () ↔ reg.Supports spec := by
  rw [← exists_translate_iff standard ctx]
  constructor
  · intro succeeded
    cases ran : reg.translate spec ctx with
    | mk outcome after =>
      cases outcome with
      | ok c => exact ⟨c, after, rfl⟩
      | error e =>
        rw [matchSpec_of_error ran] at succeeded
        cases succeeded
  · rintro ⟨c, after, translated⟩
    rw [matchSpec_of_ok translated]

theorem answer_matchSpec_eq_done_iff (standard : reg.StandardOn spec) (ctx : Context) :
    (reg.answer ctx (.matchSpec spec)).1 = .done ↔ reg.Supports spec := by
  rw [← matchSpec_eq_ok_iff standard ctx]
  cases ran : reg.matchSpec spec ctx with
  | mk outcome after => cases outcome <;> simp [answer_match, ran, Answer.ofMatch]

theorem run_matches_eq_done_iff (standard : ∀ spec ∈ specs, reg.StandardOn spec) (ctx : Context) :
    (∀ answer ∈ (reg.run ctx (specs.map .matchSpec)).1, answer = .done) ↔
      ∀ spec ∈ specs, reg.Supports spec := by
  induction specs generalizing ctx with
  | nil => simp [run_nil]
  | cons spec rest ih =>
    have head := answer_matchSpec_eq_done_iff (standard spec (by simp)) ctx
    have tail := ih (fun other member => standard other (by simp [member]))
      (reg.answer ctx (.matchSpec spec)).2
    simp only [List.map_cons, run_cons, List.forall_mem_cons, head, tail]

theorem supports_allOf_iff (known : reg.lookup? .allOf = some .allOf) :
    reg.Supports (.allOf first rest) ↔ ∀ spec ∈ first :: rest, reg.Supports spec := by
  constructor
  · intro supported spec member
    have inside : spec ∈ (Spec.allOf first rest).children := member
    exact supported.child inside
  · intro each node inside
    rw [Spec.nodes_eq, List.mem_cons, List.mem_flatMap] at inside
    rcases inside with rfl | ⟨spec, member, inside⟩
    · exact ⟨_, conditionHandlerFor_eq_ok_iff.2 ⟨known, rfl, rfl⟩⟩
    · exact each spec member node inside

/-- Matches one after another take over the translations of a row, and narrow the filter by each
of them. -/
theorem run_matches_of_supports (standard : ∀ spec ∈ specs, reg.StandardOn spec)
    (supported : ∀ spec ∈ specs, reg.Supports spec) (ctx : Context) :
    ∃ conditions after, Translates ctx specs conditions after ∧
      (reg.run ctx (specs.map .matchSpec)).2 =
        after.withFilter (conditions.foldl Condition.narrowed ctx.query.filter) := by
  induction specs generalizing ctx with
  | nil => exact ⟨[], ctx, .nil, rfl⟩
  | cons spec rest ih =>
    obtain ⟨c, mid, translated⟩ :=
      exists_translate_of_supports (standard spec (by simp)) (supported spec (by simp)) ctx
    have head := translates_of_translate (standard spec (by simp)) translated
    have kept : mid.query.filter = ctx.query.filter := head.extends_context.filter_eq
    obtain ⟨conditions, after, tail, ran⟩ := ih
      (fun other member => standard other (by simp [member]))
      (fun other member => supported other (by simp [member])) (mid.andWhere c)
    refine ⟨c :: conditions, after.withFilter mid.query.filter, head.append ?_, ?_⟩
    · -- the row goes on from a context whose filter has not been narrowed yet
      exact tail.withFilter mid.query.filter
    · simp only [List.map_cons, run_cons, answer_match_of_ok translated]
      rw [ran, Context.andWhere_eq_withFilter, kept]
      rfl

/-- Matching specifications one by one, in a context without a filter, succeeds exactly when
matching their conjunction does. Both leave one context but for the filter, and the two filters
have the same value, or the same error, for all rows and parameters. -/
theorem run_matches_eq_matchSpec_allOf (known : reg.lookup? .allOf = some .allOf)
    (standard : ∀ spec ∈ first :: rest, reg.StandardOn spec)
    (unfiltered : ctx.query.filter = none) :
    let each := reg.run ctx ((first :: rest).map .matchSpec)
    let whole := reg.matchSpec (.allOf first rest) ctx
    ((∀ answer ∈ each.1, answer = .done) ↔ whole.1 = .ok ()) ∧
    (whole.1 = .ok () → ∃ narrowed grouped, each.2.query.filter = some narrowed ∧
      whole.2.query.filter = some grouped ∧ whole.2 = each.2.withFilter (some grouped) ∧
      ∀ binding ps, narrowed.evaluate binding ps = grouped.evaluate binding ps) := by
  intro each whole
  have group : reg.StandardOn (.allOf first rest) := by
    intro node inside handler found makes
    rw [Spec.nodes_eq, List.mem_cons, List.mem_flatMap] at inside
    rcases inside with rfl | ⟨spec, member, inside⟩
    · exact known.symm.trans found
    · exact standard spec member node inside handler found makes
  have together : (∀ answer ∈ each.1, answer = .done) ↔ whole.1 = .ok () := by
    rw [run_matches_eq_done_iff standard, matchSpec_eq_ok_iff group, supports_allOf_iff known]
  refine ⟨together, fun succeeded => ?_⟩
  have supported := (run_matches_eq_done_iff standard ctx).1 (together.2 succeeded)
  obtain ⟨conditions, after, row, ran⟩ := run_matches_of_supports standard supported ctx
  obtain ⟨c, mid, translated⟩ := exists_translate_of_supports group
    ((supports_allOf_iff known).2 supported) ctx
  cases translates_of_translate group translated with | @all _ _ _ parts _ _ _ _ children none =>
  cases none
  obtain ⟨rfl, rfl⟩ := row.unique children
  -- a row of at least one specification has a first condition, which the others narrow
  cases conditions with
  | nil => cases row
  | cons c others =>
    have narrowed : each.2.query.filter = some (others.foldl Condition.andAlso c) := by
      rw [ran, unfiltered]
      exact Condition.foldl_narrowed c others
    have grouped : whole.2 = after.withFilter (some (.all (c :: others))) := by
      have kept : after.query.filter = none := row.extends_context.filter_eq.trans unfiltered
      rw [show whole = _ from matchSpec_of_ok translated, Context.andWhere_eq_withFilter, kept]
      rfl
    refine ⟨_, .all (c :: others), narrowed, by rw [grouped]; rfl, ?_, fun binding ps => ?_⟩
    · rw [grouped, ran]
      rfl
    · exact Condition.evaluate_foldl_andAlso c others

/-- The first of these is a conjunction, which takes in the conditions of the other two. -/
theorem run_matches_eq_matchSpec_allOf_visits :
    let large := Condition.compare (.field ⟨"o", "items"⟩) .greater (.parameter "items_1")
    let others := Condition.not
      (.compare (.field ⟨"user0", "name"⟩) .equal (.parameter "name_2"))
    let noon := Condition.any
      [.compare (.field ⟨"visit1", "hour"⟩) .equal (.parameter "hour_3"), .always]
    let ada := Condition.compare (.field ⟨"user0", "name"⟩) .equal (.parameter "name_4")
    let each := standard.run openedOrders
      [.matchSpec largeOrdersOfOthers, .matchSpec (.anyOf (.field atNoon) [.any]),
        .matchSpec (.field namedAda)]
    let whole := standard.matchSpec
      (.allOf largeOrdersOfOthers [.anyOf (.field atNoon) [.any], .field namedAda]) openedOrders
    each.2.query.filter = some (.all [large, others, noon, ada]) ∧
    whole.2 = each.2.withFilter (some (.all [.all [large, others], noon, ada])) ∧
    ∀ binding ps, (Condition.all [large, others, noon, ada]).evaluate binding ps =
      (Condition.all [.all [large, others], noon, ada]).evaluate binding ps := by
  intro large others noon ada each whole
  have standardOn : ∀ spec ∈ [largeOrdersOfOthers, .anyOf (.field atNoon) [.any], .field namedAda],
      standard.StandardOn spec := fun spec _ => standardOn_standard spec
  have unfiltered : openedOrders.query.filter = none := rfl
  obtain ⟨-, same⟩ := run_matches_eq_matchSpec_allOf (Eq.refl _) standardOn unfiltered
  obtain ⟨narrowed, grouped, filter, group, left, value⟩ := same (Eq.refl _)
  have flat : each.2.query.filter = some (.all [large, others, noon, ada]) := Eq.refl _
  have nested : whole.2.query.filter = some (.all [.all [large, others], noon, ada]) := Eq.refl _
  cases filter.symm.trans flat
  cases group.symm.trans nested
  exact ⟨flat, left, value⟩

end Registry

end Criteria
