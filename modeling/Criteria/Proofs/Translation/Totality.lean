import Criteria.Proofs.Translation.Rules

/-! Which specifications have a translation, whatever the context: those all of whose nodes have
handlers that make conditions. Where the standard handlers are registered, no specification without
leaves of the user's is among the others. -/

set_option autoImplicit false

namespace Criteria

namespace Registry

variable {Leaf Object : Type} [SpecLeaf Leaf Object] {reg : Registry Leaf} {spec : Spec Leaf}
  {specs : List (Spec Leaf)}

theorem exists_translations (handler : String)
    (each : ∀ spec ∈ specs, ∀ ctx, ∃ c after, reg.translate spec ctx = (.ok c, after))
    (ctx : Context) : ∃ conditions after,
      (specs.map reg.translate).mapM (Translation.within handler) ctx =
        (.ok conditions, after) := by
  induction specs generalizing ctx with
  | nil => exact ⟨[], ctx, rfl⟩
  | cons spec rest ih =>
    obtain ⟨c, mid, head⟩ := each spec (by simp) ctx
    obtain ⟨cs, after, tail⟩ := ih (fun other member => each other (by simp [member])) mid
    refine ⟨c :: cs, after, ?_⟩
    rw [List.map_cons, List.mapM_cons,
      Translation.bind_of_ok (Translation.within_eq_ok_iff.2 head), Translation.bind_of_ok tail]
    rfl

/-! ### Specifications with unsupported nodes -/

/-- Every node of the tree has a handler, and one that makes conditions. -/
def Supports (reg : Registry Leaf) (spec : Spec Leaf) : Prop :=
  ∀ node ∈ spec.nodes, ∃ chosen, reg.conditionHandlerFor node = .ok chosen

theorem Supports.child {child : Spec Leaf} (supported : reg.Supports spec)
    (member : child ∈ spec.children) : reg.Supports child :=
  fun node inside => supported node (Spec.nodes_subset_of_child member inside)

theorem exists_translate_of_supports (standard : reg.StandardOn spec)
    (supported : reg.Supports spec) (ctx : Context) :
    ∃ c after, reg.translate spec ctx = (.ok c, after) := by
  induction spec using Spec.induction generalizing ctx with
  | node spec ih =>
    have each : ∀ child ∈ spec.children, ∀ ctx, ∃ c after,
        reg.translate child ctx = (.ok c, after) :=
      fun child member ctx => ih child member (standard.child member) (supported.child member) ctx
    obtain ⟨⟨handler, make⟩, chosen⟩ := supported spec spec.self_mem_nodes
    obtain ⟨found, makes⟩ := conditionHandlerFor_eq_ok chosen
    have known := standard spec spec.self_mem_nodes handler found (by simp [makes])
    rw [reg.translate_eq, makeCondition, chosen]
    cases spec with
    | allOf first rest =>
      cases known
      cases makes
      obtain ⟨parts, after, ran⟩ := exists_translations "AllOfHandler" each ctx
      exact ⟨.all parts, after, Translation.bind_of_ok ran⟩
    | anyOf first rest =>
      cases known
      cases makes
      obtain ⟨parts, after, ran⟩ := exists_translations "AnyOfHandler" each ctx
      exact ⟨.any parts, after, Translation.bind_of_ok ran⟩
    | not child =>
      cases known
      cases makes
      obtain ⟨part, after, ran⟩ := each child (List.mem_singleton_self child) ctx
      exact ⟨.not part, after, Translation.bind_of_ok ran⟩
    | any =>
      cases known
      cases makes
      exact ⟨.always, ctx, rfl⟩
    | field criterion =>
      cases known
      cases makes
      exact ⟨_, _, rfl⟩
    | leaf criterion => cases known

theorem translated_of_children {name : String} {conditions : List Condition} {ctx after : Context}
    (ran : (specs.map reg.translate).mapM (Translation.within name) ctx =
      (.ok conditions, after)) :
    ∀ spec ∈ specs, ∃ ctx c after, reg.translate spec ctx = (.ok c, after) := by
  intro spec member
  obtain ⟨mid, c, last, translated⟩ :=
    Translation.ran_of_mapM ran _ (List.mem_map_of_mem member)
  exact ⟨mid, c, last, Translation.within_eq_ok_iff.1 translated⟩

/-- A standard handler has made a condition only if it has those of all children. -/
theorem translated_of_made {handler : Handler Leaf} {make : ConditionMaker Leaf} {c : Condition}
    {ctx after : Context} (known : Handler.standard? spec.type = some handler)
    (makes : handler.makeCondition? = some make)
    (made : make spec (spec.children.map reg.translate) ctx = (.ok c, after)) :
    ∀ child ∈ spec.children, ∃ ctx c after, reg.translate child ctx = (.ok c, after) := by
  cases spec with
  | allOf first rest | anyOf first rest =>
    cases known
    cases makes
    obtain ⟨parts, mid, ran, -⟩ := Translation.bind_eq_ok made
    exact translated_of_children ran
  | not child =>
    cases known
    cases makes
    obtain ⟨part, mid, ran, -⟩ := Translation.bind_eq_ok made
    intro other member
    cases List.mem_singleton.1 member
    exact ⟨ctx, part, mid, ran⟩
  | any | field criterion | leaf criterion => exact fun child member => nomatch member

theorem supports_of_translate {c : Condition} {ctx after : Context}
    (standard : reg.StandardOn spec) (translated : reg.translate spec ctx = (.ok c, after)) :
    reg.Supports spec := by
  induction spec using Spec.induction generalizing ctx c after with
  | node spec ih =>
    rw [reg.translate_eq, makeCondition] at translated
    cases chosen : reg.conditionHandlerFor spec with
    | error e =>
      rw [chosen] at translated
      cases translated
    | ok pair =>
      rw [chosen] at translated
      obtain ⟨found, makes⟩ := conditionHandlerFor_eq_ok chosen
      have known := standard spec spec.self_mem_nodes pair.1 found (by simp [makes])
      intro node inside
      rw [Spec.nodes_eq, List.mem_cons, List.mem_flatMap] at inside
      rcases inside with rfl | ⟨child, member, inside⟩
      · exact ⟨pair, chosen⟩
      · obtain ⟨_, _, _, ran⟩ := translated_of_made known makes translated child member
        exact ih child member (standard.child member) ran node inside

/-- Whether there is a translation has nothing to do with the context. -/
theorem exists_translate_iff (standard : reg.StandardOn spec) (ctx : Context) :
    (∃ c after, reg.translate spec ctx = (.ok c, after)) ↔ reg.Supports spec :=
  ⟨fun ⟨_, _, translated⟩ => supports_of_translate standard translated,
    fun supported => exists_translate_of_supports standard supported ctx⟩

theorem HasStandard.supports (has : reg.HasStandard) (plain : spec.IsPlain) :
    reg.Supports spec := by
  intro node inside
  cases node with
  | leaf criterion => exact absurd inside (plain criterion)
  | allOf | anyOf | not | any | field =>
    exact ⟨_, conditionHandlerFor_eq_ok_iff.2 ⟨has _ _ rfl, rfl, rfl⟩⟩

theorem exists_translate (has : reg.HasStandard) (plain : spec.IsPlain) (ctx : Context) :
    ∃ c after, reg.translate spec ctx = (.ok c, after) :=
  exists_translate_of_supports (has.standardOn plain) (has.supports plain) ctx

end Registry

end Criteria
