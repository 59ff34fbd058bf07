import Criteria.Proofs.Spec.Positions
import Criteria.Proofs.Translation.Totality

/-!
Why a translation fails, and how far it has come. A translation goes through the
positions of its tree in order. Those that have a handler add their field
comparisons to the context; the first that has none is the error, seen from the
groups around it.
-/

set_option autoImplicit false

namespace Criteria

variable {Leaf Object : Type} [SpecLeaf Leaf Object]

namespace Spec

/-- The handler of a group. It leaves its name on the errors that come from inside. -/
def groupHandler? : Spec Leaf → Option (Handler Leaf)
  | .allOf .. => some .allOf
  | .anyOf .. => some .anyOf
  | _ => none

/-- What is left on the errors that come from inside a specification. -/
def groupNames (spec : Spec Leaf) : List String :=
  (spec.groupHandler?.map Handler.name).toList

namespace Position

/-- The handlers of the groups around a position, the innermost first. -/
def groupNames (position : Position Leaf) : List String :=
  position.ancestors.flatMap Spec.groupNames

/-- The error of a position that is refused for this reason. -/
def error (position : Position Leaf) (reason : UnsupportedReason) : TranslationError :=
  { type := position.node.type, reason := reason, composites := position.groupNames }

end Position

end Spec

theorem Translation.within_of_error {α : Type} {t : Translation α} {ctx after : Context}
    {e : TranslationError} {name : String} (failed : t ctx = (.error e, after)) :
    within name t ctx = (.error (e.within name), after) := by
  unfold within
  rw [failed]

theorem Handler.hasCapability_of_standard? {type : SpecType} {handler : Handler Leaf}
    (known : standard? type = some handler) : handler.hasCapability .condition = true := by
  cases type <;> cases known <;> rfl

namespace Registry

variable {reg : Registry Leaf} {spec : Spec Leaf} {specs : List (Spec Leaf)}
  {ps more : List (Spec.Position Leaf)} {ctx after : Context} {e : TranslationError}
  {reason : UnsupportedReason}

/-- Why the registry makes no condition of a specification, whatever is nested in it. -/
def refusal? (reg : Registry Leaf) (spec : Spec Leaf) : Option UnsupportedReason :=
  match reg.lookup? spec.type with
  | none => some .noHandler
  | some handler =>
    if handler.makeCondition?.isSome then none
    else some (.missingCapability handler.name .condition)

theorem conditionHandlerFor_of_refusal? (refused : reg.refusal? spec = some reason) :
    reg.conditionHandlerFor spec = .error { type := spec.type, reason := reason } := by
  rw [conditionHandlerFor_eq_error_iff]
  unfold refusal? at refused
  cases registered : reg.lookup? spec.type with
  | none =>
    rw [registered] at refused
    cases refused
    exact .inl ⟨rfl, rfl⟩
  | some handler =>
    simp only [registered] at refused
    split at refused
    · cases refused
    · next absent =>
      cases refused
      exact .inr ⟨handler, rfl, fun _ => Option.not_isSome_iff_eq_none.1 absent, rfl⟩

/-- A specification that is not refused has its standard handler. -/
theorem conditionHandlerFor_of_not_refused
    (standard : ∀ handler, reg.lookup? spec.type = some handler → handler.makeCondition?.isSome →
      Handler.standard? spec.type = some handler)
    (accepted : reg.refusal? spec = none) : ∃ handler make,
      Handler.standard? spec.type = some handler ∧ handler.makeCondition? = some make ∧
        reg.conditionHandlerFor spec = .ok (handler, make) := by
  unfold refusal? at accepted
  cases registered : reg.lookup? spec.type with
  | none =>
    rw [registered] at accepted
    cases accepted
  | some handler =>
    simp only [registered] at accepted
    split at accepted
    · next makes =>
      have known := standard handler registered makes
      obtain ⟨make, made⟩ := Option.isSome_iff_exists.1 makes
      exact ⟨handler, make, known, made, conditionHandlerFor_eq_ok_iff.2
        ⟨registered, Handler.hasCapability_of_standard? known, made⟩⟩
    · cases accepted

/-! ### Going through positions -/

-- The relation follows the translation from one position to the next. What it says of a whole
-- tree, without following it, is in `Refuses.split`.
inductive Refuses (reg : Registry Leaf) :
    Context → List (Spec.Position Leaf) → TranslationError → Context → Prop where
  | here {ctx position later reason} : reg.refusal? position.node = some reason →
    Refuses reg ctx (position :: later) (position.error reason) ctx
  | later {ctx position rest e after} : reg.refusal? position.node = none →
    Refuses reg (ctx.addComparisons position.node.comparison?.toList) rest e after →
    Refuses reg ctx (position :: rest) e after

namespace Refuses

/-- The field comparisons at positions. -/
def comparisons (ps : List (Spec.Position Leaf)) : List FieldCompare :=
  ps.filterMap fun position => position.node.comparison?

omit [SpecLeaf Leaf Object] in
theorem comparisons_cons (position : Spec.Position Leaf) (rest : List (Spec.Position Leaf)) :
    comparisons (position :: rest) = position.node.comparison?.toList ++ comparisons rest := by
  unfold comparisons
  rw [List.filterMap_cons]
  cases position.node.comparison? <;> rfl

omit [SpecLeaf Leaf Object] in
theorem comparisons_positions (spec : Spec Leaf) :
    comparisons spec.positions = spec.comparisons := by
  unfold comparisons Spec.comparisons
  rw [← spec.map_node_positions, List.filterMap_map]
  rfl

/-- The first refused one of the positions, and what has been done before it. -/
theorem split (refuses : reg.Refuses ctx ps e after) : ∃ before position later reason,
    ps = before ++ position :: later ∧ (∀ earlier ∈ before, reg.refusal? earlier.node = none) ∧
      reg.refusal? position.node = some reason ∧ e = position.error reason ∧
      after = ctx.addComparisons (comparisons before) := by
  induction refuses with
  | @here ctx position later reason refused =>
    exact ⟨[], position, later, reason, rfl, fun _ => nofun, refused, rfl, rfl⟩
  | @later ctx first rest e after accepted _ ih =>
    obtain ⟨before, position, later, reason, rfl, earlier, refused, rfl, rfl⟩ := ih
    refine ⟨first :: before, position, later, reason, rfl,
      List.forall_mem_cons.2 ⟨accepted, earlier⟩, refused, rfl, ?_⟩
    rw [comparisons_cons, Context.addComparisons_append]

theorem exists_of_refused (ctx : Context)
    (refused : ∃ position ∈ ps, reg.refusal? position.node ≠ none) :
    ∃ e after, reg.Refuses ctx ps e after := by
  induction ps generalizing ctx with
  | nil => exact absurd refused (by simp)
  | cons first rest ih =>
    cases head : reg.refusal? first.node with
    | some reason => exact ⟨_, _, .here head⟩
    | none =>
      obtain ⟨position, member, refused⟩ := refused
      rcases List.mem_cons.1 member with rfl | member
      · exact absurd head refused
      · obtain ⟨e, after, tail⟩ := ih _ ⟨position, member, refused⟩
        exact ⟨e, after, .later head tail⟩

/-- The positions of the first of two rows are all gone through before those of the second. -/
theorem append_cases (refuses : reg.Refuses ctx (ps ++ more) e after) :
    reg.Refuses ctx ps e after ∨
    (∀ position ∈ ps, reg.refusal? position.node = none) ∧
      reg.Refuses (ctx.addComparisons (comparisons ps)) more e after := by
  induction ps generalizing ctx with
  | nil => exact .inr ⟨fun _ => nofun, refuses⟩
  | cons first rest ih =>
    cases refuses with
    | here refused => exact .inl (.here refused)
    | later accepted tail =>
      rcases ih tail with inside | ⟨earlier, further⟩
      · exact .inl (.later accepted inside)
      · refine .inr ⟨List.forall_mem_cons.2 ⟨accepted, earlier⟩, ?_⟩
        rwa [comparisons_cons, Context.addComparisons_append]

/-- A node around the positions only leaves its name on the error. -/
theorem of_below {outer : Spec Leaf}
    (refuses : reg.Refuses ctx (ps.map (Spec.Position.below outer)) e after) :
    ∃ inner, reg.Refuses ctx ps inner after ∧
      e = { inner with composites := inner.composites ++ outer.groupNames } := by
  induction ps generalizing ctx with
  | nil => cases refuses
  | cons first rest ih =>
    cases refuses with
    | @here _ _ _ reason refused =>
      refine ⟨first.error reason, .here refused, ?_⟩
      simp [Spec.Position.error, Spec.Position.groupNames, Spec.Position.below]
    | later accepted tail =>
      obtain ⟨inner, further, same⟩ := ih tail
      exact ⟨inner, .later accepted further, same⟩

end Refuses

/-! ### Translations that are refused -/

theorem supports_iff (standard : reg.StandardOn spec) :
    reg.Supports spec ↔ ∀ node ∈ spec.nodes, reg.refusal? node = none := by
  constructor
  · intro supported node inside
    obtain ⟨chosen, found⟩ := supported node inside
    cases refused : reg.refusal? node with
    | none => rfl
    | some reason => cases (conditionHandlerFor_of_refusal? refused).symm.trans found
  · intro accepted node inside
    obtain ⟨handler, make, -, -, chosen⟩ :=
      conditionHandlerFor_of_not_refused (standard node inside) (accepted node inside)
    exact ⟨(handler, make), chosen⟩

/-- The children of a group are translated up to the first that is refused. -/
theorem mapM_of_refuses (name : String) (standard : ∀ spec ∈ specs, reg.StandardOn spec)
    (each : ∀ spec ∈ specs, ∀ {ctx e after}, reg.Refuses ctx spec.positions e after →
      reg.translate spec ctx = (.error e, after))
    (refuses : reg.Refuses ctx (specs.flatMap Spec.positions) e after) :
    (specs.map reg.translate).mapM (Translation.within name) ctx =
      (.error (e.within name), after) := by
  induction specs generalizing ctx with
  | nil => cases refuses
  | cons first rest ih =>
    rw [List.flatMap_cons] at refuses
    rw [List.map_cons, List.mapM_cons]
    rcases refuses.append_cases with inside | ⟨accepted, further⟩
    · exact Translation.bind_of_error
        (Translation.within_of_error (each first List.mem_cons_self inside))
    · have own := standard first List.mem_cons_self
      have supported : reg.Supports first := by
        rw [supports_iff own, ← first.map_node_positions]
        exact List.forall_mem_map.2 accepted
      obtain ⟨c, mid, translated⟩ := exists_translate_of_supports own supported ctx
      have left := (translates_of_translate own translated).context_eq
      rw [List.flatMap_singleton, ← Refuses.comparisons_positions] at left
      have tail := ih (fun other member => standard other (List.mem_cons_of_mem first member))
        (fun other member => each other (List.mem_cons_of_mem first member)) (left ▸ further)
      rw [Translation.bind_of_ok (Translation.within_eq_ok_iff.2 translated)]
      exact Translation.bind_of_error tail

theorem translate_of_refuses (standard : reg.StandardOn spec)
    (refuses : reg.Refuses ctx spec.positions e after) :
    reg.translate spec ctx = (.error e, after) := by
  induction spec using Spec.induction generalizing ctx e after with
  | node spec ih =>
    have each : ∀ child ∈ spec.children, ∀ {ctx e after},
        reg.Refuses ctx child.positions e after → reg.translate child ctx = (.error e, after) :=
      fun child member _ _ _ => ih child member (standard.child member)
    rw [Spec.positions_eq] at refuses
    rw [reg.translate_eq, makeCondition]
    cases refuses with
    | here refused =>
      rw [conditionHandlerFor_of_refusal? refused]
      rfl
    | later accepted inside =>
      obtain ⟨handler, make, known, makes, chosen⟩ :=
        conditionHandlerFor_of_not_refused (standard spec spec.self_mem_nodes) accepted
      obtain ⟨inner, further, rfl⟩ := inside.of_below
      rw [chosen]
      -- only a specification with children is around others
      cases spec with
      | allOf first rest =>
        cases known
        cases makes
        exact Translation.bind_of_error
          (mapM_of_refuses "AllOfHandler" (fun child => standard.child) each further)
      | anyOf first rest =>
        cases known
        cases makes
        exact Translation.bind_of_error
          (mapM_of_refuses "AnyOfHandler" (fun child => standard.child) each further)
      | not child =>
        cases known
        cases makes
        have only : [child].flatMap Spec.positions = child.positions := List.flatMap_singleton ..
        have failed := each child (List.mem_singleton_self child) (only ▸ further)
        -- a negation is no group
        have unnamed : inner.composites ++ (Spec.not child).groupNames = inner.composites :=
          List.append_nil _
        rw [unnamed]
        exact Translation.bind_of_error failed
      | any | field criterion | leaf criterion => cases further

/-- A translation fails exactly if some node has no handler that makes conditions. Its error is
then that of the first such node, with the handlers of the groups around it, the innermost first;
and of the context it has changed what the field comparisons before that node need. -/
theorem translate_refused (standard : reg.StandardOn spec) (ctx : Context) :
    ((∃ e after, reg.translate spec ctx = (.error e, after)) ↔
      ∃ node ∈ spec.nodes, reg.refusal? node ≠ none) ∧
    ∀ e after, reg.translate spec ctx = (.error e, after) →
      ∃ before position later reason, spec.positions = before ++ position :: later ∧
        (∀ earlier ∈ before, reg.refusal? earlier.node = none) ∧
        reg.refusal? position.node = some reason ∧
        e = { type := position.node.type, reason := reason, composites := position.groupNames } ∧
        after = ctx.addComparisons
          (before.filterMap fun earlier => earlier.node.comparison?) := by
  have refuses_of_refused (refused : ∃ node ∈ spec.nodes, reg.refusal? node ≠ none) :
      ∃ e after, reg.Refuses ctx spec.positions e after := by
    obtain ⟨node, inside, refused⟩ := refused
    obtain ⟨position, member, rfl⟩ := List.mem_map.1 (spec.map_node_positions ▸ inside)
    exact Refuses.exists_of_refused ctx ⟨position, member, refused⟩
  have refused_of_failed {e : TranslationError} {after : Context}
      (failed : reg.translate spec ctx = (.error e, after)) :
      ∃ node ∈ spec.nodes, reg.refusal? node ≠ none := by
    by_contra accepted
    have supported := (supports_iff standard).2 (by simpa using accepted)
    obtain ⟨c, mid, translated⟩ := exists_translate_of_supports standard supported ctx
    cases failed.symm.trans translated
  refine ⟨⟨fun ⟨_, _, failed⟩ => refused_of_failed failed, fun refused => ?_⟩, ?_⟩
  · obtain ⟨e, after, refuses⟩ := refuses_of_refused refused
    exact ⟨e, after, translate_of_refuses standard refuses⟩
  · intro e after failed
    obtain ⟨_, _, refuses⟩ := refuses_of_refused (refused_of_failed failed)
    cases failed.symm.trans (translate_of_refuses standard refuses)
    exact refuses.split

/-- A registry without a handler for the specification that always holds, and with one for audits
that makes no conditions. -/
def audited : Registry Marker where
  handlers := [.allOf, .anyOf, .not, .fieldCompare,
    { name := "AuditHandler", handles := .leaf "audit" }]

theorem standardOn_audited (spec : Spec Marker) : audited.StandardOn spec := by
  intro node _ handler found makes
  have named := handles_of_lookup? found
  have listed : handler ∈ audited.handlers := List.mem_of_find?_eq_some found
  simp only [audited, List.mem_cons, List.not_mem_nil, or_false] at listed
  rw [← named]
  rcases listed with rfl | rfl | rfl | rfl | rfl
  case inr.inr.inr.inr => cases makes
  all_goals rfl

/-- Two nodes are refused: the audit inside the negation comes first. -/
def auditedStock : Spec Marker :=
  .allOf (.field ⟨⟨"app.Product"⟩, "stock", .greater, .int 0, by decide⟩)
    [.anyOf (.not (.leaf ⟨"audit"⟩)) [.any],
      .field ⟨⟨"app.Shelf"⟩, "level", .equal, .int 2, by decide⟩]

theorem translate_refused_auditedStock :
    let ran := audited.translate auditedStock {}
    ran.1 = .error ⟨.leaf "audit", .missingCapability "AuditHandler" .condition,
      ["AnyOfHandler", "AllOfHandler"]⟩ ∧
    ran.2.query.parameters.entries = [("stock_0", .int 0)] ∧
    ran.2.aliases = [(⟨"app.Product"⟩, "product0")] ∧
    ∃ node ∈ auditedStock.nodes, audited.refusal? node ≠ none := by
  have refused := translate_refused (standardOn_audited auditedStock) {}
  exact ⟨rfl, rfl, rfl, refused.1.1 ⟨_, _, rfl⟩⟩

end Registry

end Criteria
