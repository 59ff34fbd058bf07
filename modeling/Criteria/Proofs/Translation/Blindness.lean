import Criteria.Proofs.Translation.Meaning

/-!
Translation does not look at literals. Two contexts that differ in the values of
parameters alone, and two specifications that differ in the literals of their
comparisons alone, cannot be told apart by a match: it has the same outcome, and
what it leaves differs in the values of parameters alone.
-/

set_option autoImplicit false

namespace Criteria

theorem Parameters.freshName_congr {ps others : Parameters} (same : ps.names = others.names)
    (hint : String) : ps.freshName hint = others.freshName hint := by
  have size : ps.size = others.size := by
    have lengths := congrArg List.length same
    simpa only [names, List.length_map, size] using lengths
  rw [freshName, freshName, same, size]

namespace Context

/-- Two contexts that differ at most in the values of their parameters and in their registries. -/
structure Alike (one other : Context) : Prop where
  aliases_eq : one.aliases = other.aliases
  select_eq : one.query.select = other.query.select
  roots_eq : one.query.roots = other.query.roots
  joins_eq : one.query.joins = other.query.joins
  filter_eq : one.query.filter = other.query.filter
  order_eq : one.query.order = other.query.order
  names_eq : one.query.parameters.names = other.query.parameters.names

namespace Alike

variable {one other : Context}

theorem alias?_eq (alike : one.Alike other) (entity : EntityType) :
    one.alias? entity = other.alias? entity := by
  simp only [alias?, Query.rootAlias?, derivedAlias?, alike.roots_eq, alike.aliases_eq]

theorem freshAlias_eq (alike : one.Alike other) (entity : EntityType) :
    one.freshAlias entity = other.freshAlias entity := by
  simp only [freshAlias, takenAliases, Query.boundAliases, Query.joinAliases, alike.roots_eq,
    alike.joins_eq, alike.aliases_eq]

theorem aliasFor (alike : one.Alike other) (entity : EntityType) :
    (one.aliasFor entity).1 = (other.aliasFor entity).1 ∧
      (one.aliasFor entity).2.Alike (other.aliasFor entity).2 := by
  have same := alike.alias?_eq entity
  cases known : one.alias? entity with
  | some name =>
    rw [known] at same
    rw [aliasFor_of_alias? known, aliasFor_of_alias? same.symm]
    exact ⟨rfl, alike⟩
  | none =>
    rw [known] at same
    rw [aliasFor_of_alias?_eq_none known, aliasFor_of_alias?_eq_none same.symm,
      alike.freshAlias_eq entity, alike.aliases_eq]
    exact ⟨rfl, { alike with aliases_eq := rfl }⟩

theorem fieldOf (alike : one.Alike other) (entity : EntityType) (field : String) :
    (one.fieldOf entity field).1 = (other.fieldOf entity field).1 ∧
      (one.fieldOf entity field).2.Alike (other.fieldOf entity field).2 := by
  obtain ⟨name, left⟩ := alike.aliasFor entity
  exact ⟨congrArg (FieldRef.mk · field) name, left⟩

/-- The name depends on the names that there are, and the values stay out of it. -/
theorem bindParameter (alike : one.Alike other) (hint : String) (value changed : Literal) :
    (one.bindParameter hint value).1 = (other.bindParameter hint changed).1 ∧
      (one.bindParameter hint value).2.Alike (other.bindParameter hint changed).2 := by
  have fresh := Parameters.freshName_congr alike.names_eq hint
  refine ⟨fresh, { alike with names_eq := ?_ }⟩
  have names := alike.names_eq
  simp only [Parameters.names] at names
  simp only [Context.bindParameter, Parameters.bind, Parameters.names, List.map_append, names,
    fresh, List.map_cons, List.map_nil]

theorem andWhere (alike : one.Alike other) (c : Condition) :
    (one.andWhere c).Alike (other.andWhere c) :=
  { alike with filter_eq := by simp only [Context.andWhere, alike.filter_eq] }

/-- The text of a query shows its parameters by name in its conditions, and has nothing else of
them. -/
theorem text_eq (alike : one.Alike other) : one.query.text = other.query.text := by
  simp only [Query.text, alike.select_eq, alike.roots_eq, alike.joins_eq, alike.filter_eq,
    alike.order_eq]

end Alike

end Context

/-! ### Specifications without literals -/

/-- The comparison with null in place of its literal. -/
def FieldCompare.blank (c : FieldCompare) : FieldCompare :=
  { c with value := .null }

namespace Spec

variable {Leaf Object : Type}

mutual
/-- The tree with null in place of every literal. -/
def blank : Spec Leaf → Spec Leaf
  | .allOf first rest => .allOf first.blank (blankEach rest)
  | .anyOf first rest => .anyOf first.blank (blankEach rest)
  | .not child => .not child.blank
  | .any => .any
  | .field c => .field c.blank
  | .leaf criterion => .leaf criterion

def blankEach : List (Spec Leaf) → List (Spec Leaf)
  | [] => []
  | spec :: rest => spec.blank :: blankEach rest
end

theorem blankEach_eq (specs : List (Spec Leaf)) : blankEach specs = specs.map blank := by
  induction specs with
  | nil => rfl
  | cons spec rest ih => rw [blankEach, ih, List.map_cons]

theorem children_blank (spec : Spec Leaf) : spec.blank.children = spec.children.map blank := by
  cases spec <;> simp [blank, children, blankEach_eq]

theorem type_blank [SpecLeaf Leaf Object] (spec : Spec Leaf) : spec.blank.type = spec.type := by
  cases spec <;> rfl

variable {spec changed : Spec Leaf}

theorem type_eq_of_blank [SpecLeaf Leaf Object] (same : spec.blank = changed.blank) :
    spec.type = changed.type := by
  rw [← type_blank spec, same, type_blank]

/-- Trees that differ in literals alone have children that do, one by one. -/
theorem children_of_blank (same : spec.blank = changed.blank) :
    List.Forall₂ (fun child other => child.blank = other.blank) spec.children changed.children := by
  have children := congrArg Spec.children same
  rw [children_blank, children_blank] at children
  rwa [← List.forall₂_eq_eq_eq, List.forall₂_map_left_iff, List.forall₂_map_right_iff] at children

end Spec

/-! ### Translations of two trees -/

namespace Translation

variable {α β : Type}

/-- From contexts alike, the two translations have the same outcome and leave contexts alike. -/
def Agrees (t u : Translation α) : Prop :=
  ∀ ⦃one other : Context⦄, one.Alike other → (t one).1 = (u other).1 ∧ (t one).2.Alike (u other).2

namespace Agrees

theorem pure (value : α) : Agrees (Pure.pure value) (Pure.pure value) :=
  fun _ _ alike => ⟨rfl, alike⟩

theorem fail (e : TranslationError) : Agrees (fail e : Translation α) (.fail e) :=
  fun _ _ alike => ⟨rfl, alike⟩

theorem ofStep {step again : Context → α × Context} (steps : ∀ one other : Context,
    one.Alike other → (step one).1 = (again other).1 ∧ (step one).2.Alike (again other).2) :
    Agrees (ofStep step) (ofStep again) := by
  intro one other alike
  obtain ⟨value, left⟩ := steps one other alike
  exact ⟨congrArg Except.ok value, left⟩

variable {t u : Translation α}

/-- Both runs at once: the outcome is one, and there are two contexts. -/
theorem runs {one other : Context} (agrees : t.Agrees u) (alike : one.Alike other) :
    ∃ result after later, t one = (result, after) ∧ u other = (result, later) ∧
      after.Alike later :=
  ⟨(t one).1, (t one).2, (u other).2, rfl, Prod.ext (agrees alike).1.symm rfl, (agrees alike).2⟩

theorem bind {next further : α → Translation β} (first : t.Agrees u)
    (rest : ∀ value, (next value).Agrees (further value)) :
    Agrees (t >>= next) (u >>= further) := by
  intro one other alike
  obtain ⟨result, after, later, ran, again, left⟩ := first.runs alike
  cases result with
  | error e =>
    rw [bind_of_error ran, bind_of_error again]
    exact ⟨rfl, left⟩
  | ok value =>
    rw [bind_of_ok ran, bind_of_ok again]
    exact rest value left

theorem within (agrees : t.Agrees u) (handler : String) :
    Agrees (within handler t) (within handler u) := by
  intro one other alike
  obtain ⟨result, after, later, ran, again, left⟩ := agrees.runs alike
  unfold Translation.within
  rw [ran, again]
  cases result <;> exact ⟨rfl, left⟩

theorem mapM {ts us : List (Translation α)} {step : Translation α → Translation β}
    (each : List.Forall₂ (fun t u => (step t).Agrees (step u)) ts us) :
    Agrees (ts.mapM step) (us.mapM step) := by
  induction each with
  | nil => exact pure []
  | cons head _ ih =>
    rw [List.mapM_cons, List.mapM_cons]
    exact bind head fun value => bind ih fun values => pure (value :: values)

/-- A match does nothing more than the translation but narrow the filter, or put aliases and query
back. -/
theorem andWhere {t u : Translation Condition} (agrees : t.Agrees u) :
    Agrees t.andWhere u.andWhere := by
  intro one other alike
  obtain ⟨result, after, later, ran, again, left⟩ := agrees.runs alike
  unfold Translation.andWhere
  rw [ran, again]
  cases result with
  | error e => exact ⟨rfl, { alike with aliases_eq := alike.aliases_eq }⟩
  | ok c => exact ⟨rfl, left.andWhere c⟩

end Agrees

end Translation

namespace Handler

variable {Leaf Object : Type} [SpecLeaf Leaf Object] {spec changed : Spec Leaf}
  {children others : List (Translation Condition)}

theorem agrees_translateChildren (name : String) (same : spec.type = changed.type)
    (each : List.Forall₂ Translation.Agrees children others) :
    (translateChildren name spec children).Agrees (translateChildren name changed others) := by
  cases each with
  | nil =>
    rw [translateChildren, translateChildren, same]
    exact .fail _
  | cons head tail =>
    exact .mapM ((List.Forall₂.cons head tail).imp fun _ _ agrees => agrees.within name)

/-- Of the standard handlers only the one for field comparisons meets a literal, and it does
nothing with it but bind it. -/
theorem agrees_make {handler : Handler Leaf} {make : ConditionMaker Leaf}
    (standard : standard? spec.type = some handler) (makes : handler.makeCondition? = some make)
    (same : spec.blank = changed.blank)
    (each : List.Forall₂ Translation.Agrees children others) :
    (make spec children).Agrees (make changed others) := by
  have types := Spec.type_eq_of_blank same
  cases spec with
  | allOf | anyOf =>
    cases standard
    cases makes
    cases changed <;> cases types
    exact (agrees_translateChildren _ rfl each).bind fun parts => .pure _
  | not child =>
    cases standard
    cases makes
    cases changed <;> cases types
    cases each with
    | nil => exact .fail _
    | cons head _ => exact head.bind fun part => .pure _
  | any =>
    cases standard
    cases makes
    cases changed <;> cases types
    exact .pure _
  | field c =>
    cases standard
    cases makes
    cases changed <;> cases types
    next d =>
    -- the two comparisons differ in their values alone
    obtain ⟨entity, field, op, value, valid⟩ := c
    obtain ⟨entity', field', op', value', valid'⟩ := d
    cases same
    have derives := Translation.Agrees.ofStep fun one other (alike : one.Alike other) =>
      alike.fieldOf entity field
    have binds := Translation.Agrees.ofStep fun one other (alike : one.Alike other) =>
      alike.bindParameter field value value'
    exact derives.bind fun ref => binds.bind fun name => .pure _
  | leaf criterion => cases standard

end Handler

namespace Registry

variable {Leaf Object : Type} [SpecLeaf Leaf Object] {reg : Registry Leaf}
  {spec changed : Spec Leaf}

/-- Who handles a specification is decided by its type, and so is why nobody does. -/
theorem conditionHandlerFor_congr (same : spec.type = changed.type) :
    reg.conditionHandlerFor spec = reg.conditionHandlerFor changed := by
  simp only [conditionHandlerFor, handlerFor, same]

theorem agrees_translate (standard : reg.StandardOn spec) (same : spec.blank = changed.blank) :
    (reg.translate spec).Agrees (reg.translate changed) := by
  induction spec using Spec.induction generalizing changed with
  | node spec ih =>
    have children : List.Forall₂ Translation.Agrees (spec.children.map reg.translate)
        (changed.children.map reg.translate) := by
      rw [List.forall₂_map_left_iff, List.forall₂_map_right_iff]
      have pairs := Spec.children_of_blank same
      exact (List.forall₂_and_left _ _ |>.2 ⟨fun _ member => member, pairs⟩).imp
        fun child other both => ih child both.1 (standard.child both.1) both.2
    rw [reg.translate_eq, reg.translate_eq changed]
    unfold makeCondition
    rw [← conditionHandlerFor_congr (Spec.type_eq_of_blank same)]
    cases chosen : reg.conditionHandlerFor spec with
    | error e => exact .fail e
    | ok pair =>
      obtain ⟨found, makes⟩ := conditionHandlerFor_eq_ok chosen
      have known := standard spec spec.self_mem_nodes pair.1 found (by simp [makes])
      exact Handler.agrees_make known makes same children

/-- Literals have no influence on a match but the values of the parameters that they become. In
contexts alike, specifications alike both match or both fail with one error, and leave contexts
alike, whose queries have one text. -/
theorem matchSpec_ignores_literals (reg : Registry Leaf) {one other : Context}
    (alike : one.Alike other) (standard : reg.StandardOn spec)
    (same : spec.blank = changed.blank) :
    let ran := reg.matchSpec spec one
    let again := reg.matchSpec changed other
    ran.1 = again.1 ∧ ran.2.Alike again.2 ∧ ran.2.query.text = again.2.query.text := by
  intro ran again
  have agreed : ran.1 = again.1 ∧ ran.2.Alike again.2 :=
    (agrees_translate standard same).andWhere alike
  exact ⟨agreed.1, agreed.2, agreed.2.text_eq⟩

/-- What one might write in place of a number to get more orders. -/
def injectedItems : FieldCompare :=
  { manyItems with value := .text "0 OR 1 = 1) --" }

def injectedOrders : Spec Marker :=
  .allOf (.field injectedItems) [.not (.field { namedAda with value := .bool false })]

/-- The opened orders, with another value under the name that is taken there. -/
def openedOrdersOfNobody : Context :=
  (({} : Context).addRoot ⟨"app.Order"⟩ "o").assignParameter "name_1" .null

/-- The second pair of specifications fails in the middle, after a parameter has been bound. -/
theorem matchSpec_ignores_literals_injected :
    (standard.matchSpec largeOrdersOfOthers openedOrders).2.query.text =
      (standard.matchSpec injectedOrders openedOrdersOfNobody).2.query.text ∧
    (standard.matchSpec (.anyOf largeOrdersOfOthers [.leaf ⟨"unknown"⟩]) openedOrders).1 =
      (standard.matchSpec (.anyOf injectedOrders [.leaf ⟨"unknown"⟩]) openedOrdersOfNobody).1 := by
  have alike : openedOrders.Alike openedOrdersOfNobody := ⟨rfl, rfl, rfl, rfl, rfl, rfl, rfl⟩
  have same : largeOrdersOfOthers.blank = injectedOrders.blank := rfl
  have sameFailing : (Spec.anyOf largeOrdersOfOthers [.leaf ⟨"unknown"⟩]).blank =
      (Spec.anyOf injectedOrders [.leaf ⟨"unknown"⟩]).blank := rfl
  have matching := matchSpec_ignores_literals standard alike (standardOn_standard _) same
  have failing := matchSpec_ignores_literals standard alike (standardOn_standard _) sameFailing
  exact ⟨matching.2.2, failing.1⟩

end Registry

end Criteria
