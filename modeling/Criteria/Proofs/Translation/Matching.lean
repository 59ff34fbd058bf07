import Criteria.Proofs.Translation.Image

/-!
Runs of matches. In a context whose filter and parameters come from matches
alone, the parameters are those of the comparisons that have matched, in order,
and each match has narrowed the filter by the image of its specification.
-/

set_option autoImplicit false

namespace Criteria

/-- The names of the parameters that the filter refers to, from left to right. -/
def Query.filterNames (q : Query) : List String :=
  q.filter.elim [] Condition.parameterNames

/-- A filter, which may be missing, with a further condition. -/
def Condition.narrowed (filter : Option Condition) (c : Condition) : Option Condition :=
  some (match filter with
    | none => c
    | some existing => existing.andAlso c)

/-- The parameters are those of these comparisons, and the filter refers to each of them once. -/
structure Context.Records (ctx : Context) (cs : List FieldCompare) : Prop where
  entries_eq : ctx.query.parameters.entries = numbered cs
  filterNames_eq : ctx.query.filterNames = (numbered cs).map Prod.fst

namespace Registry

variable {Leaf Object : Type} [SpecLeaf Leaf Object] {reg : Registry Leaf} {spec : Spec Leaf}
  {specs : List (Spec Leaf)} {call : Call Leaf} {calls : List (Call Leaf)} {ctx : Context}
  {cs : List FieldCompare} {entity : EntityType} {name : String}

/-- A call that adds to the filter and the parameters only by a match with the standard
handlers. -/
def Additive (reg : Registry Leaf) : Call Leaf → Prop
  | .matchSpec spec => reg.StandardOn spec
  | .andWhere _ | .bindParameter .. | .assignParameter .. | .translate _ => False
  | _ => True

/-- The specifications that matched, by the calls and the answers to them. -/
def matched : List (Call Leaf) → List Answer → List (Spec Leaf)
  | .matchSpec spec :: calls, .done :: answers => spec :: matched calls answers
  | _ :: calls, _ :: answers => matched calls answers
  | _, _ => []

theorem answer_match_of_ok {c : Condition} {after : Context}
    (translated : reg.translate spec ctx = (.ok c, after)) :
    reg.answer ctx (.matchSpec spec) = (.done, after.andWhere c) := by
  rw [answer_match, matchSpec_of_ok translated]
  rfl

/-- A match either leaves everything or adds a translation and narrows the filter by it. -/
theorem answer_matchSpec (standard : reg.StandardOn spec) (ctx : Context) :
    (∃ e, reg.answer ctx (.matchSpec spec) = (.failed e, ctx)) ∨
    ∃ c after, Translates ctx [spec] [c] after ∧
      reg.answer ctx (.matchSpec spec) = (.done, after.andWhere c) := by
  cases ran : reg.translate spec ctx with
  | mk outcome after =>
    cases outcome with
    | error e =>
      have grown : ctx.Extends after := by simpa [ran] using grows_translate standard ctx
      refine .inl ⟨e, ?_⟩
      rw [answer_match, matchSpec_of_error ran, grown.registry_eq]
      rfl
    | ok c => exact .inr ⟨c, after, translates_of_translate standard ran, answer_match_of_ok ran⟩

/-! ### Parameters -/

theorem records_andWhere {c : Condition} {after : Context}
    (derivation : Translates ctx [spec] [c] after) (records : ctx.Records cs) :
    (after.andWhere c).Records (cs ++ spec.comparisons) where
  entries_eq := (derivation.entries_eq records.entries_eq).trans (by simp)
  filterNames_eq := by
    have names := derivation.parameterNames_eq records.entries_eq
    have kept : after.query.filter = ctx.query.filter := derivation.extends_context.filter_eq
    have before := records.filterNames_eq
    simp only [List.flatMap_cons, List.flatMap_nil, List.append_nil] at names
    rw [← names, ← before]
    unfold Query.filterNames Context.andWhere
    rw [kept]
    cases ctx.query.filter with
    | none => rfl
    | some old => exact Condition.parameterNames_andAlso old c

theorem records_answer (additive : reg.Additive call) (records : ctx.Records cs) :
    (reg.answer ctx call).2.Records
      (cs ++ (matched [call] [(reg.answer ctx call).1]).flatMap Spec.comparisons) := by
  cases call with
  | matchSpec spec =>
    obtain ⟨e, failed⟩ | ⟨c, after, derivation, done⟩ := answer_matchSpec additive ctx
    · simpa [failed, matched] using records
    · simpa [done, matched] using records_andWhere derivation records
  | aliasFor entity | fieldOf entity =>
    have grown := Context.extends_aliasFor ctx entity
    refine ⟨?_, ?_⟩
    · simpa [answer, Registries.answer, matched, Context.fieldOf, Context.parameters_aliasFor]
        using records.entries_eq
    · simpa [answer, Registries.answer, matched, Context.fieldOf, Query.filterNames, grown.filter_eq]
        using records.filterNames_eq
  | addJoin join =>
    simp only [answer, Registries.answer, Context.addJoin, matched, List.flatMap_nil,
      List.append_nil]
    split
    · exact records
    · exact ⟨records.entries_eq, records.filterNames_eq⟩
  | query | select | addSelect | addRoot | orderBy =>
    simp only [answer, Registries.answer, matched, List.flatMap_nil, List.append_nil]
    exact ⟨records.entries_eq, records.filterNames_eq⟩
  | andWhere | bindParameter | assignParameter | translate => exact additive.elim

theorem matched_cons (call : Call Leaf) (answer : Answer) (answers : List Answer) :
    matched (call :: calls) (answer :: answers) =
      matched [call] [answer] ++ matched calls answers := by
  cases call <;> cases answer <;> simp [matched]

theorem records_run (additive : ∀ call ∈ calls, reg.Additive call) (records : ctx.Records cs) :
    (reg.run ctx calls).2.Records
      (cs ++ (matched calls (reg.run ctx calls).1).flatMap Spec.comparisons) := by
  induction calls generalizing ctx cs with
  | nil => simpa [run_nil, matched] using records
  | cons call rest ih =>
    have step := records_answer (additive call (by simp)) records
    have later := ih (fun other member => additive other (by simp [member])) step
    rw [run_cons, matched_cons, List.flatMap_append, ← List.append_assoc]
    exact later

/-! ### The filter -/

theorem alias?_answer_matchSpec (standard : reg.StandardOn spec)
    (known : ctx.alias? entity = some name) :
    (reg.answer ctx (.matchSpec spec)).2.alias? entity = some name := by
  obtain ⟨e, failed⟩ | ⟨c, after, derivation, done⟩ := answer_matchSpec standard ctx
  · rwa [failed]
  · rw [done]
    exact derivation.extends_context.alias?_eq known

theorem alias?_run_matches (standard : ∀ spec ∈ specs, reg.StandardOn spec)
    (known : ctx.alias? entity = some name) :
    (reg.run ctx (specs.map .matchSpec)).2.alias? entity = some name := by
  induction specs generalizing ctx with
  | nil => exact known
  | cons spec rest ih =>
    exact ih (fun other member => standard other (by simp [member]))
      (alias?_answer_matchSpec (standard spec (by simp)) known)

-- Induction on the specifications. The aliases are those that the last context has, so each match
-- needs that the ones after it keep what it has derived.
theorem filter_run_matches {aliasOf : EntityType → String} (other : Leaf → Condition)
    (standard : ∀ spec ∈ specs, reg.StandardOn spec) (records : ctx.Records cs)
    (named : ∀ entity name, (reg.run ctx (specs.map .matchSpec)).2.alias? entity = some name →
      aliasOf entity = name) :
    (reg.run ctx (specs.map .matchSpec)).2.query.filter =
      (Spec.imageEach aliasOf other cs.length
        (matched (specs.map .matchSpec) (reg.run ctx (specs.map .matchSpec)).1)).foldl
          Condition.narrowed ctx.query.filter := by
  induction specs generalizing ctx cs with
  | nil => rfl
  | cons spec rest ih =>
    have further : ∀ spec ∈ rest, reg.StandardOn spec :=
      fun other member => standard other (by simp [member])
    obtain ⟨e, failed⟩ | ⟨c, after, derivation, done⟩ :=
      answer_matchSpec (standard spec (by simp)) ctx
    · simp only [List.map_cons, run_cons, failed, matched] at named ⊢
      exact ih further records named
    · simp only [List.map_cons, run_cons, done, matched] at named ⊢
      have image : [c] = Spec.imageEach aliasOf other cs.length [spec] :=
        derivation.eq_imageEach records.entries_eq fun entity name known =>
          named entity name (alias?_run_matches further known)
      have narrowing : (after.andWhere c).query.filter =
          Condition.narrowed ctx.query.filter c := by
        rw [← derivation.extends_context.filter_eq]
        rfl
      have later := ih further (records_andWhere derivation records) named
      simp only [Spec.imageEach, List.cons.injEq, and_true] at image
      rw [later, narrowing, Spec.imageEach, List.foldl_cons, ← image, List.length_append]

/-- In a context whose filter and parameters come from matches alone, whatever its clauses and
aliases are, the parameters are those of the comparisons that matched, numbered from zero in their
order, and the filter refers to them in that order. Further matches narrow the filter by the images
of the specifications that match, each numbered on from those before it. -/
theorem run_matches_eq_images (reg : Registry Leaf) (history : List (Call Leaf))
    (additive : ∀ call ∈ history, reg.Additive call) (specs : List (Spec Leaf))
    (standard : ∀ spec ∈ specs, reg.StandardOn spec) (other : Leaf → Condition) :
    let opened := reg.run {} history
    let ran := reg.run opened.2 (specs.map .matchSpec)
    let earlier := (matched history opened.1).flatMap Spec.comparisons
    let later := matched (specs.map .matchSpec) ran.1
    let comparisons := earlier ++ later.flatMap Spec.comparisons
    ran.2.query.parameters.entries = numbered comparisons ∧
    ran.2.query.filterNames = (numbered comparisons).map Prod.fst ∧
    ran.2.query.filter =
      (Spec.imageEach (fun entity => (ran.2.aliasFor entity).1) other earlier.length later).foldl
        Condition.narrowed opened.2.query.filter := by
  intro opened ran earlier later comparisons
  have fresh : ({} : Context).Records [] := ⟨rfl, rfl⟩
  have before : opened.2.Records earlier := by simpa using records_run additive fresh
  have matches_additive : ∀ call ∈ specs.map Call.matchSpec, reg.Additive call := by
    intro call member
    obtain ⟨spec, inside, rfl⟩ := List.mem_map.1 member
    exact standard spec inside
  have after := records_run matches_additive before
  refine ⟨after.entries_eq, after.filterNames_eq, filter_run_matches other standard before ?_⟩
  intro entity name known
  rw [Context.aliasFor_of_alias? known]

/-- A field with the name that the second parameter for another field has. -/
def firstBook : FieldCompare :=
  ⟨⟨"app.Order"⟩, "item_1", .equal, .text "book", by decide⟩

def noPen : FieldCompare :=
  ⟨⟨"app.Order"⟩, "item", .notEqual, .text "pen", by decide⟩

def atNoon : FieldCompare :=
  ⟨⟨"app.Visit"⟩, "hour", .equal, .int 12, by decide⟩

def orderHistory : List (Call Marker) :=
  [.addRoot ⟨"app.Order"⟩ "o", .matchSpec (.field firstBook)]

/-- The first one fails when it has bound a parameter and derived an alias already. -/
def laterSpecs : List (Spec Marker) :=
  [.allOf (.field atNoon) [.leaf ⟨"unknown"⟩], .not (.not (.field noPen)),
    .anyOf (.field atNoon) [.any]]

theorem run_matches_eq_images_laterSpecs :
    let opened := standard.run {} orderHistory
    let ran := standard.run opened.2 (laterSpecs.map .matchSpec)
    ran.2.query.parameters.entries =
      [("item_1_0", .text "book"), ("item_1", .text "pen"), ("hour_2", .int 12)] ∧
    ran.2.query.filterNames = ["item_1_0", "item_1", "hour_2"] ∧
    ran.2.query.filter = some (.all [
      .compare (.field ⟨"o", "item_1"⟩) .equal (.parameter "item_1_0"),
      .not (.not (.compare (.field ⟨"o", "item"⟩) .notEqual (.parameter "item_1"))),
      .any [.compare (.field ⟨"visit0", "hour"⟩) .equal (.parameter "hour_2"), .always]]) := by
  have additive : ∀ call ∈ orderHistory, standard.Additive call := by
    simpa [orderHistory, Additive] using standardOn_standard _
  have images := run_matches_eq_images standard orderHistory additive laterSpecs
    (fun spec _ => standardOn_standard spec) (fun _ => .always)
  exact ⟨images.1.trans rfl, images.2.1.trans rfl, images.2.2.trans rfl⟩

end Registry

end Criteria
