import Criteria.Proofs.Context.Derivation
import Criteria.Proofs.Execution.Projection
import Criteria.Proofs.Text.Lowercase
import Criteria.Proofs.Translation.Rules

/-!
Derived aliases as they stand in conditions and select lists, which is unquoted. The name of an
entity is not checked, and lower case mends little of it: an alias is an identifier if the short
name is one already, and else it may be anything. Fields and parameters are words throughout.
-/

set_option autoImplicit false

namespace Criteria

namespace EntityType

/-- Without the separators before it a text begins with a segment, unless it was nothing else. -/
theorem takeWhile_dropWhile_eq_nil_iff (cs : List Char) :
    (cs.dropWhile isSeparator).takeWhile (!isSeparator ·) = [] ↔
      ∀ c ∈ cs, isSeparator c = true := by
  induction cs with
  | nil => simp
  | cons c rest ih =>
    rw [List.dropWhile_cons, List.forall_mem_cons]
    cases separates : isSeparator c with
    | true => simpa using ih
    | false => simp [separates]

/-- A short name has a point only if the name has no segments. -/
theorem point_mem_shortName_iff {entity : EntityType} : '.' ∈ entity.shortName.toList ↔
    (∀ c ∈ entity.name.toList, isSeparator c = true) ∧ '.' ∈ entity.name.toList := by
  have empty := takeWhile_dropWhile_eq_nil_iff entity.name.toList.reverse
  simp only [List.mem_reverse] at empty
  rw [← empty, shortName]
  simp only [List.isEmpty_iff]
  split
  · next blank => simp [blank]
  · next found =>
    -- points are separators, and a segment has none
    rw [String.toList_ofList, List.mem_reverse]
    constructor
    · intro member
      have kept := List.mem_takeWhile_imp member
      simp [isSeparator] at kept
    · exact fun both => absurd both.1 found

end EntityType

namespace Context

variable {ctx : Context} {entity : EntityType} {n : Nat}

theorem isIdentifier_numberedAlias : isIdentifier (numberedAlias entity n) =
    isIdentifier (entity.shortName.map LetterCase.plain) :=
  (isIdentifier_append_toString _ n).trans (isIdentifier_lowercase _)

theorem point_mem_numberedAlias_iff :
    '.' ∈ (numberedAlias entity n).toList ↔ '.' ∈ entity.shortName.toList := by
  have digits : '.' ∉ (toString n).toList := fun member => by
    have digit := isDigit_of_mem_toString member
    simp at digit
  rw [numberedAlias, String.toList_append, List.mem_append, point_mem_lowercase_iff]
  exact or_iff_left digits

theorem text_comparison (ctx : Context) (c : FieldCompare) : (ctx.comparison c).text =
    (ctx.aliasFor c.entity).1 ++ "." ++ c.field ++ " " ++ c.op.symbol ++ " :" ++
      ctx.query.parameters.freshName c.field := by
  have colon : " :" = " " ++ ":" := rfl
  rw [comparison, Condition.text, Operand.text, Operand.text, FieldRef.text, colon]
  simp only [String.append_assoc]

end Context

namespace Registry

variable {Leaf Object : Type} [SpecLeaf Leaf Object] {reg : Registry Leaf}

-- Beyond the capital letters only the Kelvin sign has a letter of ASCII for its lower case. Of the
-- separators only points matter to select items, and only a name without segments leaves them in.
/-- An entity that no FROM clause names, after any calls, with procedures for handlers. Its alias is
an identifier exactly if the short name is one, Kelvin signs read as letters; comparisons of its
fields are written with the alias before a point and an identifier after it, whatever the alias is;
and the alias as a select item stands for the row just if the name has a segment or no points. -/
theorem derived_unquoted_iff (procs : reg.Procedures) (calls : List (Call Leaf))
    (entity : EntityType) (unnamed : (reg.run {} calls).2.query.rootAlias? entity = none) :
    let ctx := (reg.run {} calls).2
    let name := (ctx.aliasFor entity).1
    (isIdentifier name = true ↔ isIdentifier (entity.shortName.map LetterCase.plain) = true) ∧
    (reg.lookup? .field = some .fieldCompare → ∀ c : FieldCompare, c.entity = entity →
      ∃ condition parameter after, reg.translate (.field c) ctx = (.ok condition, after) ∧
        condition.text = name ++ "." ++ c.field ++ " " ++ c.op.symbol ++ " :" ++ parameter ∧
        isIdentifier c.field = true ∧ IsWord parameter) ∧
    ((∀ binding, Executor.selectItem binding name = binding.row name) ↔
      ¬ ((∀ c ∈ entity.name.toList, EntityType.isSeparator c = true) ∧
        '.' ∈ entity.name.toList)) := by
  intro ctx name
  have spelled : ctx.Spelled := (procs.leads_run {} calls).spelled Context.spelled_empty
  obtain ⟨n, numbered⟩ : ∃ n, name = Context.numberedAlias entity n :=
    spelled.exists_number unnamed
  refine ⟨?_, ?_, ?_⟩
  · rw [numbered, Context.isIdentifier_numberedAlias]
  · rintro handled c rfl
    exact ⟨ctx.comparison c, _, _, translate_field handled ctx c, ctx.text_comparison c,
      c.isIdentifier_field, Parameters.isWord_numberedName _ _⟩
  · rw [Executor.selectItem_row_iff, numbered, Context.point_mem_numberedAlias_iff,
      EntityType.point_mem_shortName_iff]

/-- Clauses of a handler, and one that takes the first candidate. -/
def measured : List (Call Marker) :=
  [.matchSpec (.leaf ⟨"meddled"⟩), .addRoot ⟨"lab.Probe"⟩ "kelvin0"]

theorem derived_unquoted_iff_kelvin :
    let ctx := (meddled.run {} measured).2
    let entity : EntityType := ⟨"lab.\u212aelvin"⟩
    ctx.query.rootAlias? entity = none ∧ (ctx.aliasFor entity).1 = "kelvin1" ∧
    isIdentifier "kelvin1" = true ∧
    (∃ condition parameter after, meddled.translate
        (.field ⟨entity, "degrees", .atLeast, .int 300, by decide⟩) ctx = (.ok condition, after) ∧
      condition.text = "kelvin1.degrees >= :" ++ parameter) ∧
    ∀ binding, Executor.selectItem binding "kelvin1" = binding.row "kelvin1" := by
  intro ctx entity
  have unnamed : (meddled.run {} measured).2.query.rootAlias? ⟨"lab.\u212aelvin"⟩ = none := by
    decide +kernel
  have name : ((meddled.run {} measured).2.aliasFor ⟨"lab.\u212aelvin"⟩).1 = "kelvin1" := by
    decide +kernel
  have unquoted := derived_unquoted_iff meddledProcedures measured _ unnamed
  simp only [name] at unquoted
  obtain ⟨identifier, written, selected⟩ := unquoted
  have letters : ¬ ∀ c ∈ entity.name.toList, EntityType.isSeparator c = true := fun blank =>
    absurd (blank 'l' (by decide +kernel)) (by decide)
  refine ⟨unnamed, name, identifier.2 (by decide +kernel), ?_, selected.2 (letters ·.1)⟩
  obtain ⟨condition, parameter, after, made, text, -⟩ :=
    written rfl ⟨entity, "degrees", .atLeast, .int 300, by decide⟩ rfl
  exact ⟨condition, parameter, after, made, text⟩

/-- A hyphen in the name of an entity comes into its conditions, where the alias reads as a
difference; and the alias of a name that is nothing but points cannot be selected. -/
theorem derived_hyphenated :
    let ctx : Context := {}
    let lines : EntityType := ⟨"shop.order-line"⟩
    ctx.query.rootAlias? lines = none ∧ (ctx.aliasFor lines).1 = "order-line0" ∧
    isIdentifier "order-line0" = false ∧
    (∃ condition after, standard.translate
        (.field ⟨lines, "weight", .equal, .int 1, by decide⟩ : Spec Marker) ctx =
          (.ok condition, after) ∧ condition.text = "order-line0.weight = :weight_0") ∧
    (ctx.aliasFor ⟨".."⟩).1 = "..0" ∧ isIdentifier "..0" = false ∧
    Executor.selectItem [("..0", .null)] "..0" = .error (.unsupportedSelect "..0") := by
  intro ctx lines
  have name : (ctx.aliasFor lines).1 = "order-line0" := by decide +kernel
  have handled : (standard : Registry Marker).lookup? .field = some .fieldCompare := rfl
  refine ⟨rfl, name, by decide, ?_, by decide +kernel, by decide, rfl⟩
  refine ⟨_, _, translate_field handled ctx _, ?_⟩
  rw [ctx.text_comparison, name]
  decide +kernel

end Registry

end Criteria
