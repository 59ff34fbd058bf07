import Criteria.Proofs.Translation.Rules

/-! What holds between the contexts before and after a translation, whether it succeeds or fails.
The standard handlers only let a context grow, and so they keep all that holds along growth. -/

set_option autoImplicit false

namespace Criteria

variable {α β : Type}

/-- A relation of contexts to later ones that refer to the same registry. -/
structure Context.Frame (rel : Context → Context → Prop) : Prop where
  of_extends : ∀ {before after}, before.Extends after → rel before after
  trans : ∀ {first second third}, rel first second → rel second third → rel first third
  registry_eq : ∀ {before after}, rel before after → after.registry = before.registry

theorem Context.frame_extends : Frame Extends :=
  ⟨id, Extends.trans, Extends.registry_eq⟩

/-- From contexts that refer to registry `n`, the translation comes to related ones. -/
def Translation.Moves (rel : Context → Context → Prop) (n : Nat) (t : Translation α) : Prop :=
  ∀ ctx : Context, ctx.registry = n → rel ctx (t ctx).2

namespace Context.Frame

open Translation

variable {rel : Context → Context → Prop} {n : Nat} (frame : Frame rel)

include frame

theorem pure (value : α) : Moves rel n (Pure.pure value : Translation α) :=
  fun ctx _ => frame.of_extends (.refl ctx)

theorem fail (e : TranslationError) : Moves rel n (Translation.fail e : Translation α) :=
  fun ctx _ => frame.of_extends (.refl ctx)

theorem bind {t : Translation α} {next : α → Translation β} (first : t.Moves rel n)
    (rest : ∀ value, (next value).Moves rel n) : Moves rel n (t >>= next) := by
  intro ctx refers
  have early := first ctx refers
  cases ran : t ctx with
  | mk outcome mid =>
    rw [ran] at early
    cases outcome with
    | error e => rwa [bind_of_error ran]
    | ok value =>
      rw [bind_of_ok ran]
      exact frame.trans early (rest value mid ((frame.registry_eq early).trans refers))

omit frame in
theorem within {t : Translation α} (moves : t.Moves rel n) (handler : String) :
    Moves rel n (Translation.within handler t) := by
  intro ctx refers
  have moved := moves ctx refers
  unfold Translation.within
  cases ran : t ctx with
  | mk outcome mid =>
    rw [ran] at moved
    cases outcome <;> exact moved

theorem mapM {ts : List (Translation α)} {step : Translation α → Translation β}
    (each : ∀ t ∈ ts, (step t).Moves rel n) : Moves rel n (ts.mapM step) := by
  induction ts with
  | nil => exact frame.pure []
  | cons t rest ih =>
    have tail := ih fun other member => each other (by simp [member])
    rw [List.mapM_cons]
    exact frame.bind (each t (by simp)) fun value =>
      frame.bind tail fun values => frame.pure (value :: values)

variable {Leaf Object : Type} [SpecLeaf Leaf Object] {children : List (Translation Condition)}

theorem translateChildren {name : String} {spec : Spec Leaf}
    (each : ∀ child ∈ children, child.Moves rel n) :
    Moves rel n (Handler.translateChildren name spec children) := by
  cases children with
  | nil => exact frame.fail _
  | cons first rest => exact frame.mapM fun child member => within (each child member) name

/-- A standard handler does nothing to the context itself but add a field comparison. -/
theorem standard {type : SpecType} {handler : Handler Leaf} {make : ConditionMaker Leaf}
    (known : Handler.standard? type = some handler) (makes : handler.makeCondition? = some make)
    (spec : Spec Leaf) (each : ∀ child ∈ children, child.Moves rel n) :
    Moves rel n (make spec children) := by
  cases type with
  | allOf =>
    cases known
    cases makes
    cases spec with
    | allOf => exact frame.bind (frame.translateChildren each) fun parts => frame.pure _
    | _ => exact frame.fail _
  | anyOf =>
    cases known
    cases makes
    cases spec with
    | anyOf => exact frame.bind (frame.translateChildren each) fun parts => frame.pure _
    | _ => exact frame.fail _
  | not =>
    cases known
    cases makes
    cases spec with
    | not child =>
      cases children with
      | nil => exact frame.fail _
      | cons first rest => exact frame.bind (each first (by simp)) fun part => frame.pure _
    | _ => exact frame.fail _
  | any =>
    cases known
    cases makes
    cases spec with
    | any => exact frame.pure _
    | _ => exact frame.fail _
  | field =>
    cases known
    cases makes
    cases spec with
    | field c =>
      have derives : Moves rel n (.ofStep (Context.fieldOf · c.entity c.field)) :=
        fun ctx _ => frame.of_extends (extends_aliasFor ctx c.entity)
      have binds : Moves rel n (.ofStep (Context.bindParameter · c.field c.value)) :=
        fun ctx _ => frame.of_extends (extends_bindParameter ctx c.field c.value)
      exact frame.bind derives fun ref => frame.bind binds fun name => frame.pure _
    | _ => exact frame.fail _
  | leaf name => cases known

end Context.Frame

variable {Leaf Object : Type} [SpecLeaf Leaf Object]

namespace Registries

variable {regs : Registries Leaf} {spec : Spec Leaf} {ctx : Context} {n : Nat}

/-- A relation that the handlers for the nodes keep, given translations that keep it, is kept by the
translation of the tree. -/
theorem moves_translate {rel : Context → Context → Prop} (frame : Context.Frame rel)
    (keep : ∀ node ∈ spec.nodes, ∀ handler make, (regs n).lookup? node.type = some handler →
      handler.makeCondition? = some make → ∀ children : List (Translation Condition),
      (∀ child ∈ children, child.Moves rel n) → (make node children).Moves rel n) :
    (regs.translate spec).Moves rel n := by
  induction spec using Spec.induction with
  | node spec ih =>
    intro ctx refers
    rw [regs.translate_eq]
    unfold makeCondition Registry.makeCondition
    rw [refers]
    cases chosen : (regs n).conditionHandlerFor spec with
    | error e => exact frame.fail e ctx refers
    | ok pair =>
      obtain ⟨found, makes⟩ := Registry.conditionHandlerFor_eq_ok chosen
      refine keep spec spec.self_mem_nodes pair.1 pair.2 found makes _ ?_ ctx refers
      intro child member
      obtain ⟨inner, position, rfl⟩ := List.mem_map.1 member
      exact ih inner position fun node inside =>
        keep node (Spec.nodes_subset_of_child position inside)

theorem grows_translate (standard : (regs ctx.registry).StandardOn spec) :
    ctx.Extends (regs.translate spec ctx).2 := by
  have grows : (regs.translate spec).Moves Context.Extends ctx.registry := by
    refine moves_translate Context.frame_extends fun node inside handler make found makes => ?_
    have known := standard node inside handler found (by simp [makes])
    exact fun children => Context.frame_extends.standard known makes node
  exact grows ctx rfl

end Registries

theorem Registry.grows_translate {reg : Registry Leaf} {spec : Spec Leaf}
    (standard : reg.StandardOn spec) (ctx : Context) : ctx.Extends (reg.translate spec ctx).2 :=
  Registries.grows_translate standard

end Criteria
