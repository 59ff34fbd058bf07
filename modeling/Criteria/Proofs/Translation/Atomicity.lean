import Criteria.Proofs.Translation.Frame
import Criteria.Proofs.Translation.Meaning
import Criteria.Proofs.Translation.Procedure

/-!
A match either narrows the filter or has not happened. The handlers that it calls may
do what they like to the context before they fail: aliases and query are put back. The
registry is not, so that later translations are the same only if the handlers have left
the context with its registry, as those do that reach it by calls alone.
-/

set_option autoImplicit false

namespace Criteria

/-- A filter narrowed by a condition. Aliases and parameters may have come after those there were,
and nothing else is different. -/
structure Context.Narrows (before : Context) (c : Condition) (after : Context) : Prop where
  registry_eq : after.registry = before.registry
  filter_eq : after.query.filter = some (match before.query.filter with
    | none => c
    | some old => old.andAlso c)
  select_eq : after.query.select = before.query.select
  roots_eq : after.query.roots = before.query.roots
  joins_eq : after.query.joins = before.query.joins
  order_eq : after.query.order = before.query.order
  parameters : before.query.parameters.entries <+: after.query.parameters.entries
  derivedAlias?_eq : ∀ entity name, before.derivedAlias? entity = some name →
    after.derivedAlias? entity = some name

theorem Context.Extends.narrows {before after : Context} (grown : before.Extends after)
    (c : Condition) : before.Narrows c (after.andWhere c) where
  registry_eq := grown.registry_eq
  filter_eq := by
    cases filter : before.query.filter with
    | none => simp [andWhere, grown.filter_eq, filter]
    | some old => simp [andWhere, grown.filter_eq, filter]
  select_eq := grown.select_eq
  roots_eq := grown.roots_eq
  joins_eq := grown.joins_eq
  order_eq := grown.order_eq
  parameters := grown.parameters
  derivedAlias?_eq := fun _ _ derived => grown.derivedAlias?_eq derived

/-! ### Handlers that keep the registry -/

def Context.SameRegistry (before after : Context) : Prop :=
  after.registry = before.registry

variable {Leaf Object : Type}

/-- The handler leaves a context with its registry, if the translations that it is given do. -/
def Handler.KeepsRegistry (handler : Handler Leaf) : Prop :=
  ∀ make, handler.makeCondition? = some make →
    ∀ (n : Nat) (spec : Spec Leaf) (children : List (Translation Condition)),
      (∀ child ∈ children, child.Moves Context.SameRegistry n) →
      (make spec children).Moves Context.SameRegistry n

def Registry.KeepsRegistry (reg : Registry Leaf) : Prop :=
  ∀ handler ∈ reg.handlers, handler.KeepsRegistry

theorem Registry.KeepsRegistry.addHandler {reg : Registry Leaf} {handler : Handler Leaf}
    (kept : reg.KeepsRegistry) (one : handler.KeepsRegistry) :
    (reg.addHandler handler).KeepsRegistry := by
  intro other member
  rcases List.mem_append.1 member with before | last
  · exact kept other before
  · exact List.mem_singleton.1 last ▸ one

/-- A match puts the context back, but for the registry, or narrows its filter. -/
theorem Translation.Moves.andWhere {t : Translation Condition} {n : Nat}
    (moves : t.Moves Context.SameRegistry n) : t.andWhere.Moves Context.SameRegistry n := by
  intro ctx refers
  have same := moves ctx refers
  unfold Translation.andWhere
  cases ran : t ctx with
  | mk outcome after =>
    rw [ran] at same
    cases outcome <;> exact same

variable [SpecLeaf Leaf Object]

namespace Registries

variable {regs : Registries Leaf} {spec : Spec Leaf} {ctx after : Context} {n : Nat}
  {e : TranslationError}

end Registries

namespace Registry

/-- A handler that puts a fresh context with another registry in the place of the one that it is
given, before it fails. -/
def deserter : Handler Marker where
  name := "Deserter"
  handles := .leaf "deserted"
  makeCondition? := some fun spec _ => do
    Translation.ofStep fun _ => ((), { registry := 1 })
    .fail { type := spec.type, reason := .noHandler }

-- Aliases and query are back, but the next match looks for its handler in the other registry.
example :
    let regs : Registries Marker := fun | 0 => standard.addHandler deserter | _ => {}
    let answers calls := (regs.run openedOrders calls).1
    answers [.matchSpec .any] = [.done] ∧
    answers [.matchSpec (.leaf ⟨"deserted"⟩), .matchSpec .any] =
      [.failed { type := .leaf "deserted", reason := .noHandler },
        .failed { type := .any, reason := .noHandler }] :=
  ⟨rfl, rfl⟩

end Registry

end Criteria
