import Criteria.Proofs.Translation.Lookup
import Mathlib.Data.List.Perm.Basic
import Std.Data.HashMap.Lemmas

/-!
Registries as a table of handlers by type, beside which the order of the types is
kept. Table and order are changed in different cases of a registration, and stay in
step with each other and with the registry that has its handlers in one list.
-/

set_option autoImplicit false

namespace Criteria

deriving instance Hashable for SpecType

structure IndexedRegistry (Leaf : Type) where
  config : RegistryConfig := {}
  table : Std.HashMap SpecType (Handler Leaf) := {}
  /-- The types of the table, in the order in which they were first registered. -/
  order : List SpecType := []

variable {Leaf : Type}

namespace IndexedRegistry

def register (indexed : IndexedRegistry Leaf) (handler : Handler Leaf) :
    Except RegistrationError (IndexedRegistry Leaf) :=
  let inserted := indexed.table.insert handler.handles handler
  match indexed.table[handler.handles]? with
  | some existing =>
    match indexed.config.duplicatePolicy with
    | .reject => .error ⟨handler.handles, existing.name, handler.name⟩
    | .replace => .ok { indexed with table := inserted }
  | none => .ok { indexed with table := inserted, order := indexed.order ++ [handler.handles] }

def registerAll (indexed : IndexedRegistry Leaf) :
    List (Handler Leaf) → Except RegistrationError Unit × IndexedRegistry Leaf
  | [] => (.ok (), indexed)
  | handler :: rest =>
    match indexed.register handler with
    | .ok indexed => indexed.registerAll rest
    | .error e => (.error e, indexed)

/-- The same handlers, in the same order. -/
structure InStep (indexed : IndexedRegistry Leaf) (reg : Registry Leaf) : Prop where
  config_eq : indexed.config = reg.config
  order_eq : indexed.order = reg.types
  getElem?_eq : ∀ type, indexed.table[type]? = reg.lookup? type

variable {indexed : IndexedRegistry Leaf} {reg next : Registry Leaf} {handler : Handler Leaf}
  {type : SpecType}

theorem InStep.mem_table_iff (inStep : indexed.InStep reg) :
    type ∈ indexed.table ↔ type ∈ reg.types := by
  rw [Std.HashMap.mem_iff_isSome_getElem?, inStep.getElem?_eq, ← Registry.contains_iff,
    Registry.contains]

theorem InStep.size_eq (inStep : indexed.InStep reg) (distinct : reg.types.Nodup) :
    indexed.table.size = reg.size := by
  have same : indexed.table.keys.Perm reg.types := by
    rw [List.perm_ext_iff_of_nodup Std.HashMap.nodup_keys distinct]
    intro type
    rw [Std.HashMap.mem_keys, inStep.mem_table_iff]
  rw [← Std.HashMap.length_keys, same.length_eq, Registry.types, List.length_map, Registry.size]

theorem InStep.register_error {e : RegistrationError} (inStep : indexed.InStep reg)
    (refused : reg.register handler = .error e) : indexed.register handler = .error e := by
  obtain ⟨rejects, existing, known, rfl⟩ := Registry.register_eq_error_iff.1 refused
  have listed := (inStep.getElem?_eq handler.handles).trans known
  simp only [register, listed, inStep.config_eq, rejects]

theorem InStep.register_ok (inStep : indexed.InStep reg)
    (registered : reg.register handler = .ok next) :
    ∃ grown, indexed.register handler = .ok grown ∧ grown.InStep next := by
  have does := Registry.registers_of_register registered
  have table : ∀ type, (indexed.table.insert handler.handles handler)[type]? = next.lookup? type := by
    intro type
    rw [Std.HashMap.getElem?_insert, does.lookup?_eq, inStep.getElem?_eq]
    by_cases same : type = handler.handles
    · rw [if_pos (beq_iff_eq.2 same.symm), if_pos same]
    · rw [if_neg (by simpa using Ne.symm same), if_neg same]
  have config : indexed.config = next.config := inStep.config_eq.trans does.config_eq.symm
  have listed := inStep.getElem?_eq handler.handles
  unfold register
  cases known : reg.lookup? handler.handles with
  | none =>
    have order : indexed.order ++ [handler.handles] = next.types := by
      rw [does.types_eq, if_neg (Registry.lookup?_eq_none_iff.1 known), inStep.order_eq]
    rw [listed, known]
    exact ⟨_, rfl, config, order, table⟩
  | some existing =>
    have present := Registry.mem_types_of_lookup? known
    have order : indexed.order = next.types := by
      rw [does.types_eq, if_pos present, inStep.order_eq]
    rw [listed, known]
    cases policy : indexed.config.duplicatePolicy with
    | reject => exact absurd present (does.free (by rw [← inStep.config_eq, policy]))
    | replace => exact ⟨_, rfl, config, order, table⟩

theorem InStep.registerAll (inStep : indexed.InStep reg) (handlers : List (Handler Leaf)) :
    (indexed.registerAll handlers).1 = (reg.registerAll handlers).1 ∧
      (indexed.registerAll handlers).2.InStep (reg.registerAll handlers).2 := by
  induction handlers generalizing indexed reg with
  | nil => exact ⟨rfl, inStep⟩
  | cons handler rest ih =>
    unfold IndexedRegistry.registerAll Registry.registerAll
    cases outcome : reg.register handler with
    | error e =>
      rw [inStep.register_error outcome]
      exact ⟨rfl, inStep⟩
    | ok next =>
      obtain ⟨grown, registered, stays⟩ := inStep.register_ok outcome
      rw [registered]
      exact ih stays

theorem inStep_empty (config : RegistryConfig) :
    ({ config := config } : IndexedRegistry Leaf).InStep { config := config } where
  config_eq := rfl
  order_eq := rfl
  getElem?_eq _ := Std.HashMap.getElem?_empty

end IndexedRegistry

end Criteria
