import Criteria.Proofs.Execution.Reporting
import Criteria.Proofs.Store.Rows

/-!
The limit on the rows of an entity. A scan is never cut short unseen: as long as
an execution does not report an entity with too many rows, every greater limit
gives the same outcome, and one that it reports has more rows than the limit
allows. The limits are compared by running two executions side by side, which
take the same rows wherever the first one goes on.
-/

set_option autoImplicit false

namespace Criteria

/-! ### Loading under two limits -/

namespace ExecutorConfig

variable {config : ExecutorConfig} {more : Nat}

theorem rowsToLoad_mono (le : config.maxRowsPerEntity ≤ more) :
    config.rowsToLoad ≤ { config with maxRowsPerEntity := more }.rowsToLoad := by
  unfold rowsToLoad
  split <;> split <;> simp_all only [] <;> omega

end ExecutorConfig

namespace Executor

variable {store : EntityStore} {config : ExecutorConfig} {q : Query} {entity : EntityType}
  {rows : List Json} {e : ExecutionError} {more max : Nat} {α β : Type}

theorem count_le_of_load (loaded : load store config entity = .ok rows)
    (countable : store.backend.size ≤ ExecutorConfig.maxLimit) :
    store.count entity ≤ config.maxRowsPerEntity := by
  have bound := Nat.le_trans (store.count_le_size entity) countable
  unfold load at loaded
  split at loaded
  · cases loaded
  · next found scanned =>
    split at loaded
    · cases loaded
    · next within =>
      have length := EntityStore.length_of_rows scanned
      unfold ExecutorConfig.rowsToLoad at length
      split at length <;> omega

theorem lt_count_of_load {name : EntityType}
    (failed : load store config entity = .error (.rowLimitExceeded name max)) :
    name = entity ∧ max = config.maxRowsPerEntity ∧ config.maxRowsPerEntity < store.count entity := by
  unfold load at failed
  split at failed
  · cases failed
  · next found scanned =>
    split at failed
    · next beyond =>
      cases failed
      have length := EntityStore.length_of_rows scanned
      exact ⟨rfl, rfl, by omega⟩
    · cases failed

/-- Under a greater limit the outcome is the same, unless an entity has too many rows for the
lesser one. -/
def Settled (outcome later : Except ExecutionError α) : Prop :=
  (∃ entity max, outcome = .error (.rowLimitExceeded entity max)) ∨ later = outcome

theorem Settled.bind {outcome later : Except ExecutionError α}
    {next next' : α → Except ExecutionError β} (first : Settled outcome later)
    (rest : ∀ value, Settled (next value) (next' value)) :
    Settled (outcome >>= next) (later >>= next') := by
  rcases first with ⟨entity, max, exceeded⟩ | same
  · exact .inl ⟨entity, max, bind_eq_error_iff.2 (.inl exceeded)⟩
  · rw [same]
    cases outcome with
    | error e => exact .inr rfl
    | ok value => exact rest value

theorem Settled.foldlM {step step' : β → α → Except ExecutionError β}
    (each : ∀ value x, Settled (step value x) (step' value x)) (xs : List α) (start : β) :
    Settled (xs.foldlM step start) (xs.foldlM step' start) := by
  induction xs generalizing start with
  | nil => exact .inr rfl
  | cons x rest ih =>
    rw [List.foldlM_cons, List.foldlM_cons]
    exact (each start x).bind fun value => ih value

theorem settled_load (le : config.maxRowsPerEntity ≤ more) (top : more ≤ ExecutorConfig.maxLimit)
    (store : EntityStore) (entity : EntityType) :
    Settled (load store config entity)
      (load store { config with maxRowsPerEntity := more } entity) := by
  -- the greatest limit has no greater one, and below it one row more than allowed is asked for
  rcases Nat.eq_or_lt_of_le le with rfl | less
  · exact .inr rfl
  have asked : config.rowsToLoad = config.maxRowsPerEntity + 1 := if_pos (Nat.lt_of_lt_of_le less top)
  have asked' := ExecutorConfig.rowsToLoad_mono le
  cases scanned : store.rows entity config.rowsToLoad with
  | error e =>
    have scanned' := EntityStore.rows_eq_error_of_le scanned asked'
    unfold load
    simp only [scanned, scanned']
    exact .inr rfl
  | ok rows =>
    by_cases beyond : config.maxRowsPerEntity < rows.length
    · unfold load
      simp only [scanned, if_pos beyond]
      exact .inl ⟨_, _, rfl⟩
    · have length := EntityStore.length_of_rows scanned
      have all : store.count entity ≤ config.rowsToLoad := by omega
      have scanned' := (EntityStore.rows_congr (Nat.le_trans all asked') all).trans scanned
      have within : ¬ more < rows.length := by omega
      unfold load
      simp only [scanned, scanned', if_neg beyond, if_neg within]
      exact .inr rfl

/-! ### Executions under two limits -/

theorem settled_fromRoots (le : config.maxRowsPerEntity ≤ more)
    (top : more ≤ ExecutorConfig.maxLimit) (store : EntityStore) (roots : List Root) :
    Settled (fromRoots store config roots)
      (fromRoots store { config with maxRowsPerEntity := more } roots) := by
  apply Settled.foldlM
  intro bindings root
  apply (settled_load le top store root.entity).bind
  intro rows
  exact .inr rfl

theorem settled_applyJoin (le : config.maxRowsPerEntity ≤ more)
    (top : more ≤ ExecutorConfig.maxLimit) (store : EntityStore) (ps : Parameters)
    (bindings : List Binding) (join : Join) :
    Settled (applyJoin store config ps bindings join)
      (applyJoin store { config with maxRowsPerEntity := more } ps bindings join) := by
  apply (settled_load le top store join.entity).bind
  intro rows
  exact .inr rfl

theorem settled_execute (le : config.maxRowsPerEntity ≤ more)
    (top : more ≤ ExecutorConfig.maxLimit) (store : EntityStore) (q : Query) :
    Settled (execute store config q)
      (execute store { config with maxRowsPerEntity := more } q) := by
  unfold execute
  split
  · exact .inr rfl
  · apply (settled_fromRoots le top store q.roots).bind
    intro bindings
    apply (Settled.foldlM (settled_applyJoin le top store q.parameters) q.joins bindings).bind
    intro joined
    -- filtering, ordering and projecting do not ask for the limit
    exact .inr rfl

/-- An execution that succeeds has loaded every entity. -/
theorem load_of_execute {results : List ResultRow} (executed : execute store config q = .ok results) :
    ∀ entity ∈ q.entities, ∃ rows, load store config entity = .ok rows := by
  unfold execute at executed
  split at executed
  · cases executed
  · obtain ⟨bindings, rooted, executed⟩ := bind_eq_ok_iff.1 executed
    obtain ⟨joined, ran, -⟩ := bind_eq_ok_iff.1 executed
    intro entity member
    rcases List.mem_append.1 member with member | member
    · obtain ⟨root, inside, rfl⟩ := List.mem_map.1 member
      obtain ⟨before, after, step⟩ := ok_of_foldlM rooted root inside
      obtain ⟨rows, loaded, -⟩ := bind_eq_ok_iff.1 step
      exact ⟨rows, loaded⟩
    · obtain ⟨join, inside, rfl⟩ := List.mem_map.1 member
      obtain ⟨before, after, step⟩ := ok_of_foldlM ran join inside
      obtain ⟨rows, loaded, -⟩ := bind_eq_ok_iff.1 step
      exact ⟨rows, loaded⟩

/-- Only loading reports too many rows. -/
theorem exists_load_of_execute
    (failed : execute store config q = .error (.rowLimitExceeded entity max)) :
    ∃ name ∈ q.entities, load store config name = .error (.rowLimitExceeded entity max) := by
  have unlike : ∀ reference : Reference, ExecutionError.rowLimitExceeded entity max ≠ reference.error := by
    intro reference
    cases reference <;> exact nofun
  by_cases rooted : q.roots = []
  · rw [execute, rooted] at failed
    cases failed
  · rw [execute_eq_stages rooted] at failed
    rcases bind_eq_error_iff.1 failed with failed | ⟨last, done, failed⟩
    · rcases cause_of_ordered failed with unloaded | ⟨aliases, reference, -, -, same⟩
      · exact unloaded
      · exact absurd same (unlike reference)
    · rcases cause_of_projection done failed with ⟨item, -, -, same⟩ | ⟨aliases, reference, -, -, same⟩
      · cases same
      · exact absurd same (unlike reference)

/-- As long as no entity has too many rows, every greater limit gives the same outcome. An execution
that succeeds has seen all rows of its entities, which are as many as the limit allows at most; one
that reports too many rows names an entity of the query that has more. No backend has more entries
than the greatest limit, since it counts them by numbers of 64 bits. -/
theorem execute_untruncated (store : EntityStore) (config : ExecutorConfig) (q : Query) :
    (∀ more, config.maxRowsPerEntity ≤ more → more ≤ ExecutorConfig.maxLimit →
      (∀ entity max, execute store config q ≠ .error (.rowLimitExceeded entity max)) →
      execute store { config with maxRowsPerEntity := more } q = execute store config q) ∧
    (∀ results, execute store config q = .ok results →
      store.backend.size ≤ ExecutorConfig.maxLimit →
      ∀ entity ∈ q.entities, store.count entity ≤ config.maxRowsPerEntity) ∧
    ∀ entity max, execute store config q = .error (.rowLimitExceeded entity max) →
      max = config.maxRowsPerEntity ∧ entity ∈ q.entities ∧
        config.maxRowsPerEntity < store.count entity := by
  refine ⟨fun more le top small => ?_, fun results executed countable entity member => ?_,
    fun entity max failed => ?_⟩
  · rcases settled_execute le top store q with ⟨entity, max, exceeded⟩ | same
    · exact absurd exceeded (small entity max)
    · exact same
  · obtain ⟨rows, loaded⟩ := load_of_execute executed entity member
    exact count_le_of_load loaded countable
  · obtain ⟨name, member, unloaded⟩ := exists_load_of_execute failed
    obtain ⟨rfl, same, beyond⟩ := lt_count_of_load unloaded
    exact ⟨same, member, beyond⟩

open EntityStore in
/-- Two users are too many for a limit of one. A limit of two is enough, and as good as the
greatest. -/
theorem execute_untruncated_twoUsers :
    execute shop { maxRowsPerEntity := ExecutorConfig.maxLimit } usersWithOrders =
      execute shop { maxRowsPerEntity := 2 } usersWithOrders ∧
    shop.count user ≤ 2 ∧
    execute shop { maxRowsPerEntity := 1 } usersWithOrders = .error (.rowLimitExceeded user 1) ∧
    1 < shop.count user := by
  obtain ⟨results, executed⟩ :
      ∃ results, execute shop { maxRowsPerEntity := 2 } usersWithOrders = .ok results := ⟨_, rfl⟩
  have exceeded :
      execute shop { maxRowsPerEntity := 1 } usersWithOrders = .error (.rowLimitExceeded user 1) := rfl
  have enough := execute_untruncated shop { maxRowsPerEntity := 2 } usersWithOrders
  have few := execute_untruncated shop { maxRowsPerEntity := 1 } usersWithOrders
  refine ⟨?_, ?_, exceeded, (few.2.2 user 1 exceeded).2.2⟩
  · apply enough.1 ExecutorConfig.maxLimit (by decide) le_rfl
    intro entity max failed
    cases executed.symm.trans failed
  · exact enough.2.1 results executed (by decide +kernel) user (by decide)

end Executor

end Criteria
