import Criteria.Execution.Executor
import Criteria.Proofs.Execution.Tuples
import Mathlib.Data.List.TakeDrop
import Mathlib.Data.List.TakeWhile

/-! Projection: the columns that select items stand for, read off the text of the items. -/

set_option autoImplicit false

namespace Criteria

/-- What a select item stands for. -/
inductive Column where
  | row (aliasName : String)
  | field (ref : FieldRef)

namespace Column

def text : Column → String
  | .row aliasName => aliasName
  | .field ref => ref.text

/-- The column is about one of these aliases, and its text can be read in no other way. -/
inductive IsAbout (names : List String) : Column → Prop where
  | row {aliasName : String} : aliasName ∈ names → '.' ∉ aliasName.toList →
    IsAbout names (.row aliasName)
  | field {ref : FieldRef} : ref.aliasName ∈ names →
    ref.aliasName ≠ "" → '.' ∉ ref.aliasName.toList → ref.field ≠ "" → '.' ∉ ref.field.toList →
    IsAbout names (.field ref)

def value (t : Tuple) : Column → Json
  | .row aliasName => t.row aliasName
  | .field ref => ((t.row ref.aliasName).get? ref.field).getD .null

end Column

/-- The columns of a tuple; all its rows when there are none to select. -/
def Tuple.project (columns : List Column) (t : Tuple) : ResultRow :=
  if columns.isEmpty then ⟨t.binding⟩
  else ⟨columns.map fun column => (column.text, column.value t)⟩

namespace Executor

variable {t : Tuple} {columns : List Column}

theorem span_of_notMem {cs : List Char} (absent : '.' ∉ cs) : cs.span (· != '.') = (cs, []) := by
  have passed : ∀ c ∈ cs, (c != '.') = true := fun c member =>
    bne_iff_ne.2 fun same => absent (same ▸ member)
  rw [List.span_eq_takeWhile_dropWhile, List.takeWhile_eq_self_iff.2 passed,
    List.dropWhile_eq_nil_iff.2 passed]

theorem span_append {cs : List Char} (absent : '.' ∉ cs) (rest : List Char) :
    (cs ++ '.' :: rest).span (· != '.') = (cs, '.' :: rest) := by
  have passed : ∀ c ∈ cs, (c != '.') = true := fun c member =>
    bne_iff_ne.2 fun same => absent (same ▸ member)
  rw [List.span_eq_takeWhile_dropWhile, List.takeWhile_append_of_pos passed,
    List.dropWhile_append_of_pos passed]
  simp

theorem selectItem_of_notMem {item : String} (absent : '.' ∉ item.toList) (binding : Binding) :
    selectItem binding item = binding.row item := by
  unfold selectItem
  rw [span_of_notMem absent]

/-- An item with a point stands for a field, or for nothing, so it does not stand for the row that
goes by the whole text. -/
theorem selectItem_row_iff {item : String} :
    (∀ binding, selectItem binding item = binding.row item) ↔ '.' ∉ item.toList := by
  constructor
  · intro rows present
    obtain ⟨before, after, split, first⟩ := List.eq_append_cons_of_mem present
    -- the row is there, but not under the text before the point
    have found : Binding.row [(item, .null)] item = .ok .null := by
      simp [Binding.row, Dictionary.find?_cons]
    have other : String.ofList before ≠ item := by
      intro same
      apply first
      rw [← String.toList_ofList (l := before), same]
      exact present
    have missing : Binding.row [(item, .null)] (String.ofList before) =
        .error (.unknownAlias (String.ofList before)) := by
      simp [Binding.row, Dictionary.find?_cons, other]
    have selected := rows [(item, .null)]
    rw [found, selectItem, split, span_append first] at selected
    simp only [Binding.field, missing] at selected
    split at selected <;> cases selected
  · intro absent binding
    exact selectItem_of_notMem absent binding

theorem selectItem_eq {column : Column} (distinct : t.names.Nodup)
    (about : column.IsAbout t.names) : selectItem t.binding column.text = .ok (column.value t) := by
  cases about with
  | row bound plain =>
    rw [Column.text, selectItem_of_notMem plain]
    exact Tuple.row_binding distinct bound
  | @field ref bound named plain present plainField =>
    have characters : ref.text.toList = ref.aliasName.toList ++ '.' :: ref.field.toList := by
      simp [FieldRef.text]
    unfold selectItem
    rw [Column.text, characters, span_append plain]
    -- the item has one point, and something on both sides of it
    have accepted : (ref.aliasName.toList.isEmpty || ref.field.toList.isEmpty ||
        ref.field.toList.contains '.') = false := by
      simp [named, present, plainField]
    simp only [accepted, Binding.field, String.ofList_toList, Tuple.row_binding distinct bound]
    rfl

theorem project_eq (distinct : t.names.Nodup) (about : ∀ column ∈ columns, column.IsAbout t.names) :
    project (columns.map Column.text) t.binding = .ok (t.project columns) := by
  cases columns with
  | nil => rfl
  | cons first rest =>
    have each : ∀ column ∈ first :: rest, ((fun item => do
        return (item, ← selectItem t.binding item)) ∘ Column.text) column =
          (.ok (column.text, column.value t) : Except ExecutionError (String × Json)) := by
      intro column member
      rw [Function.comp_apply, selectItem_eq distinct (about column member), ok_bind]
      rfl
    have values := mapM_eq_map each
    rw [← List.mapM_map, List.map_cons] at values
    simp only [List.map_cons, project, values, ok_bind]
    rfl

/-! ### The limit -/

theorem takeAtMost_map {α β : Type} (limit : Option Nat) (f : α → β) (items : List α) :
    takeAtMost limit (items.map f) = (takeAtMost limit items).map f := by
  cases limit with
  | none => rfl
  | some n => exact List.map_take.symm

theorem takeAtMost_subset {α : Type} (limit : Option Nat) (items : List α) :
    takeAtMost limit items ⊆ items := by
  cases limit with
  | none => exact List.Subset.refl items
  | some n => exact List.take_subset n items

end Executor

end Criteria
