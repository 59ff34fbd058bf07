/-! Values by name, in ascending order of the names and one for each name. -/

set_option autoImplicit false

namespace Criteria

abbrev Dictionary (α : Type) := List (String × α)

namespace Dictionary

variable {α : Type}

/-- Every name comes before all later ones. -/
def Sorted (entries : Dictionary α) : Prop :=
  entries.Pairwise fun a b => a.1 < b.1

def find? (entries : Dictionary α) (name : String) : Option α :=
  entries.lookup name

/-- Puts a value at its name's place, for the value there if there is one. -/
def insert (name : String) (value : α) : Dictionary α → Dictionary α
  | [] => [(name, value)]
  | (other, kept) :: rest =>
    if name < other then (name, value) :: (other, kept) :: rest
    else if name = other then (name, value) :: rest
    else (other, kept) :: insert name value rest

/-- The entries of a list in order; of several with one name the last. -/
def ofList (entries : List (String × α)) : Dictionary α :=
  entries.foldl (fun sorted entry => sorted.insert entry.1 entry.2) []

@[simp] theorem find?_nil (name : String) : find? ([] : Dictionary α) name = none := rfl

theorem find?_cons (name first : String) (kept : α) (rest : Dictionary α) :
    find? ((first, kept) :: rest) name = if name = first then some kept else rest.find? name := by
  by_cases h : name = first
  · simp [find?, h]
  · simp [find?, List.lookup_cons, beq_false_of_ne h, h]

theorem find?_insert (name other : String) (value : α) (entries : Dictionary α) :
    (entries.insert name value).find? other =
      if other = name then some value else entries.find? other := by
  induction entries with
  | nil => simp [insert, find?_cons]
  | cons entry rest ih =>
    obtain ⟨first, kept⟩ := entry
    simp only [insert]
    split
    · simp [find?_cons]
    · split
      · next eq => subst eq; by_cases h : other = name <;> simp [find?_cons, h]
      · next ne =>
        rw [find?_cons, ih, find?_cons]
        by_cases h : other = first
        · subst h; simp [Ne.symm ne]
        · simp [h]

end Dictionary

end Criteria
