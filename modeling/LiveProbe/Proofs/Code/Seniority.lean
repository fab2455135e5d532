import LiveProbe.Proofs.Code.Catalog

/-!
The registry as the history of its registrations. Paths and base names of different files are keys
of one table, and a unit is not always registered under its own path; still, what is known under a
key is the unit of the earliest registration that has it.
-/
namespace LiveProbe

abbrev Registration := String × CompiledUnit

def CompiledUnit.registration (u : CompiledUnit) : Registration := (u.path, u)

namespace CodeRegistry

variable {path key location : String} {unit : CompiledUnit} {r : CodeRegistry}
  {history later : List Registration}

def earliest (key : String) (history : List Registration) : Option CompiledUnit :=
  (history.find? fun e => (keysOf e.1).contains key).map (·.2)

def eldest (location : String) (history : List Registration) : Option CompiledUnit :=
  (earliest location history).or (earliest (Text.basename location) history)

def Novel (path : String) (history : List Registration) : Prop :=
  ∃ key ∈ keysOf path, ∀ e ∈ history, key ∉ keysOf e.1

instance (path : String) (history : List Registration) : Decidable (Novel path history) :=
  inferInstanceAs (Decidable (∃ key ∈ keysOf path, ∀ e ∈ history, key ∉ keysOf e.1))

theorem earliest_append (key : String) (history later : List Registration) :
    earliest key (history ++ later) = (earliest key history).or (earliest key later) := by
  unfold earliest
  rw [List.find?_append, Option.map_or]

theorem earliest_singleton (key path : String) (unit : CompiledUnit) :
    earliest key [(path, unit)] = if key ∈ keysOf path then some unit else none := by
  by_cases own : key ∈ keysOf path <;> simp [earliest, own]

theorem earliest_eq_none : earliest key history = none ↔ ∀ e ∈ history, key ∉ keysOf e.1 := by
  simp [earliest, List.find?_eq_none]

theorem earliest_of_earlier (found : earliest key history = some unit) (later : List Registration) :
    earliest key (history ++ later) = some unit := by
  rw [earliest_append, found, Option.some_or]

theorem isSome_eldest_append (found : (eldest location history).isSome = true)
    (later : List Registration) : (eldest location (history ++ later)).isSome = true := by
  unfold eldest at found ⊢
  rw [Option.isSome_or, Bool.or_eq_true] at found
  rw [earliest_append, earliest_append]
  rcases found with exact | base
  · simp [Option.isSome_or, exact]
  · simp [Option.isSome_or, base]

theorem eldest_of_base (base : Text.basename location = location) (history : List Registration) :
    eldest location history = earliest location history := by
  unfold eldest
  rw [base, Option.or_self]

/-- What is known under a key is what was registered first. -/
def Records (r : CodeRegistry) (history : List Registration) : Prop :=
  ∀ key, Table.get? key r.units = earliest key history

namespace Records

theorem empty : ({} : CodeRegistry).Records [] := fun _ => rfl

theorem register (records : r.Records history) (path : String) (unit : CompiledUnit) :
    (r.register path unit).2.Records (history ++ [(path, unit)]) := by
  intro key
  rw [get?_register, records key, earliest_append, earliest_singleton]

theorem lookup (records : r.Records history) (location : String) :
    r.lookup location = eldest location history := by
  unfold CodeRegistry.lookup eldest
  rw [records, records]
  cases earliest location history <;> rfl

theorem unknown_iff (records : r.Records history) :
    Table.contains key r.units = false ↔ ∀ e ∈ history, key ∉ keysOf e.1 := by
  unfold Table.contains
  rw [records key, Option.isSome_eq_false_iff, Option.isNone_iff_eq_none, earliest_eq_none]

theorem register_novel (records : r.Records history) (path : String) (unit : CompiledUnit) :
    (r.register path unit).1 = true ↔ Novel path history := by
  rw [← Bool.not_eq_false, register_known_iff, Novel, Classical.not_forall]
  refine exists_congr fun key => ?_
  rw [← records.unknown_iff, Classical.not_imp, Bool.not_eq_true]

end Records
end CodeRegistry
end LiveProbe
