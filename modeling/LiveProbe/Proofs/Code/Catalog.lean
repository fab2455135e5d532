import LiveProbe.Host.Basic
import LiveProbe.Proofs.Table

/-!
What the registry knows of the host's code. A unit is registered under the keys of its path that
are free, so the first unit under a key stays. A registry that has been told of every loaded unit
finds a file by its base name exactly if a unit of that base name has been loaded.
-/
namespace LiveProbe

namespace CodeRegistry

variable {path key : String} {unit : CompiledUnit} {r : CodeRegistry}

def registerUnder (unit : CompiledUnit) (acc : Bool × CodeRegistry) (key : String) :
    Bool × CodeRegistry :=
  (acc.1 || (acc.2.addUnder key unit).1, (acc.2.addUnder key unit).2)

theorem addUnder_eq (key : String) (unit : CompiledUnit) (r : CodeRegistry) :
    (r.addUnder key unit).2 = { r with units := (r.addUnder key unit).2.units } := by
  unfold addUnder
  split <;> rfl

theorem foldl_registerUnder_eq (keys : List String) (acc : Bool × CodeRegistry) :
    (keys.foldl (registerUnder unit) acc).2 =
      { acc.2 with units := (keys.foldl (registerUnder unit) acc).2.units } := by
  induction keys generalizing acc with
  | nil => rfl
  | cons key rest ih =>
    rw [List.foldl_cons, ih]
    dsimp only [registerUnder]
    rw [addUnder_eq]

theorem register_eq (path : String) (unit : CompiledUnit) (r : CodeRegistry) :
    (r.register path unit).2 = { r with units := (r.register path unit).2.units } :=
  foldl_registerUnder_eq (keysOf path) (false, r)

theorem get?_addUnder (key other : String) (unit : CompiledUnit) (r : CodeRegistry) :
    Table.get? other (r.addUnder key unit).2.units =
      (Table.get? other r.units).or (if other = key then some unit else none) := by
  unfold addUnder
  split
  · rename_i known
    obtain ⟨u, found⟩ := Table.contains_iff.mp known
    by_cases same : other = key
    · rw [same, found]
      rfl
    · rw [if_neg same, Option.or_none]
  · rw [Table.get?_append]
    congr 1
    by_cases same : key = other
    · simp [Table.get?, same]
    · simp [Table.get?, same, Ne.symm same]

theorem get?_foldl_registerUnder (keys : List String) (acc : Bool × CodeRegistry) :
    Table.get? key (keys.foldl (registerUnder unit) acc).2.units =
      (Table.get? key acc.2.units).or (if key ∈ keys then some unit else none) := by
  induction keys generalizing acc with
  | nil => simp
  | cons first rest ih =>
    rw [List.foldl_cons, ih, registerUnder, get?_addUnder, Option.or_assoc]
    congr 1
    by_cases same : key = first <;> by_cases later : key ∈ rest <;> simp [same, later]

theorem get?_register (path : String) (unit : CompiledUnit) (r : CodeRegistry) :
    Table.get? key (r.register path unit).2.units =
      (Table.get? key r.units).or (if key ∈ keysOf path then some unit else none) :=
  get?_foldl_registerUnder (keysOf path) (false, r)

theorem contains_register (path : String) (unit : CompiledUnit) (r : CodeRegistry) :
    Table.contains key (r.register path unit).2.units = true ↔
      Table.contains key r.units = true ∨ key ∈ keysOf path := by
  unfold Table.contains
  rw [get?_register, Option.isSome_or, Bool.or_eq_true]
  by_cases own : key ∈ keysOf path <;> simp [own]

theorem mem_foldl_registerUnder (keys : List String) (acc : Bool × CodeRegistry)
    {e : String × CompiledUnit} (member : e ∈ (keys.foldl (registerUnder unit) acc).2.units) :
    e ∈ acc.2.units ∨ e.1 ∈ keys ∧ e.2 = unit := by
  induction keys generalizing acc with
  | nil => exact Or.inl member
  | cons first rest ih =>
    rcases ih (registerUnder unit acc first) member with before | ⟨later, same⟩
    · unfold registerUnder addUnder at before
      split at before
      · exact Or.inl before
      · rcases List.mem_append.mp before with old | new
        · exact Or.inl old
        · rw [List.mem_singleton.mp new]
          exact Or.inr ⟨List.mem_cons_self, rfl⟩
    · exact Or.inr ⟨List.mem_cons_of_mem _ later, same⟩

theorem foldl_registerUnder_of_known (keys : List String) (acc : Bool × CodeRegistry)
    (known : (keys.foldl (registerUnder unit) acc).1 = false) :
    acc.1 = false ∧ (keys.foldl (registerUnder unit) acc).2 = acc.2 := by
  induction keys generalizing acc with
  | nil => exact ⟨known, rfl⟩
  | cons first rest ih =>
    obtain ⟨before, same⟩ := ih (registerUnder unit acc first) known
    rw [List.foldl_cons, same]
    unfold registerUnder addUnder at before ⊢
    split at before
    · rename_i taken
      rw [if_pos taken]
      exact ⟨by simpa using before, rfl⟩
    · simp at before

theorem register_of_known (known : (r.register path unit).1 = false) :
    (r.register path unit).2 = r :=
  (foldl_registerUnder_of_known (keysOf path) (false, r) known).2

theorem foldl_registerUnder_of_all_known (keys : List String) (acc : Bool × CodeRegistry)
    (known : ∀ key ∈ keys, Table.contains key acc.2.units = true) :
    keys.foldl (registerUnder unit) acc = acc := by
  induction keys with
  | nil => rfl
  | cons first rest ih =>
    obtain ⟨here, later⟩ := List.forall_mem_cons.mp known
    have same : registerUnder unit acc first = acc := by
      simp [registerUnder, units_addUnder_of_contains here]
    rw [List.foldl_cons, same, ih later]

theorem register_known_iff : (r.register path unit).1 = false ↔
    ∀ key ∈ keysOf path, Table.contains key r.units = true := by
  constructor
  · intro known key own
    have present := (contains_register path unit r).mpr (Or.inr own)
    rwa [register_of_known known] at present
  · intro known
    exact congrArg Prod.fst (foldl_registerUnder_of_all_known (keysOf path) (false, r) known)

theorem mem_keysOf {file path : String} (base : Text.basename file = file) :
    file ∈ keysOf path ↔ file ≠ "" ∧ Text.basename path = file := by
  unfold keysOf
  simp only [List.mem_filter, List.mem_cons, List.not_mem_nil, or_false, decide_eq_true_eq]
  rw [and_comm]
  apply and_congr_right
  intro _
  constructor
  · intro either
    rcases either with rfl | rfl
    · exact base
    · rfl
  · intro same
    exact Or.inr same.symm

theorem lookup_of_base {file : String} (base : Text.basename file = file) (r : CodeRegistry) :
    r.lookup file = Table.get? file r.units := by
  unfold lookup
  rw [base]
  cases Table.get? file r.units <;> rfl

end CodeRegistry

namespace Host

theorem mem_flatMap_insert (path : String) (units former : List CompiledUnit) (u : CompiledUnit)
    (table : List (String × List CompiledUnit))
    (current : (Table.get? path table).getD [] = former) :
    u ∈ (Table.insert path (former ++ units) table).flatMap (·.2) ↔
      u ∈ table.flatMap (·.2) ∨ u ∈ units := by
  induction table with
  | nil =>
    subst current
    simp [Table.insert, Table.get?]
  | cons e rest ih =>
    obtain ⟨k, v⟩ := e
    by_cases same : k = path
    · subst same
      simp only [Table.get?, if_true, Option.getD_some] at current
      subst current
      simp [Table.insert, or_comm, or_left_comm]
    · simp only [Table.get?, same, if_false] at current
      simp only [Table.insert, same, if_false, List.flatMap_cons, List.mem_append, ih current,
        or_assoc]

theorem mem_allUnits_load (h : Host) (path : String) (lines : List UInt32) (u : CompiledUnit) :
    u ∈ (h.load path lines).2.allUnits ↔ u ∈ h.allUnits ∨ u = (h.load path lines).1 := by
  apply (mem_flatMap_insert path [(h.load path lines).1] _ u h.units rfl).trans
  rw [List.mem_singleton]
  rfl

theorem isLoaded_of_mem {h : Host} {u : CompiledUnit} (loaded : u ∈ h.allUnits) :
    h.isLoaded u = true :=
  List.any_eq_true.mpr ⟨u, loaded, beq_self_eq_true u.id⟩

theorem mem_loadedUnits {h : Host} (lists : h.listsUnits = true) (u : CompiledUnit) :
    u ∈ h.loadedUnits ↔ u ∈ h.allUnits := by
  unfold loadedUnits
  rw [if_pos lists]
  exact List.mem_mergeSort

theorem mem_allUnits_of_mem_loadedUnits {h : Host} {u : CompiledUnit}
    (listed : u ∈ h.loadedUnits) : u ∈ h.allUnits := by
  unfold loadedUnits at listed
  split at listed
  · exact List.mem_mergeSort.mp listed
  · cases listed

end Host

/-- The registry has been told of exactly these units. -/
structure CodeRegistry.Catalogs (r : CodeRegistry) (units : List CompiledUnit) : Prop where
  listed : ∀ e ∈ r.units, e.2 ∈ units ∧ e.1 ∈ keysOf e.2.path
  covers : ∀ u ∈ units, ∀ key ∈ keysOf u.path, Table.contains key r.units = true

namespace CodeRegistry.Catalogs

variable {r : CodeRegistry} {units units' : List CompiledUnit} {unit : CompiledUnit}

theorem empty : Catalogs {} [] := ⟨fun _ h => by simp at h, fun _ h => by simp at h⟩

theorem congr (catalogs : r.Catalogs units) (same : ∀ u, u ∈ units' ↔ u ∈ units) :
    r.Catalogs units' :=
  ⟨fun e member => ⟨(same e.2).mpr (catalogs.listed e member).1, (catalogs.listed e member).2⟩,
    fun u member => catalogs.covers u ((same u).mp member)⟩

theorem register (catalogs : r.Catalogs units) (unit : CompiledUnit) :
    (r.register unit.path unit).2.Catalogs (units ++ [unit]) where
  listed e member := by
    rcases mem_foldl_registerUnder (keysOf unit.path) (false, r) member with old | ⟨own, same⟩
    · obtain ⟨listed, key⟩ := catalogs.listed e old
      exact ⟨List.mem_append_left _ listed, key⟩
    · rw [same]
      exact ⟨by simp, own⟩
  covers u member key own := by
    rw [contains_register]
    rcases List.mem_append.mp member with old | new
    · exact Or.inl (catalogs.covers u old key own)
    · rw [List.mem_singleton.mp new] at own
      exact Or.inr own

theorem lookup_isSome_iff (catalogs : r.Catalogs units) {file : String}
    (base : Text.basename file = file) :
    (r.lookup file).isSome = true ↔ ∃ u ∈ units, file ≠ "" ∧ Text.basename u.path = file := by
  rw [lookup_of_base base, Option.isSome_iff_exists]
  constructor
  · intro both
    obtain ⟨u, found⟩ := both
    obtain ⟨listed, key⟩ := catalogs.listed _ (Table.mem_of_get? found)
    exact ⟨u, listed, (mem_keysOf base).mp key⟩
  · intro both
    obtain ⟨u, listed, own⟩ := both
    exact Table.contains_iff.mp (catalogs.covers u listed file ((mem_keysOf base).mpr own))

end CodeRegistry.Catalogs
end LiveProbe
