import LiveProbe.Probe.Groups
import LiveProbe.Proofs.Table
import Mathlib.Data.List.Nodup

/-!
Tables that hold probes under their names. Installed and pending probes are kept in one such table
each; what becomes of a table when probes come and go is told here once for both.
-/
namespace LiveProbe.Probes

variable {table : List (String × KnownProbe)} {k k' : KnownProbe} {id : String}

def Lists (table : List (String × KnownProbe)) (k : KnownProbe) : Prop :=
  Table.get? k.probe.id table = some k

structure Keyed (table : List (String × KnownProbe)) : Prop where
  nodup : (Table.keys table).Nodup
  own : ∀ id k, Table.get? id table = some k → k.probe.id = id

theorem Lists.contains (lists : Lists table k) : Table.contains k.probe.id table = true :=
  Table.contains_iff.mpr ⟨k, lists⟩

theorem Lists.eq_of_id (lists : Lists table k) (lists' : Lists table k')
    (same : k'.probe.id = k.probe.id) : k' = k := by
  unfold Lists at lists lists'
  rw [same, lists] at lists'
  exact (Option.some.inj lists').symm

theorem lists_insert (absent : Table.get? k.probe.id table = none) :
    Lists (Table.insert k.probe.id k table) k' ↔ Lists table k' ∨ k' = k := by
  unfold Lists
  rw [Table.get?_insert]
  by_cases same : k'.probe.id = k.probe.id
  · rw [if_pos same, same, absent, Option.some.injEq]
    constructor
    · intro eq
      exact Or.inr eq.symm
    · intro either
      rcases either with found | eq
      · cases found
      · exact eq.symm
  · have other : k' ≠ k := fun eq => same (by rw [eq])
    rw [if_neg same, or_iff_left other]

theorem lists_erase : Lists (Table.erase id table) k' ↔ Lists table k' ∧ k'.probe.id ≠ id := by
  unfold Lists
  rw [Table.get?_erase]
  by_cases same : k'.probe.id = id <;> simp [same]

namespace Keyed

theorem get?_iff (keyed : Keyed table) :
    Table.get? id table = some k ↔ Lists table k ∧ k.probe.id = id := by
  constructor
  · intro found
    have name := keyed.own id k found
    unfold Lists
    rw [name]
    exact ⟨found, rfl⟩
  · intro listed
    rw [← listed.2]
    exact listed.1

theorem contains_iff (keyed : Keyed table) :
    Table.contains id table = true ↔ ∃ k, Lists table k ∧ k.probe.id = id := by
  rw [Table.contains_iff]
  exact exists_congr fun _ => keyed.get?_iff

theorem mem_iff (keyed : Keyed table) : (id, k) ∈ table ↔ Lists table k ∧ k.probe.id = id :=
  (Table.mem_iff_get? keyed.nodup).trans keyed.get?_iff

theorem insert (keyed : Keyed table) (k : KnownProbe) :
    Keyed (Table.insert k.probe.id k table) where
  nodup := Table.nodup_keys_insert keyed.nodup
  own id k' found := by
    rw [Table.get?_insert] at found
    split at found
    · rename_i same
      cases found
      exact same.symm
    · exact keyed.own id k' found

theorem erase (keyed : Keyed table) (id : String) : Keyed (Table.erase id table) where
  nodup := Table.nodup_keys_erase keyed.nodup id
  own id' k found := by
    rw [Table.get?_erase] at found
    split at found
    · cases found
    · exact keyed.own id' k found

theorem mem_probes (keyed : Keyed table) : k ∈ table.map (·.2) ↔ Lists table k := by
  rw [List.mem_map]
  constructor
  · intro ⟨e, member, same⟩
    rw [← same]
    exact (keyed.mem_iff.mp member).1
  · intro lists
    exact ⟨_, keyed.mem_iff.mpr ⟨lists, rfl⟩, rfl⟩

theorem nodup_probes (keyed : Keyed table) : (table.map (·.2)).Nodup := by
  have named : (table.map (·.2)).map (fun k => k.probe.id) = Table.keys table := by
    rw [List.map_map]
    apply List.map_congr_left
    intro e member
    exact (keyed.mem_iff.mp member).2
  have nodup := keyed.nodup
  rw [← named] at nodup
  exact nodup.of_map _

end Keyed

def entry (k : KnownProbe) : String × KnownProbe := (k.probe.id, k)

def unnamed (named : List String) (table : List (String × KnownProbe)) : List KnownProbe :=
  (others named table).map (·.2)

theorem Keyed.others (keyed : Keyed table) (named : List String) :
    Keyed (others named table) := by
  have nodup : (Table.keys (Probes.others named table)).Nodup :=
    Table.nodup_keys_filter keyed.nodup _
  refine ⟨nodup, fun id k found => ?_⟩
  have member := (List.mem_filter.mp (Table.mem_of_get? found)).1
  exact (keyed.mem_iff.mp member).2

theorem Keyed.others_eq (keyed : Keyed table) (named : List String) :
    Probes.others named table = (unnamed named table).map entry := by
  unfold unnamed
  rw [List.map_map]
  refine (List.map_id _).symm.trans (List.map_congr_left fun e member => ?_)
  have name := ((keyed.others named).mem_iff.mp member).2
  exact Prod.ext name.symm rfl

theorem Keyed.mem_unnamed (keyed : Keyed table) (named : List String) :
    k ∈ unnamed named table ↔ Lists table k ∧ k.probe.id ∉ named := by
  have listed : Lists (Probes.others named table) k ↔ entry k ∈ Probes.others named table :=
    (Table.mem_iff_get? (keyed.others named).nodup).symm
  unfold unnamed
  rw [(keyed.others named).mem_probes, listed, Probes.others, List.mem_filter, entry,
    keyed.mem_iff, Bool.not_eq_true', List.contains_eq_mem, decide_eq_false_iff_not,
    and_iff_left rfl]

theorem Keyed.nodup_unnamed (keyed : Keyed table) (named : List String) :
    (unnamed named table).Nodup := (keyed.others named).nodup_probes

end LiveProbe.Probes
