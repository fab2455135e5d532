import LiveProbe.Payload.Captured
import LiveProbe.Proofs.Json.Freeform
import LiveProbe.Proofs.Table
import Mathlib.Data.List.Nodup

/-!
Records as documents. A record is written as the slots that are filled, in order, and read by the
names of all slots; each slot is found to hold what was written to it.
-/
namespace LiveProbe.Json

def record (slots : List (String × Option Json)) : Json :=
  .object (slots.flatMap fun s => member? s.1 s.2)

variable {slots : List (String × Option Json)}

theorem mem_member? {name : String} {value : Option Json} {m : String × Json} :
    m ∈ member? name value ↔ m.1 = name ∧ value = some m.2 := by
  obtain ⟨n, v⟩ := m
  cases value with
  | none => simp [member?]
  | some w => simp [member?, eq_comm]

theorem forall_slots {P : Json → Prop} :
    (∀ m ∈ slots.flatMap fun s => member? s.1 s.2, P m.2) ↔ ∀ s ∈ slots, ∀ v ∈ s.2, P v := by
  constructor
  · intro all s member v filled
    exact all (s.1, v) (List.mem_flatMap.mpr ⟨s, member, mem_member?.mpr ⟨rfl, filled⟩⟩)
  · intro all m member
    obtain ⟨s, among, one⟩ := List.mem_flatMap.mp member
    exact all s among m.2 (mem_member?.mp one).2

theorem depth_record_le {n : Nat} : (record slots).depth ≤ n ↔
    ∃ below, n = below + 1 ∧ ∀ s ∈ slots, ∀ v ∈ s.2, v.depth ≤ below := by
  rw [record, depth_object_le]
  exact exists_congr fun below => and_congr_right' (forall_slots (P := fun v => v.depth ≤ below))

theorem whole_record : (record slots).Every Whole ↔ ∀ s ∈ slots, ∀ v ∈ s.2, v.Every Whole := by
  rw [record, every_object]
  exact (and_iff_right trivial).trans forall_slots

theorem keys_slots_sublist (slots : List (String × Option Json)) :
    (Table.keys (slots.flatMap fun s => member? s.1 s.2)).Sublist (slots.map (·.1)) := by
  induction slots with
  | nil => exact List.Sublist.slnil
  | cons s rest ih =>
    obtain ⟨n, v⟩ := s
    cases v with
    | none => exact ih.cons n
    | some v => exact ih.cons_cons n

theorem eraseDups_of_nodup {names : List String} (distinct : names.Nodup) :
    names.eraseDups = names := by
  induction names with
  | nil => rfl
  | cons n rest ih =>
    obtain ⟨fresh, others⟩ := List.nodup_cons.mp distinct
    have kept : rest.filter (fun m => !m == n) = rest := by
      refine List.filter_eq_self.mpr fun m member => ?_
      have apart : m ≠ n := fun same => fresh (same ▸ member)
      simp [apart]
    rw [List.eraseDups_cons, kept, ih others]

theorem get?_slots (distinct : (slots.map (·.1)).Nodup) {s : String × Option Json}
    (member : s ∈ slots) : Table.get? s.1 (slots.flatMap fun s => member? s.1 s.2) = s.2 := by
  cases filled : s.2 with
  | some v =>
    refine Table.get?_of_mem (distinct.sublist (keys_slots_sublist slots)) ?_
    exact List.mem_flatMap.mpr ⟨s, member, mem_member?.mpr ⟨rfl, filled⟩⟩
  | none =>
    refine Table.get?_eq_none_iff.mpr fun named => ?_
    obtain ⟨m, among, same⟩ := List.mem_map.mp named
    obtain ⟨s', member', one⟩ := List.mem_flatMap.mp among
    obtain ⟨name, filled'⟩ := mem_member?.mp one
    have own : s' = s :=
      List.inj_on_of_nodup_map distinct member' member (name.symm.trans same)
    rw [own, filled] at filled'
    cases filled'

namespace Outline

theorem record?_record (distinct : (slots.map (·.1)).Nodup) (levels : Nat) :
    record? (slots.map (·.1)) (levels + 1) (record slots).outline =
      some (slots.map fun s => s.2.map outline) := by
  generalize same : (slots.flatMap fun s => member? s.1 s.2) = members
  let given := members.map fun m => (m.1, m.2.outline)
  have keys : Table.keys given = Table.keys members := by
    rw [Table.keys, List.map_map]
    rfl
  -- The filled slots keep the order of all slots, so their names are distinct as well.
  have among : (Table.keys members).Sublist (slots.map (·.1)) := same ▸ keys_slots_sublist slots
  have read : (outlineMembers members).mapM
      (fun m => (textOfBody? m.1).map fun n => (n, m.2)) = some given := by
    have split : outlineMembers members = given.map fun m => (body m.1, m.2) := by
      rw [outlineMembers_eq, List.map_map]
      rfl
    rw [split]
    refine mapM_map_eq_some fun m _ => ?_
    rw [textOfBody?_body]
    rfl
  have known : given.filter (fun m => (slots.map (·.1)).contains m.1) = given := by
    refine List.filter_eq_self.mpr fun m member => List.contains_iff_mem.mpr ?_
    exact among.subset (keys ▸ List.mem_map_of_mem member)
  have once : (Table.keys given).eraseDups.length = given.length := by
    rw [eraseDups_of_nodup (keys ▸ distinct.sublist among), Table.keys, List.length_map]
  have found : (slots.map (·.1)).map (fun n => Table.get? n given) =
      slots.map fun s => s.2.map outline := by
    rw [List.map_map]
    refine List.map_congr_left fun s member => ?_
    show Table.get? s.1 given = _
    rw [Table.get?_map_values outline, ← same, get?_slots distinct member]
  rw [record, same, outline]
  show ((outlineMembers members).mapM _ >>= _) = _
  rw [read]
  show (if (Table.keys (given.filter _)).eraseDups.length = (given.filter _).length then _
    else _) = _
  rw [known, if_pos once, found]
  rfl

end Outline
end LiveProbe.Json
