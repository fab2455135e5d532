import LiveProbe.Proofs.World.Observation

/-!
The members of a group stand in the order in which they joined: a probe that joins is given a higher
number than all before it, by which it has its turns.
-/
namespace LiveProbe

namespace Probes

variable {ps : Probes}

/-- Later members have higher numbers, in all groups there ever were. -/
def Enrolled (ps : Probes) : Prop := ∀ g,
  ((ps.membersOf g).map (·.serial)).Pairwise (· < ·) ∧
    ∀ k ∈ ps.membersOf g, k.serial ≤ ps.lastSerial

theorem Enrolled.nodup (enrolled : ps.Enrolled) (g : Nat) :
    ((ps.membersOf g).map (·.serial)).Nodup :=
  (enrolled g).1.imp Nat.ne_of_lt

theorem Enrolled.receive (enrolled : ps.Enrolled) (g : Nat) (p : Probe) (installed : Bool) :
    (ps.receive g p installed).Enrolled := by
  intro g'
  obtain ⟨sorted, bounded⟩ := enrolled g'
  rw [membersOf_receive, lastSerial_receive]
  split
  · next same =>
    subst same
    have newest : (ps.join g' p).1.serial = ps.lastSerial + 1 := rfl
    constructor
    · rw [List.map_append, List.pairwise_append]
      refine ⟨sorted, List.pairwise_singleton _ _, fun a old b new => ?_⟩
      obtain ⟨k, member, rfl⟩ := List.mem_map.mp old
      obtain rfl := List.mem_singleton.mp new
      exact Nat.lt_succ_of_le (bounded k member)
    · intro k member
      rcases List.mem_append.mp member with old | new
      · exact Nat.le_succ_of_le (bounded k old)
      · exact Nat.le_of_eq ((congrArg KnownProbe.serial (List.mem_singleton.mp new)).trans newest)
  · exact ⟨sorted, fun k member => Nat.le_succ_of_le (bounded k member)⟩

end Probes

end LiveProbe
