import LiveProbe.Proofs.Course.Standing
import LiveProbe.Proofs.World.Upkeep

/-!
What the engine tells when its host changes, and when a configuration has been applied. Probes that
wait are promoted, one after the other, and it is told of each of them that it is installed; of
probes that go nothing is told.
-/
namespace LiveProbe.Setup

variable {s s' : Setup} {ks : List KnownProbe} {r : Reporter} {failing : List String}
  {propagate : Bool}

theorem unitLoaded_promoted (composed : Composed propagate s) {registry : CodeRegistry}
    (code : s.engine.code = some registry) (listeners : registry.listeners = [.hooks])
    (unit : CompiledUnit) : ∃ ks, Promoted ks s (s.unitLoaded unit) := by
  have registered : Composed propagate (s.registering registry unit) :=
    composed.register code unit.path unit
  rw [unitLoaded_of_registered code listeners]
  split
  · obtain ⟨ks, promoted⟩ := fileKnown_promoted registered.coherent unit.path
    exact ⟨ks, promoted.of_same rfl rfl rfl rfl⟩
  · exact ⟨[], (promoted_nobody registered.coherent.ordered).of_same rfl rfl rfl rfl⟩

theorem Promoted.announced (promoted : Promoted ks s s') (ordered : s.engine.probes.Ordered)
    (reporter : s.engine.reporter = r) : ∃ told, Announced r failing s s' told := by
  subst reporter
  refine ⟨ks.flatMap s.engine.reporter.welcome, promoted.journal,
    Notice.paired_flatMap (s.engine.reporter.paired_welcome failing) ks, fun id => ?_⟩
  by_cases named : ∃ k ∈ ks, k.probe.id = id
  · obtain ⟨k, member, rfl⟩ := named
    have awaits := promoted.waited k member
    rw [Notice.filter_flatMap (fun _ _ => Reporter.probeId_welcome) promoted.nodup
        fun k' member' => ordered.eq_of_id (Or.inr awaits) (Or.inr (promoted.waited k' member')),
      if_pos member, ordered.standing_of_awaits awaits,
      promoted.ordered.standing_of_installs ((promoted.installs k).mpr (Or.inr member))]
    exact .promotion rfl
  · rw [Notice.filter_flatMap_eq_nil (fun _ _ => Reporter.probeId_welcome)
        fun k member own => named ⟨k, member, own⟩,
      ordered.standing_eq promoted.ordered.toGrouped fun k own => ?_]
    · exact .silence
    · have apart : k ∉ ks := fun member => named ⟨k, member, own⟩
      exact ⟨(promoted.installs k).trans (or_iff_left apart),
        (promoted.awaits k).trans (and_iff_left apart)⟩

/-! Probes that go. -/

theorem keepProbes_announced (composed : Composed propagate s) (named : List String) :
    Announced r failing s (s.keepProbes named).2 [] := by
  have retention := keepProbes_retention composed.coherent named
  have ordered := composed.coherent.ordered
  have ordered' := retention.coherent.ordered
  refine announced_nothing (quiet_keepProbes named s).journal fun id => ?_
  by_cases listed : id ∈ named
  · refine Or.inl (ordered.standing_eq ordered'.toGrouped fun k own => ?_)
    have kept : s.engine.probes.Knows k → Keeps k s (s.keepProbes named).2 :=
      fun known => retention.kept k known (own ▸ listed)
    refine ⟨⟨fun after => ?_, fun before => ?_⟩, fun after => ?_, fun before => ?_⟩
    · exact (kept (retention.fewer k (Or.inl after))).installs.mp after
    · exact (kept (Or.inl before)).installs.mpr before
    · exact (kept (retention.fewer k (Or.inr after))).awaits.mp after
    · exact (kept (Or.inr before)).awaits.mpr before
  · refine Or.inr (Probes.standing_of_unknown (Bool.eq_false_iff.mpr fun known => listed ?_))
    obtain ⟨k, knows, own⟩ := ordered'.isKnown_iff.mp known
    exact own ▸ (retention.complete composed.willing).2 k knows

end LiveProbe.Setup
