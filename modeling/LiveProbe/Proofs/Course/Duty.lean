import LiveProbe.Proofs.Course.Changes
import LiveProbe.Proofs.Traffic.Crowd
import LiveProbe.Proofs.World.Intact
import LiveProbe.Proofs.World.Standing

/-!
Hooks that have been found and will fire later. A call finds the hook of its method when it starts,
and until the hook fires, the probes at the method may go and others may come. The hook keeps to the
group that it was set for: whoever is in that group when it fires is installed, and once the group
has been given up, nobody will ever be in it again.
-/
namespace LiveProbe

namespace Probes

variable {callback : Callback}

/-- Whenever the callback is called, it acts for installed probes. -/
def Serves (callback : Callback) (ps : Probes) : Prop :=
  ∃ g t k, callback = .probes 0 g ∧ k.At t ∧ OnDuty t g k ps

theorem enduring_serves (callback : Callback) : Enduring (Serves callback) where
  recast grouped grouped' recast stays serves :=
    have ⟨g, t, k, own, here, duty⟩ := serves
    ⟨g, t, k, own, here, (enduring_onDuty g here).recast grouped grouped' recast stays duty⟩
  founded installed absent unknown serves :=
    have ⟨g, t, k, own, here, duty⟩ := serves
    ⟨g, t, k, own, here, duty.founded installed absent unknown⟩
  joined own unknown alike serves :=
    have ⟨g, t, k, same, here, duty⟩ := serves
    ⟨g, t, k, same, here, duty.receive own unknown alike⟩
  left grouped known there own serves :=
    have ⟨g, t, k, same, here, duty⟩ := serves
    ⟨g, t, k, same, here, duty.afterLeave here grouped known there own⟩

theorem Enduring.all {due : List Callback} {J : Callback → Probes → Prop}
    (each : ∀ callback, Enduring (J callback)) :
    Enduring fun ps => ∀ callback ∈ due, J callback ps where
  recast grouped grouped' recast stays holds callback member :=
    (each callback).recast grouped grouped' recast stays (holds callback member)
  founded installed absent unknown holds callback member :=
    (each callback).founded installed absent unknown (holds callback member)
  joined own unknown alike holds callback member :=
    (each callback).joined own unknown alike (holds callback member)
  left grouped known there own holds callback member :=
    (each callback).left grouped known there own (holds callback member)

end Probes

namespace Setup

variable {s s' : Setup} {r : Reporter} {failing : List String} {propagate untargeted : Bool}
  {t : HookTarget} {g : Nat} {callback : Callback}

def Serving (propagate untargeted : Bool) (r : Reporter) (due : List Callback) (s : Setup) : Prop :=
  Attuned propagate untargeted s ∧ Upheld (fun _ => True) (fun _ => True) r s ∧
    ∀ callback ∈ due, s.engine.probes.Serves callback

theorem kept_serving (r : Reporter) (due : List Callback) : Kept (fun _ _ => True) fun s =>
    Upheld (fun _ => True) (fun _ => True) r s ∧
      ∀ callback ∈ due, s.engine.probes.Serves callback :=
  (kept_upheld (fun _ _ _ _ _ => trivial) (fun _ _ _ _ _ _ => trivial) r).and
    (kept_of_enduring (Probes.Enduring.all Probes.enduring_serves))

theorem serves_of_hooked (coherent : Coherent [] s) (serialized : s.engine.probes.Serialized)
    (hooked : s.engine.hooks.isInstalled t = true)
    (own : Table.get? t s.engine.probes.groups = some g) :
    s.engine.probes.Serves (.probes 0 g) := by
  have grouped := coherent.ordered.toGrouped
  have installedAt := (coherent.hooked_iff t).mp hooked
  obtain ⟨k, installs, here⟩ := id installedAt
  refine ⟨g, t, k, rfl, here, Probes.settled_of_knows serialized grouped (Or.inl installs) own,
    fun k' member => ?_⟩
  obtain ⟨known, there⟩ := (grouped.members t g own k').mp member
  exact known.resolve_right fun awaits => coherent.uniform t installedAt ⟨k', awaits, there⟩

namespace Serving

variable {due due' : List Callback}

theorem of_serves (serving : Serving propagate untargeted r due s)
    (serves : ∀ callback ∈ due', s.engine.probes.Serves callback) :
    Serving propagate untargeted r due' s := ⟨serving.1, serving.2.1, serves⟩

theorem body (serving : Serving propagate untargeted r due s) {m : MethodName} {body : Body}
    (found : s.host.body? m = some body) : ∃ code,
      body = .program code ∨ ∃ i callback, 0 < i ∧ body = .hooked 0 m i callback (.program code) ∧
        s.engine.probes.Serves callback := by
  obtain ⟨⟨composed, -, -⟩, ⟨equipped, serialized, -⟩, -⟩ := serving
  have own : s.held.Equipped (fun _ => True) True m _ := equipped (.method m)
  have number : s.held.hooks.manager = 0 := composed.number
  obtain ⟨code, -, program | ⟨i, g, positive, hooked, group, laid⟩⟩ := own.body_cases found
  · exact ⟨code, Or.inl program⟩
  · rw [number] at laid
    exact ⟨code, Or.inr ⟨i, _, positive, laid,
      serves_of_hooked composed.coherent serialized hooked group⟩⟩

theorem stacked (serving : Serving propagate untargeted r due s) {m : MethodName} {body : Body}
    (found : s.host.body? m = some body) : ∃ code bound, body.Stacked m code bound := by
  obtain ⟨code, rfl | ⟨i, callback, positive, rfl, -⟩⟩ := serving.body found
  · exact ⟨code, fun _ => 0, rfl⟩
  · exact ⟨code, fun _ => i, rfl, positive, Nat.le_refl i, rfl, rfl⟩

theorem live (serving : Serving propagate untargeted r due s) {m : MethodName} {body : Body}
    (found : s.host.body? m = some body) {slot : Nat → Nat} {callback : Callback}
    (member : callback ∈ (body.live slot).map (·.2)) : s.engine.probes.Serves callback := by
  obtain ⟨code, rfl | ⟨i, callback', -, rfl, serves⟩⟩ := serving.body found
  · cases member
  · unfold Body.live at member
    split at member
    · cases List.mem_singleton.mp member
      exact serves
    · cases member

theorem trace (serving : Serving propagate untargeted r due s) {t : LineTrace}
    (member : t ∈ s.host.traces) : s.engine.probes.Serves t.callback := by
  obtain ⟨⟨composed, -, -⟩, ⟨equipped, serialized, -⟩, -⟩ := serving
  obtain ⟨l, g, hooked, group, probes⟩ := equipped.trace composed.coherent.anchored member
  rw [probes, composed.number]
  exact serves_of_hooked composed.coherent serialized hooked group

theorem callbacksAt (serving : Serving propagate untargeted r due s) (path : String)
    (line : UInt32) :
    ∀ callback ∈ s.host.callbacksAt path line, s.engine.probes.Serves callback := by
  intro callback member
  obtain ⟨t, listed, rfl⟩ := List.mem_map.mp member
  exact serving.trace (s.host.mem_traces_of_mem_tracesOf (List.mem_filter.mp listed).1)

/-! What is told when the host changes. -/

theorem define_announced (serving : Serving propagate untargeted r due s) (typeName : String)
    (methods : List (String × Code)) :
    let bodies := methods.map fun e => (e.1, Body.program e.2)
    let s' : Setup := { s with host := s.host.define typeName bodies }
    ∃ told, Announced r failing s (s'.typeDefined typeName) told := by
  obtain ⟨⟨composed, -, -⟩, ⟨-, -, reporter⟩, -⟩ := serving
  have defined := composed.define typeName (methods.map fun e => (e.1, .program e.2))
  obtain ⟨ks, promoted⟩ := typeDefined_promoted defined.coherent typeName
  have whole : Promoted ks s _ := promoted.of_same rfl rfl rfl rfl
  exact whole.announced composed.coherent.ordered reporter

theorem load_announced (serving : Serving propagate untargeted r due s) (path : String)
    (lines : List UInt32) :
    let s' : Setup := { s with host := (s.host.load path lines).2 }
    ∃ told, Announced r failing s (s'.unitLoaded (s.host.load path lines).1) told := by
  obtain ⟨⟨composed, wired, -⟩, ⟨-, -, reporter⟩, -⟩ := serving
  obtain ⟨registry, code, -, listeners, -⟩ := wired.registered
  obtain ⟨ks, promoted⟩ := unitLoaded_promoted (composed.load path lines) code listeners
    (s.host.load path lines).1
  have whole : Promoted ks s _ := promoted.of_same rfl rfl rfl rfl
  exact whole.announced composed.coherent.ordered reporter

end Serving

theorem fired_announced {w : World} (around : w.Around s) (ordered : s.engine.probes.Ordered)
    (reporter : s.engine.reporter = r) (serves : s.engine.probes.Serves callback)
    (x : Execution) : ∃ s' told, (Action.fire (fun _ _ => pure .nil) x callback w).2.Around s' ∧
      Announced r w.poisoned s s' told := by
  obtain ⟨g, t, k, rfl, here, duty⟩ := serves
  obtain ⟨s', around', reported⟩ := around.fired (List.mem_singleton_self (.probes 0 g)) x
  have grouped := ordered.toGrouped
  have there : w.engines[0]? = some s.engine := by
    rw [around.engines]
    rfl
  have journal := (Action.reportAll_apply there g x).1
  have round : r.Round w.poisoned w.heap x (s.engine.probes.membersOf g) (r.tellings w.heap x
      w.poisoned s.engine.propagate (s.engine.probes.membersOf g) s.engine.probes) :=
    Reporter.round_tellings _ _ _
  have names : ((s.engine.probes.membersOf g).map (·.probe.id)).Nodup := by
    refine (duty.nodup grouped).map_on fun a inA b inB => grouped.eq_of_id ?_ ?_
    · exact Or.inl (duty.installed b inB)
    · exact Or.inl (duty.installed a inA)
  have standing : s'.engine.probes.standing = s.engine.probes.standing := by
    rw [reported.probes]
    rfl
  refine ⟨s', _, around', ?_, round.paired, fun id => ?_⟩
  · rw [← around'.journal, ← around.journal, ← reporter]
    exact journal
  · rw [standing]
    refine round.announces names fun k' member named => ?_
    rw [← named]
    exact ordered.standing_of_installs (duty.installed k' member)

end Setup
end LiveProbe
