import LiveProbe.Proofs.Dispatch.Simulation
import LiveProbe.Proofs.Hook.Equipment
import LiveProbe.Proofs.World.Upkeep

/-!
The methods and lines of a host stand as they should with the hooks of its engine, all the time:
each hook acts for the group of probes at its target.
-/
namespace LiveProbe.Setup

variable {s s' : Setup} {propagate : Bool} {k : KnownProbe} {t : HookTarget} {fine : Code → Prop}
  {stale : MethodName → Prop}

/-- Every target stands as it should with its hook. -/
def Equipped (fine : Code → Prop) (stale : MethodName → Prop) (s : Setup) : Prop :=
  ∀ t, s.held.Stands fine stale t (Table.get? t s.engine.probes.groups)

namespace Equipped

theorem of_frame (equipped : s.Equipped fine stale) (frame : Hooking.Frame t s.held s'.held)
    (groups : ∀ t', t' ≠ t →
      Table.get? t' s'.engine.probes.groups = Table.get? t' s.engine.probes.groups)
    (own : s'.held.Stands fine stale t (Table.get? t s'.engine.probes.groups)) :
    s'.Equipped fine stale := by
  intro t'
  by_cases here : t' = t
  · rw [here]
    exact own
  · rw [groups t' here]
    exact (equipped t').of_same (congrArg Hooking.Wiring.manager frame.wiring)
      (frame.apart t' here)

theorem of_same (equipped : s.Equipped fine stale)
    (manager : s'.engine.hooks.manager = s.engine.hooks.manager)
    (same : ∀ t, Hooking.Same t s.held s'.held)
    (groups : s'.engine.probes.groups = s.engine.probes.groups) : s'.Equipped fine stale := by
  intro t
  rw [groups]
  exact (equipped t).of_same manager (same t)

theorem trace (equipped : s.Equipped fine stale) (anchored : s.held.Anchored) {trace : LineTrace}
    (member : trace ∈ s.host.traces) : ∃ l g, s.engine.hooks.isInstalled (.line l) = true ∧
      Table.get? (.line l) s.engine.probes.groups = some g ∧
      trace.callback = .probes s.engine.hooks.manager g := by
  have entry : (trace.only, trace.id) ∈ s.engine.hooks.lines.map fun e => (some e.1, e.2.id) :=
    anchored.traced ▸ List.mem_map.mpr ⟨trace, member, rfl⟩
  obtain ⟨e, listed, pair⟩ := List.mem_map.mp entry
  have only : trace.only = some e.1 := (congrArg Prod.fst pair).symm
  have own : s.held.Lined e.1 _ := equipped (.line e.1)
  obtain ⟨g, group, probes⟩ := own.traced trace (List.mem_filter.mpr ⟨member, decide_eq_true only⟩)
  exact ⟨e.1, g, Table.contains_iff.mpr ⟨e.2, Table.get?_of_mem anchored.lineKeys listed⟩, group,
    probes⟩

theorem founded (equipped : s.Equipped fine stale) (composed : Composed propagate s)
    (absent : Table.get? t s.engine.probes.groups = none) (p : Probe) {installed : Bool}
    (answer : (s.requestHook t).1 = .ok installed) :
    ((s.requestHook t).2.enterFirst t p installed).Equipped fine stale := by
  have request := requestHook_request composed.coherent absent
  obtain ⟨restaffed, probes⟩ := restaffed_enterFirst t p installed (s.requestHook t).2
  have groups : ((s.requestHook t).2.enterFirst t p installed).engine.probes.groups =
      Table.insert t s.engine.probes.nextGroup s.engine.probes.groups := by
    rw [probes, Probes.groups_receive]
    rfl
  refine equipped.of_frame (t := t) ?_ (fun t' other => ?_) ?_
  · rw [restaffed.held]
    exact request.frame
  · rw [groups]
    exact Table.get?_insert_of_ne other _ _
  · obtain ⟨free, idle⟩ := composed.coherent.unhooked absent
    rw [groups, restaffed.held, Table.get?_insert_self]
    exact (equipped t).hookWhenDefined composed.coherent.anchored s.engine.code free idle _ answer

theorem afterLeave (equipped : s.Equipped fine stale) {g : Nat}
    (groups : s'.engine.probes.groups = (s.engine.probes.afterLeave t g k).groups)
    (frame : Hooking.Frame t s.held s'.held)
    (shared : s.engine.probes.othersIn g k ≠ [] → s'.held = s.held)
    (last : s.engine.probes.othersIn g k = [] → ∀ group, s'.held.Stands fine stale t group) :
    s'.Equipped fine stale := by
  refine equipped.of_frame frame (fun t' other => ?_) ?_
  · rw [groups]
    exact Probes.get?_groups_afterLeave_of_stays k fun same => absurd same other
  · by_cases alone : s.engine.probes.othersIn g k = []
    · exact last alone _
    · rw [groups, Probes.get?_groups_afterLeave_of_stays k fun _ => alone, shared alone]
      exact equipped t

theorem dismissed (equipped : s.Equipped fine stale) (composed : Composed propagate s)
    (awaits : s.engine.probes.Awaits k) (here : k.At t) :
    (s.removePending (k.probe.id, k)).Equipped fine stale := by
  have ordered := composed.coherent.ordered
  obtain ⟨g, own⟩ := ordered.get?_groups_of_knows (Or.inr awaits) here
  obtain ⟨probes, held, -⟩ := removePending_parts here s
  rw [ordered.dropPending_eq awaits, Probes.leave_without own] at probes held
  refine equipped.afterLeave (congrArg Probes.groups probes) ?_ (fun shared => ?_)
    fun last group => ?_
  · rw [held]
    split
    · exact Hooking.forget_frame t s.held
    · exact Hooking.Frame.refl t s.held
  · rw [held, if_neg (by simpa using shared)]
  · have pending : s.held.hooks.isPending t = true :=
      (composed.coherent.waiting _).mpr ⟨⟨k, awaits, here⟩, List.not_mem_nil⟩
    rw [held, if_pos (by simpa using last)]
    exact (equipped t).forget composed.coherent.anchored
      (composed.coherent.exclusive t pending) group

theorem removed (equipped : s.Equipped fine stale) (composed : Composed propagate s)
    (installs : s.engine.probes.Installs k) (here : k.At t) :
    (s.removeInstalled k.probe.id k).2.Equipped fine stale := by
  have ordered := composed.coherent.ordered
  obtain ⟨g, own⟩ := ordered.get?_groups_of_knows (Or.inl installs) here
  obtain ⟨probes, held⟩ := composed.removeInstalled_parts installs here
  rw [Probes.leave_without own] at probes
  rw [Probes.sharesHook_of_own own] at held
  refine equipped.afterLeave (congrArg Probes.groups probes) ?_ (fun shared => ?_)
    fun last group => ?_
  · rw [held]
    split
    · exact Hooking.Frame.refl t s.held
    · exact (Hooking.unhook_removal composed.coherent.anchored t).frame
  · rw [held, if_pos (by simpa using shared)]
  · have idle : s.held.hooks.isPending t = false := by
      rw [Bool.eq_false_iff]
      intro pending
      exact composed.coherent.uniform _ ⟨k, installs, here⟩
        ((composed.coherent.waiting _).mp pending).1
    rw [held, if_neg (by simpa using last)]
    exact (equipped t).unhook composed.coherent.anchored composed.willing idle group

end Equipped

theorem kept_equipped {D : DefinitionKind}
    (given : ∀ typeName methods, D typeName methods → ∀ e ∈ methods, fine e.2)
    (anew : ∀ typeName methods, D typeName methods → ∀ m : MethodName, m.typeName = typeName →
      m.name ∈ methods.map (·.1) → stale m) : Kept D (Equipped fine stale) where
  congr s s' host hooks probes _ equipped := by
    refine equipped.of_same (by rw [hooks]) (fun t => ?_) (by rw [probes])
    have held : s'.held.host = s.held.host ∧ s'.held.hooks = s.held.hooks := ⟨host, hooks⟩
    unfold Hooking.Same
    rw [held.1, held.2]
    split <;> simp
  refused {_ s t e} composed absent answer equipped := by
    have request := requestHook_request composed.coherent absent
    refine equipped.of_frame request.frame (fun _ _ => rfl) ?_
    exact (equipped t).of_same (congrArg Hooking.Wiring.manager request.frame.wiring)
      (request.refused e answer)
  founded composed absent _ answer equipped := equipped.founded composed absent _ answer
  joined {_ s t g p} _ _ _ equipped := by
    obtain ⟨restaffed, probes⟩ := restaffed_enterGroup g p s
    refine equipped.of_same (by rw [restaffed.hooks]) (fun t => restaffed.same t) ?_
    rw [probes, Probes.groups_receive]
  dismissed composed awaits here equipped := equipped.dismissed composed awaits here
  removed composed installs here equipped := equipped.removed composed installs here
  attended {_ s} typeName composed equipped := by
    intro t
    rw [held_typeDefined, (recast_typeDefined typeName s).groups]
    exact Hooking.Stands.installPendingMethods equipped composed.coherent.anchored
      composed.coherent.exclusive s.engine.code typeName t
  discovered {_ s} path composed equipped := by
    intro t
    rw [held_fileKnown, (recast_fileKnown path s).groups]
    exact Hooking.Stands.installPendingLines equipped composed.coherent.anchored
      composed.coherent.exclusive s.engine.code path t
  turned {_ s} k _ equipped :=
    equipped.of_same rfl (fun _ => Hooking.Same.refl _ _)
      (Probes.recast_takeTurn k s.engine.probes).groups
  defined typeName methods allowed equipped t := by
    cases t with
    | method m =>
      exact Hooking.Equipped.redefine (equipped (.method m)) (given _ _ allowed)
        (anew _ _ allowed m)
    | line l => exact Hooking.Lined.of_same (equipped (.line l)) rfl ⟨rfl, rfl, rfl⟩
  loaded path lines equipped := by
    refine equipped.of_same rfl (fun t => ?_) rfl
    cases t with
    | method m => exact ⟨rfl, rfl, rfl, rfl⟩
    | line l => exact ⟨rfl, rfl, rfl⟩

end LiveProbe.Setup
