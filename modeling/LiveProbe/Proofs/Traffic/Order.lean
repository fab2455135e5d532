import LiveProbe.Proofs.Traffic.Balance

/-!
The order that traffic keeps as long as nobody closes the engine: what the threads rely on, and
that every target is balanced.
-/
namespace LiveProbe

/-- What is true of the roster while a thread has its lock. -/
def Hold.Sensible (ps : Probes) : Hold → Prop
  | .request p t => p.target = .ok (some t) ∧ ps.isKnown p.id = false ∧
    Table.get? t ps.groups = none
  | .enter p t _ => p.target = .ok (some t) ∧ ps.isKnown p.id = false ∧
    Table.get? t ps.groups = none
  | .dropPending stale _ => ∃ ks : List KnownProbe, stale = ks.map Probes.entry ∧ ks.Nodup ∧
    ∀ k ∈ ks, ps.Awaits k
  | .dropInstalled stale => ∃ ks : List KnownProbe, stale = ks.map Probes.entry ∧ ks.Nodup ∧
    ∀ k ∈ ks, ps.Installs k
  | _ => False

/-- What a thread may set out to do with an engine that stays open. -/
def Job.Manages : Job → Prop
  | .define _ _ | .load _ _ | .add _ | .keep _ => True
  | _ => False

namespace Setup

variable {s s' : Setup} {r : CodeRegistry}

structure Registers (s : Setup) (r : CodeRegistry) : Prop where
  code : s.engine.code = some r
  active : r.active = true
  listens : CodeListener.hooks ∈ r.listeners
  listed : ∀ e ∈ r.units, e.2 ∈ s.host.allUnits

/-- The engine is open and hears of what is defined and loaded, and its host lets hooks be
removed. -/
structure Connected (s : Setup) : Prop where
  opened : s.engine.hooks.closed = false
  observer : s.engine.observer = .probes
  accepting : Hooking.Accepting s.host
  definitions : ∃ id, (id, .engine s.engine.number) ∈ s.host.definitionObservers
  compiles : ∃ id, (id, .engine s.engine.number) ∈ s.host.compileObservers
  registered : ∃ r, Registers s r

theorem Backdrop.allUnits (backdrop : Backdrop s s') : s'.host.allUnits = s.host.allUnits := by
  rw [Host.allUnits, show s'.host.units = s.host.units from congrArg (·.units) backdrop.wiring]
  rfl

theorem Connected.of_backdrop (connected : Connected s) (backdrop : Backdrop s s') :
    Connected s' := by
  have same := fun {α : Type} (f : Hooking.Wiring → α) => congrArg f backdrop.wiring
  have number : s'.engine.number = s.engine.number := same (·.manager)
  obtain ⟨r, code, active, listens, listed⟩ := connected.registered
  refine ⟨(same (·.closed)).trans connected.opened, backdrop.observer.trans connected.observer,
    ?_, ?_, ?_, r, backdrop.code.trans code, active, listens, ?_⟩
  · rw [Hooking.Accepting, backdrop.refuses]
    exact connected.accepting
  · rw [number, show s'.host.definitionObservers = _ from same (·.definitionObservers)]
    exact connected.definitions
  · rw [number, show s'.host.compileObservers = _ from same (·.compileObservers)]
    exact connected.compiles
  · rw [backdrop.allUnits]
    exact listed

theorem Registers.grants_line_iff (registers : Registers s r) (l : SourceLine) :
    s.Grants (.line l) ↔ s.host.refuses .installLine (.line l) = none ∧
      (s.engine.hooks.untargeted = true ∨ (r.lookup l.file).isSome = true) := by
  unfold Setup.Grants
  rw [registers.code]
  exact Hooking.grants_line_iff_of_loaded registers.active
    fun e member => Host.isLoaded_of_mem (registers.listed e member)

end Setup

namespace Traffic

structure Orderly (s : Traffic) : Prop where
  anchored : s.setup.held.Anchored
  ordered : s.setup.engine.probes.Ordered
  connected : s.setup.Connected
  loaded : ∀ u, Job.register u ∈ s.jobs → u ∈ s.setup.host.allUnits
  unclosed : Job.close ∉ s.jobs
  sensible : ∀ hold, s.holder = some hold → hold.Sensible s.setup.engine.probes
  balanced : ∀ t, Balanced s t

/-- What one section leaves: order, and every target granted that was. -/
structure Follows (s s' : Traffic) : Prop where
  order : Orderly s'
  granted : ∀ t, s.setup.Grants t → s'.setup.Grants t

end Traffic
end LiveProbe
