import LiveProbe.Delivery.Transport
import LiveProbe.Hook.Manager
import LiveProbe.Probe.Groups
import LiveProbe.Report.Occurrence
import LiveProbe.Report.Reporter

/-!
The engine on a host: its hooks, the code it knows, its probes and where it reports to. Whatever
the engine does happens in a setup, which holds the engine, its host, and what came of it.
-/
namespace LiveProbe

inductive InstallObserver where
  | probes
  | journal
  | nobody
  deriving DecidableEq, Repr

structure Engine where
  hooks : Hooks
  code : Option CodeRegistry := none
  probes : Probes := {}
  reporter : Reporter
  /-- Whether errors and panics of the engine reach the host. -/
  propagate : Bool := false
  observer : InstallObserver := .probes
  delivery : Option (Delivery StatusEnvelope SnapshotEnvelope) := none

structure Setup where
  host : Host
  engine : Engine
  journal : List Occurrence := []
  warnings : List Warning := []

def Engine.number (e : Engine) : Nat := e.hooks.manager

namespace Setup

def note (o : Occurrence) (s : Setup) : Setup := { s with journal := s.journal ++ [o] }

def warn (w : Warning) (s : Setup) : Setup := { s with warnings := s.warnings ++ [w] }

def tell (n : Notice) (s : Setup) : Setup :=
  let delivery := s.engine.delivery.map fun d => match n with
    | .status e => d.pushStatus e
    | .snapshot e => d.pushSnapshot e
  { s with engine := { s.engine with delivery } }.note (.notice n)

def tellStatus (p : Probe) (status : ProbeStatus) (s : Setup) : Setup :=
  s.tell (.status (s.engine.reporter.status p status))

def hooking {α : Type} (f : Hooking → α × Hooking) (s : Setup) : α × Setup :=
  let (a, k) := f ⟨s.host, s.engine.hooks, s.warnings⟩
  (a, { s with
    host := k.host, warnings := k.warnings, engine := { s.engine with hooks := k.hooks } })

def onHooks {α : Type} (f : Hooks → α × Hooks) (s : Setup) : α × Setup :=
  s.hooking fun k => let (a, hooks) := f k.hooks; (a, { k with hooks })

def onProbes {α : Type} (f : Probes → α × Probes) (s : Setup) : α × Setup :=
  let (a, probes) := f s.engine.probes
  (a, { s with engine := { s.engine with probes } })

def setProbes (f : Probes → Probes) (s : Setup) : Setup :=
  { s with engine := { s.engine with probes := f s.engine.probes } }

def promote (s : Setup) (k : KnownProbe) : Setup :=
  (s.tellStatus k.probe .installed).setProbes (·.promote k)

def promoteAt (target : HookTarget) (s : Setup) : Setup :=
  (s.engine.probes.waitingAt target).foldl promote s

def hookInstalled (s : Setup) (target : HookTarget) : Setup :=
  match s.engine.observer with
  | .probes => s.promoteAt target
  | .journal => s.note (.installed target)
  | .nobody => s

def typeDefined (typeName : String) (s : Setup) : Setup :=
  let (targets, s) := s.hooking (Hooking.installPendingMethods s.engine.code typeName)
  targets.foldl hookInstalled s

def fileKnown (path : String) (s : Setup) : Setup :=
  let (targets, s) := s.hooking (Hooking.installPendingLines s.engine.code path)
  targets.foldl hookInstalled s

end Setup
end LiveProbe
