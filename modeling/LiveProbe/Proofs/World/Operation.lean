import LiveProbe.Proofs.Engine.Reconciliation
import LiveProbe.Proofs.World.History

/-!
An engine that is operated by hand. Besides what happens to every host, probes come and go one by
one, the code registry is started, stopped and told of units, and waiting hooks are tried. Its
hooks are left to its probes. Whatever has been done before, the next configuration is reconciled
with what is known.
-/
namespace LiveProbe

/-- What can be done to an engine or happen to its host. -/
inductive Operation where
  | happen (event : Event)
  | addProbe (p : Probe)
  | keepProbes (named : List String)
  | track
  | untrack
  | register (path : String) (unit : CompiledUnit)
  | listen (l : CodeListener)
  | subscribe
  | tryLines (path : String)
  | tryMethods (typeName : String)

namespace World

def operate (fuel : Nat) (w : World) : Operation → World
  | .happen event => w.take fuel event
  | .addProbe p => (w.inSetup 0 (·.addProbe p)).2
  | .keepProbes named => (w.inSetup 0 (·.keepProbes named)).2
  | .track => w.updateSetup 0 Setup.track
  | .untrack => w.updateSetup 0 Setup.untrack
  | .register path unit => (w.inSetup 0 (·.registerUnit path unit)).2
  | .listen l => w.updateSetup 0 (·.setCode (·.addListener l))
  | .subscribe => w.updateSetup 0 Setup.subscribe
  | .tryLines path => w.updateSetup 0 (·.fileKnown path)
  | .tryMethods typeName => w.updateSetup 0 (·.typeDefined typeName)

/-- A new host runs, an engine starts on it and is operated. -/
def operated (fuel : Nat) (settings : Settings) (origin : Origin) (before : List Event)
    (operations : List Operation) (w : World) : World :=
  operations.foldl (operate fuel) ((w.fresh.after fuel before).launch settings origin)

variable {propagate : Bool}

theorem Hosts.operate (fuel : Nat) {w : World} (hosts : w.Hosts (Setup.Composed propagate))
    (operation : Operation) : (w.operate fuel operation).Hosts (Setup.Composed propagate) := by
  cases operation with
  | happen event => exact (lasting_hosts Setup.stable_composed).take fuel hosts event
  | addProbe p => exact hosts.inSetup (fun s composed => composed.addProbe p) 0
  | keepProbes named => exact hosts.inSetup (fun s composed => composed.keepProbes named) 0
  | track => exact hosts.inSetup (fun s composed => composed.track) 0
  | untrack => exact hosts.inSetup (fun s composed => composed.untrack) 0
  | register path unit => exact hosts.inSetup (fun s composed => composed.registerUnit path unit) 0
  | listen l => exact hosts.inSetup (fun s composed => composed.addListener l) 0
  | subscribe => exact hosts.inSetup (fun s composed => composed.subscribe) 0
  | tryLines path => exact hosts.inSetup (fun s composed => composed.fileKnown path) 0
  | tryMethods typeName => exact hosts.inSetup (fun s composed => composed.typeDefined typeName) 0

theorem Hosts.operations (fuel : Nat) (operations : List Operation) :
    ∀ {w : World}, w.Hosts (Setup.Composed propagate) →
      (operations.foldl (World.operate fuel) w).Hosts (Setup.Composed propagate) := by
  induction operations with
  | nil =>
    intro w hosts
    exact hosts
  | cons operation rest ih =>
    intro w hosts
    exact ih (hosts.operate fuel operation)

theorem operated_composed (fuel : Nat) (settings : Settings) (origin : Origin)
    (before : List Event) (operations : List Operation) (w : World) :
    (w.operated fuel settings origin before operations).Hosts
      (Setup.Composed settings.propagate) := by
  have vacant := lasting_vacant.after fuel before (vacant_fresh w)
  have launched : ((w.fresh.after fuel before).launch settings origin).Hosts
      (Setup.Composed settings.propagate) := by
    apply vacant.launch settings origin
    intro s same
    rw [same]
    exact Setup.composed_start settings origin _ _ vacant.2
  exact launched.operations fuel operations

/-- If errors do not reach the host, every configuration is reconciled with the probes that are
known by then. -/
theorem operated_reconciled (fuel : Nat) (settings : Settings) (origin : Origin)
    (before : List Event) (operations : List Operation) (documents : List Json) (w : World) :
    (w.operated fuel { settings with propagate := false } origin before operations).Hosts
      fun s => Setup.Reconciled documents s (s.process documents) :=
  (operated_composed fuel { settings with propagate := false } origin before operations w).mono
    fun _ composed => composed.reconciled documents

end World
end LiveProbe
