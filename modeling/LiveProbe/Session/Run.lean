import LiveProbe.Engine.Component
import LiveProbe.Session.Step

/-!
Sessions: one host, one engine on it, and a list of steps. The engine is put together part by part
or as a whole. After each step the delivery goes on until it has nothing to do.
-/
namespace LiveProbe

structure SessionPlan where
  settings : Settings
  origin : Origin
  loaded : List (String × List UInt32) := []
  listsUnits : Bool := true
  /-- Whether the engine is put together as a whole; the parts are not asked for then. -/
  complete : Bool := false
  registry : Bool := true
  tracking : Bool := true
  subscribed : Bool := true
  observer : InstallObserver := .probes
  elapsed : Elapsed

structure Refusal where
  error : Error
  only : Option String

structure Session where
  world : World
  units : List CompiledUnit := []
  methodHandles : List (String × MethodHandle) := []
  lineHandles : List (String × LineHandle) := []
  watchers : List (String × (WatchKind × Nat)) := []
  refusals : List (Capability × Refusal) := []
  interceptors : Nat := 0
  shown : Nat := 0

structure SessionReport where
  answer : SessionAnswer
  occurrences : List Occurrence
  warnings : List Warning
  hooks : Nat × Nat
  traces : Nat
  installed : List String
  pending : List String

namespace Session

def depthLimit : Nat := 20000

def runner : Runner := Action.runCode depthLimit

def loadAll (world : World) (units : List (String × List UInt32)) : List CompiledUnit × World :=
  units.foldl (fun (loaded, world) (path, lines) =>
    let (unit, world) := world.load path lines
    (loaded ++ [unit], world)) ([], world)

def engineOf (plan : SessionPlan) : Engine :=
  if plan.complete then .complete 0 plan.settings plan.origin
  else { Engine.bare 0 plan.settings plan.origin with
    code := if plan.registry then some {} else none
    observer := plan.observer }

def startEngine (plan : SessionPlan) (s : Setup) : Setup :=
  if plan.complete then s.start
  else
    let s := if plan.tracking then s.track else s
    if plan.subscribed then s.subscribe else s

def start (plan : SessionPlan) : Session :=
  let host : Host := { listsUnits := plan.listsUnits }
  let (units, world) := loadAll { host, elapsed := plan.elapsed } plan.loaded
  let world := { world with engines := [engineOf plan] }
  { world := world.updateSetup 0 (startEngine plan), units }

def engine? (s : Session) : Option Engine := s.world.engines[0]?

def delivery? (s : Session) : Option (Delivery StatusEnvelope SnapshotEnvelope) :=
  s.engine?.bind (·.delivery)

def inSetup {α : Type} (default : α) (f : Setup → α × Setup) (s : Session) : α × Session :=
  let (a, world) := s.world.inSetup 0 f
  (a.getD default, { s with world })

def update (f : Setup → Setup) (s : Session) : Session :=
  (s.inSetup () fun setup => ((), f setup)).2

def onHost {α : Type} (f : Host → α × Host) (s : Session) : α × Session :=
  let (a, host) := f s.world.host
  (a, { s with world := { s.world with host } })

def run (x : Action SessionAnswer) (s : Session) : SessionAnswer × Session :=
  match x s.world with
  | (.ok answer, world) => (answer, { s with world })
  | (.error f, world) => (.fault f, { s with world })

def refusing (refusals : List (Capability × Refusal)) (what : Capability) (target : HookTarget) :
    Option Error :=
  match Table.get? what refusals with
  | some r => if r.only.all (· == target.display) then some r.error else none
  | none => none

def refuse (what : Capability) (error : Option Error) (only : Option String) (s : Session) :
    Session :=
  let refusals := match error with
    | some error => Table.insert what ⟨error, only⟩ s.refusals
    | none => Table.erase what s.refusals
  { s with
    refusals, world := { s.world with host := { s.world.host with refuses := refusing refusals } } }

def wrapper (label : String) (serial : Nat) : InterceptMode → Body → Body
  | .same, saved => saved
  | .wrap, saved => .wrapped serial label saved
  | .replace, _ => .replaced serial label

def interceptMethod (label : String) (m : MethodName) (mode : InterceptMode) (s : Session) :
    SessionAnswer × Session :=
  let serial := s.interceptors + 1
  match s.onHost fun h => h.interceptMethod m (wrapper label serial mode) with
  | (.error e, s) => (.method (.error e), s)
  | (.ok handle, s) => (.method (.ok handle.method), { s with
      interceptors := serial, methodHandles := Table.insert label handle s.methodHandles })

def unitOf (s : Session) : UnitChoice → Option CompiledUnit
  | .everywhere => none
  | .loaded n => s.units[n]?
  | .made unit => some unit

def interceptLine (label : String) (unit : UnitChoice) (file : String) (line : UInt32)
    (s : Session) : SessionAnswer × Session :=
  match s.onHost fun h => h.interceptLine (s.unitOf unit) file line none (.record label) with
  | (.error e, s) => (.trace (.error e), s)
  | (.ok handle, s) =>
    (.trace (.ok handle), { s with lineHandles := Table.insert label handle s.lineHandles })

def dropWatcher (label : String) (s : Session) : Session :=
  let s := { s with
    watchers := Table.erase label s.watchers
    world := { s.world with host := s.world.host.dropWatcher label } }
  s.update (·.setCode (·.dropWatcher label))

def watch (label : String) (kind : WatchKind) (s : Session) : SessionAnswer × Session :=
  let s := s.dropWatcher label
  match kind with
  | .registry =>
    (.nothing, { s with watchers := Table.insert label (kind, 0) s.watchers }.update
      (·.setCode (·.addListener (.watcher label))))
  | .definitions =>
    let (id, s) := s.onHost (·.subscribeDefinitions (.watcher label))
    (.number id, { s with watchers := Table.insert label (kind, id) s.watchers })
  | .compiles =>
    let (id, s) := s.onHost (·.subscribeCompiles (.watcher label))
    (.number id, { s with watchers := Table.insert label (kind, id) s.watchers })

def unsubscribe (label : String) (s : Session) : Session :=
  match Table.get? label s.watchers with
  | some (.definitions, id) => (s.onHost fun h => ((), h.unsubscribeDefinitions id)).2
  | some (.compiles, id) => (s.onHost fun h => ((), h.unsubscribeCompiles id)).2
  | _ => s

def lookup (path : String) (lines : List UInt32) (s : Session) : SessionAnswer :=
  .unit <| (s.engine?.bind (·.code)).bind fun code =>
    (code.lookup path).map fun unit => (unit, lines.map unit.isExecutable)

def deliver (s : Session) : Session :=
  match s.delivery? with
  | none => s
  | some d =>
    let fresh := d.handled.drop s.shown
    let statuses := (Delivery.statusesOf fresh).map Notice.status
    let snapshots := (Delivery.snapshotsOf fresh).map Notice.snapshot
    let journal := s.world.journal ++ (statuses ++ snapshots).map Occurrence.notice
    { s with shown := d.handled.length, world := { s.world with journal } }

def perform (step : SessionStep) (s : Session) : SessionAnswer × Session :=
  match step with
  | .define typeName methods => (.nothing, { s with world := s.world.define typeName methods })
  | .isDefined typeName => (.truth (s.world.host.isDefined typeName), s)
  | .load path lines =>
    let (unit, world) := s.world.load path lines
    (.number unit.id, { s with world, units := s.units ++ [unit] })
  | .loadedUnits => (.units s.world.host.loadedUnits, s)
  | .call m args named => s.run do
    let args : CallArgs ← Action.building do
      let positional ← args.mapM Literal.build
      return { positional, named := ← Literal.buildVars named }
    return .value (← Action.call runner m args)
  | .line path line locals => s.run do
    Action.executeLine runner path line (← Action.building (Literal.buildVars locals))
    return .nothing
  | .refuse what error only => (.nothing, s.refuse what error only)
  | .poison ids =>
    let poisoned := if s.delivery?.isSome then [] else ids
    (.nothing, { s with world := { s.world with poisoned } })
  | .interceptMethod label m mode => s.interceptMethod label m mode
  | .restoreMethod label => (.done (.ok ()), match Table.get? label s.methodHandles with
    | some handle => (s.onHost fun h => ((), h.restoreMethod handle)).2
    | none => s)
  | .interceptLine label unit file line => s.interceptLine label unit file line
  | .restoreLine label => (.done (.ok ()), match Table.get? label s.lineHandles with
    | some handle => (s.onHost fun h => ((), h.removeTrace handle)).2
    | none => s)
  | .watch label kind => s.watch label kind
  | .unsubscribe label => (.nothing, s.unsubscribe label)
  | .dropWatcher label => (.truth (Table.contains label s.watchers), s.dropWatcher label)
  | .track => (.nothing, s.update Setup.track)
  | .untrack => (.nothing, s.update Setup.untrack)
  | .isTracking => s.inSetup (.truth false) fun setup => (.truth setup.isTracking, setup)
  | .register path unit => s.inSetup (.truth false) fun setup =>
    let (added, setup) := setup.registerUnit path unit
    (.truth added, setup)
  | .lookup path lines => (s.lookup path lines, s)
  | .subscribe => (.nothing, s.update Setup.subscribe)
  | .hook label target => s.inSetup .nothing fun setup =>
    let (result, setup) := setup.hooking (Hooking.hook setup.engine.code target (.record label))
    (.done result, setup)
  | .hookWhenDefined label target => s.inSetup .nothing fun setup =>
    let (result, setup) := setup.hooking
      (Hooking.hookWhenDefined setup.engine.code target (.record label))
    (.whetherNow result, setup)
  | .installPending path => (.nothing, s.update (·.fileKnown path))
  | .unhook target => s.inSetup .nothing fun setup =>
    let (result, setup) := setup.hooking (Hooking.unhook target)
    (.done result, setup)
  | .clearPending target => s.inSetup .nothing fun setup =>
    let (was, setup) := setup.onHooks (·.clearPending target)
    (.truth was, setup)
  | .hookState target => s.inSetup .nothing fun setup =>
    (.state (setup.engine.hooks.isInstalled target) (setup.engine.hooks.isPending target), setup)
  | .clearHooks => (.nothing, s.update fun setup => (setup.hooking fun k => ((), k.clearHooks)).2)
  | .closeHooks => (.nothing, s.update fun setup => (setup.hooking fun k => ((), k.close)).2)
  | .process documents => s.inSetup .nothing fun setup =>
    let (result, setup) := setup.process documents
    (.statuses result, setup)
  | .addProbe document => match Probe.ofDocument document with
    | .error e => (.done (.error e), s)
    | .ok p => s.inSetup .nothing fun setup =>
      let (result, setup) := setup.addProbe p
      (.done result, setup)
  | .keepProbes ids => s.inSetup .nothing fun setup =>
    let (result, setup) := setup.keepProbes ids
    (.done result, setup)
  | .probeState id => s.inSetup .nothing fun setup =>
    (.state (setup.engine.probes.isInstalled id) (setup.engine.probes.isPending id), setup)
  | .closeProbes => (.nothing, s.update Setup.closeProbes)
  | .deliver => (.nothing, s.deliver)
  | .dropped => s.inSetup .nothing fun setup =>
    (match setup.engine.delivery with
      | some d => .counts d.worker.dropped.1 d.worker.dropped.2
      | none => .nothing, setup)
  | .shutdown => (.nothing, s.update Setup.shutdown)

def isNotice : Occurrence → Bool
  | .notice _ => true
  | _ => false

/-- What is shown of a step. Notices that are shipped are shown when they have been delivered. -/
def shownOf (step : SessionStep) (s : Session) : List Occurrence :=
  match step with
  | .deliver => s.world.journal
  | _ => if s.delivery?.isSome then s.world.journal.filter fun o => !isNotice o else s.world.journal

def report (step : SessionStep) (answer : SessionAnswer) (s : Session) : SessionReport where
  answer := answer
  occurrences := s.shownOf step
  warnings := s.world.warnings
  hooks := (s.engine?.map (·.hooks.counts)).getD (0, 0)
  traces := s.world.host.traces.length
  installed := (s.engine?.map fun e => Table.keys e.probes.installed).getD []
  pending := (s.engine?.map fun e => Table.keys e.probes.pending).getD []

def advance (s : Session) (step : SessionStep) : SessionReport × Session :=
  let s := { s with world := { s.world with journal := [], warnings := [] } }
  let (answer, s) := s.perform step
  (s.report step answer, s.update Setup.settleDelivery)

def play : List SessionStep → Session → List SessionReport
  | [], _ => []
  | step :: rest, s =>
    let (report, s) := s.advance step
    report :: play rest s

end Session
end LiveProbe
