import LiveProbe.Proofs.Engine.Attunement
import Mathlib.Data.Multiset.AddSub
import Mathlib.Logic.Relation

/-!
The traffic of many threads through one engine. What a thread does falls into sections that no
other thread comes between: a section changes the hooks in one go, under their own lock, and the
roster only while the thread has the lock of the probes. Between two sections anything may happen
that the locks allow.

Each section is one of the engine's own operations or a part of it; run without a break, the
sections of a job come to the operation itself.
-/
namespace LiveProbe

/-- What the host tells of: a type that is defined, or a file that is loaded. -/
inductive Arrival where
  | type (name : String)
  | file (path : String)

def Arrival.covers : Arrival → HookTarget → Prop
  | .type name, .method m => m.typeName = name
  | .file path, .line l => l.file = Text.basename path
  | _, _ => False

def Arrival.waiting : Arrival → Hooks → List (HookTarget × Callback)
  | .type name => Hooking.waitingMethods name
  | .file path => Hooking.waitingLines path

/-- What a thread is about to do that does not have the lock of the probes. -/
inductive Job where
  | define (typeName : String) (bodies : List (String × Body))
  | load (path : String) (lines : List UInt32)
  | register (unit : CompiledUnit)
  | announce (arrival : Arrival)
  /-- The hooks are open, and those that wait for the arrival are to be installed. -/
  | install (arrival : Arrival)
  /-- Hooks have been installed, and the probes that wait for them are to be promoted. -/
  | notify (targets : List HookTarget)
  | add (p : Probe)
  | keep (named : List String)
  | close

/-- What the thread goes on with that has the lock of the probes. -/
inductive Hold where
  /-- The probe is new, and nobody else is at its location. -/
  | request (p : Probe) (target : HookTarget)
  /-- The hook has been asked for, and the probe is not in the roster yet. -/
  | enter (p : Probe) (target : HookTarget) (installed : Bool)
  | dropPending (stale : List (String × KnownProbe)) (named : List String)
  | dropInstalled (stale : List (String × KnownProbe))
  | clearHooks
  | clearPending
  | clearProbes

namespace Setup

def subscribed (observers : List (Nat × Observer)) (job : Job) (s : Setup) : Multiset Job :=
  ((observers.filter fun o => o.2 = .engine s.engine.number).map fun _ => job : List Job)

end Setup

def CodeRegistry.heard (job : Job) (r : CodeRegistry) : Multiset Job :=
  ((r.listeners.filter (· = .hooks)).map fun _ => job : List Job)

/-- A section that does without the lock of the probes: what it leaves, and what is to be done
then. Waiting hooks are met in any order. -/
inductive Job.Runs (s : Setup) : Job → Setup → Multiset Job → Prop
  | define {typeName : String} {bodies : List (String × Body)} :
    Runs s (.define typeName bodies) { s with host := s.host.define typeName bodies }
      (s.subscribed s.host.definitionObservers (.announce (.type typeName)))
  | load {path : String} {lines : List UInt32} :
    Runs s (.load path lines) { s with host := (s.host.load path lines).2 }
      (s.subscribed s.host.compileObservers (.register (s.host.load path lines).1))
  | register {unit : CompiledUnit} {code : CodeRegistry} (known : s.engine.code = some code) :
    Runs s (.register unit) (s.registering code unit)
      (if (code.register unit.path unit).1 then
        (code.register unit.path unit).2.heard (.announce (.file unit.path)) else 0)
  | announce {arrival : Arrival} :
    Runs s (.announce arrival) s (if s.engine.hooks.closed then 0 else {.install arrival})
  | install {arrival : Arrival} {order : List (HookTarget × Callback)}
      (perm : order.Perm (arrival.waiting s.engine.hooks)) :
    Runs s (.install arrival) (s.hooking (Hooking.retryAll s.engine.code order)).2
      {.notify (s.hooking (Hooking.retryAll s.engine.code order)).1}
  | notified : Runs s (.notify []) s 0

/-- A section that begins with the lock of the probes: what it leaves, what is to be done then, and
what the thread goes on with if it keeps the lock. -/
inductive Job.Locks (s : Setup) : Job → Setup → Multiset Job → Option Hold → Prop
  | notify {target : HookTarget} {targets : List HookTarget} :
    Locks s (.notify (target :: targets)) (s.hookInstalled target) {.notify targets} none
  | misplaced {p : Probe} {e : Error} (refused : s.engine.probes.admission p = .error e) :
    Locks s (.add p) s 0 none
  | idle {p : Probe} (nothing : s.engine.probes.admission p = .ok .idle) :
    Locks s (.add p) s 0 none
  | joins {p : Probe} {group : Nat} (there : s.engine.probes.admission p = .ok (.joins group)) :
    Locks s (.add p) (s.enterGroup group p) 0 none
  | founds {p : Probe} {target : HookTarget}
      (alone : s.engine.probes.admission p = .ok (.founds target)) :
    Locks s (.add p) s 0 (some (.request p target))
  | keep {named : List String} {order : List (String × KnownProbe)}
      (perm : order.Perm (Probes.others named s.engine.probes.pending)) :
    Locks s (.keep named) s 0 (some (.dropPending order named))
  | close : Locks s .close (s.hooking fun k => ((), k.stopFollowing)).2 0 (some .clearHooks)

inductive Hold.Runs (s : Setup) : Hold → Setup → Option Hold → Prop
  | refused {p : Probe} {target : HookTarget} {e : Error}
      (answer : (s.requestHook target).1 = .error e) :
    Runs s (.request p target) (s.requestHook target).2 none
  | requested {p : Probe} {target : HookTarget} {installed : Bool}
      (answer : (s.requestHook target).1 = .ok installed) :
    Runs s (.request p target) (s.requestHook target).2 (some (.enter p target installed))
  | enter {p : Probe} {target : HookTarget} {installed : Bool} :
    Runs s (.enter p target installed) (s.enterFirst target p installed) none
  | dropPending {e : String × KnownProbe} {stale : List (String × KnownProbe)}
      {named : List String} :
    Runs s (.dropPending (e :: stale) named) (s.removePending e) (some (.dropPending stale named))
  | turn {named : List String} {order : List (String × KnownProbe)}
      (perm : order.Perm (Probes.others named s.engine.probes.installed)) :
    Runs s (.dropPending [] named) s (some (.dropInstalled order))
  | dropInstalled {e : String × KnownProbe} {stale : List (String × KnownProbe)} :
    Runs s (.dropInstalled (e :: stale)) (s.removeInstalled e.1 e.2).2
      (some (.dropInstalled stale))
  | kept : Runs s (.dropInstalled []) s none
  | clearHooks :
    Runs s .clearHooks (s.hooking fun k => ((), k.clearHooks)).2 (some .clearPending)
  | clearPending :
    Runs s .clearPending (s.hooking fun k => ((), k.clearPending)).2 (some .clearProbes)
  | clearProbes : Runs s .clearProbes (s.setProbes (·.clear)) none

/-- Whether the last probe at a target leaves, and its hook is not waiting any more: an event has
installed it, and nobody has been told yet. -/
def Setup.Overtaken (e : String × KnownProbe) (target : HookTarget) (s : Setup) : Prop :=
  e.2.probe.target = .ok (some target) ∧
    (Probes.leave target e.1 (s.engine.probes.dropPending e.1)).1 = true ∧
    s.engine.hooks.isPending target = false

/-- The engine with all that is under way. -/
structure Traffic where
  setup : Setup
  /-- What the thread goes on with that has the lock of the probes, if any has it. -/
  holder : Option Hold := none
  jobs : Multiset Job := 0
  /-- Targets whose hook was installed while the last probe that waited for it was removed, as long
  as nobody asks for the hook anew. -/
  astray : HookTarget → Prop := fun _ => False

namespace Traffic

/-- The targets that are astray once the holder of the lock has gone on. -/
def strayed (s : Traffic) : Hold → HookTarget → Prop
  | .request _ target, t => s.astray t ∧ t ≠ target
  | .dropPending (e :: _) _, t => s.astray t ∨ s.setup.Overtaken e t
  | _, t => s.astray t

/-- One section of one thread, or a thread that sets out to do something that is open to it. -/
inductive Step (opens : Job → Prop) (s : Traffic) : Traffic → Prop
  | begins {job : Job} (allowed : opens job) : Step opens s { s with jobs := job ::ₘ s.jobs }
  | runs {job : Job} {others next : Multiset Job} {setup : Setup}
      (ready : s.jobs = job ::ₘ others) (part : job.Runs s.setup setup next) :
    Step opens s { s with setup, jobs := next + others }
  | locks {job : Job} {others next : Multiset Job} {setup : Setup} {holder : Option Hold}
      (ready : s.jobs = job ::ₘ others) (free : s.holder = none)
      (part : job.Locks s.setup setup next holder) :
    Step opens s { s with setup, holder, jobs := next + others }
  | holds {hold : Hold} {setup : Setup} {holder : Option Hold} (held : s.holder = some hold)
      (part : hold.Runs s.setup setup holder) :
    Step opens s { s with setup, holder, astray := s.strayed hold }

abbrev Reaches (opens : Job → Prop) : Traffic → Traffic → Prop :=
  Relation.ReflTransGen (Step opens)

/-- Nobody is in the middle of anything. -/
def Quiet (s : Traffic) : Prop := s.holder = none ∧ s.jobs = 0

end Traffic
end LiveProbe
