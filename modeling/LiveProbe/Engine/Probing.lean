import LiveProbe.Engine.Tracking

/-!
Probes come and go. The first probe at a location asks for its hook, the last one to leave gives
the hook up. A hook that is refused leaves nothing behind; a probe whose hook can not be removed
stays.
-/
namespace LiveProbe.Setup

def enter (installed : Bool) (k : KnownProbe) (s : Setup) : Setup :=
  if installed then (s.setProbes (·.addInstalled k)).tellStatus k.probe .installed
  else s.setProbes (·.addPending k)

def requestHook (target : HookTarget) (s : Setup) : Except Error Bool × Setup :=
  s.hooking <| Hooking.hookWhenDefined s.engine.code target
    (.probes s.engine.number s.engine.probes.nextGroup)

def enterFirst (target : HookTarget) (p : Probe) (installed : Bool) (s : Setup) : Setup :=
  let (k, s) := s.onProbes (Probes.found target p)
  s.enter installed k

def enterGroup (group : Nat) (p : Probe) (s : Setup) : Setup :=
  let installed := s.engine.probes.groupInstalled group
  let (k, s) := s.onProbes (Probes.join group p)
  s.enter installed k

def addProbe (p : Probe) (s : Setup) : Except Error Unit × Setup :=
  match s.engine.probes.admission p with
  | .error e => (.error e, s)
  | .ok .idle => (.ok (), s)
  | .ok (.joins group) => (.ok (), s.enterGroup group p)
  | .ok (.founds target) =>
    match s.requestHook target with
    | (.error e, s) => (.error e, s)
    | (.ok installed, s) => (.ok (), s.enterFirst target p installed)

/-- Forgets a pending probe, and its hook if no other probe waits for it. -/
def removePending (s : Setup) (e : String × KnownProbe) : Setup :=
  let s := s.setProbes (·.dropPending e.1)
  match e.2.probe.target with
  | .ok (some target) =>
    match s.onProbes (Probes.leave target e.1) with
    | (true, s) => (s.onHooks (·.clearPending target)).2
    | (false, s) => s
  | _ => s

/-- Removes an installed probe, and its hook unless another probe uses it. -/
def removeInstalled (id : String) (k : KnownProbe) (s : Setup) : Except Error Unit × Setup :=
  match k.probe.target with
  | .ok (some target) =>
    let (unhooked, s) := if s.engine.probes.sharesHook target id then (.ok (), s)
      else s.hooking (Hooking.unhook target)
    match unhooked with
    | .ok () => (.ok (), (s.onProbes (Probes.leave target id)).2.setProbes (·.dropInstalled id))
    | .error e => (.error e, s.warn (.probeStays id e))
  | _ => (.ok (), s.setProbes (·.dropInstalled id))

def removeAllInstalled : List (String × KnownProbe) → Setup → Except Error Unit × Setup
  | [], s => (.ok (), s)
  | (id, k) :: rest, s =>
    let (first, s) := s.removeInstalled id k
    let (later, s) := removeAllInstalled rest s
    (match first with
      | .error e => .error e
      | .ok () => later, s)

/-- Removes all probes but the named ones. An error is told only if errors reach the host. -/
def keepProbes (named : List String) (s : Setup) : Except Error Unit × Setup :=
  let s := (Probes.others named s.engine.probes.pending).foldl removePending s
  let (result, s) := s.removeAllInstalled (Probes.others named s.engine.probes.installed)
  (if s.engine.propagate then result else .ok (), s)

def closeProbes (s : Setup) : Setup :=
  (s.hooking fun k => ((), k.close)).2.setProbes (·.clear)

theorem addProbe_of_isKnown {p : Probe} {s : Setup} (h : s.engine.probes.isKnown p.id = true) :
    s.addProbe p = (.ok (), s) := by
  simp [addProbe, Probes.admission_of_isKnown h]

theorem addProbe_of_target_error {p : Probe} {s : Setup} {e : Error}
    (unknown : s.engine.probes.isKnown p.id = false) (h : p.target = .error e) :
    s.addProbe p = (.error e, s) := by
  simp [addProbe, Probes.admission, unknown, h]

end LiveProbe.Setup
