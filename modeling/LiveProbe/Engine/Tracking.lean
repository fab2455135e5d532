import LiveProbe.Engine.Basic

/-!
How the engine follows its host. The registry is told of the units that the host loads as long as
it tracks them, and tells its listeners of every unit that it did not know; the hooks are told of
the types that the host defines.
-/
namespace LiveProbe.Setup

def tellListener (unit : CompiledUnit) (s : Setup) (l : CodeListener) : Setup :=
  match l with
  | .hooks => s.fileKnown unit.path
  | .watcher label => s.note (.compiled label unit)

def registerUnit (path : String) (unit : CompiledUnit) (s : Setup) : Bool × Setup :=
  match s.engine.code with
  | none => (false, s)
  | some code =>
    let (added, code) := code.register path unit
    let s := { s with engine := { s.engine with code := some code } }
    (added, if added then code.listeners.foldl (tellListener unit) s else s)

def unitLoaded (s : Setup) (unit : CompiledUnit) : Setup := (s.registerUnit unit.path unit).2

def setCode (f : CodeRegistry → CodeRegistry) (s : Setup) : Setup :=
  { s with engine := { s.engine with code := s.engine.code.map f } }

/-- Starts tracking, unless it is on. Units loaded before are registered while lines can not be
traced in units yet. -/
def track (s : Setup) : Setup :=
  match s.engine.code with
  | none => s
  | some { subscription := some _, .. } => s
  | some _ =>
    let (id, host) := s.host.subscribeCompiles (.engine s.engine.number)
    let s := { s with host }.setCode fun c => { c with subscription := some id }
    (host.loadedUnits.foldl unitLoaded s).setCode fun c => { c with active := true }

/-- Stops tracking; units that are known stay known. -/
def untrack (s : Setup) : Setup :=
  match s.engine.code with
  | some { subscription := some id, .. } =>
    { s with host := s.host.unsubscribeCompiles id }.setCode fun c =>
      { c with subscription := none, active := false }
  | _ => s

def isTracking (s : Setup) : Bool := s.engine.code.any (·.active)

/-- Has the hooks told of definitions, once, and of units, once more. -/
def subscribe (s : Setup) : Setup :=
  let s := match s.engine.hooks.definitions with
    | some _ => s
    | none =>
      let (id, host) := s.host.subscribeDefinitions (.engine s.engine.number)
      { s with host, engine := { s.engine with hooks := { s.engine.hooks with definitions := some id } } }
  s.setCode (·.addListener .hooks)

theorem track_of_subscribed {s : Setup} {code : CodeRegistry} {id : Nat}
    (known : s.engine.code = some code) (on : code.subscription = some id) : s.track = s := by
  obtain ⟨units, active, subscription, listeners⟩ := code
  subst on
  simp [track, known]

end LiveProbe.Setup
