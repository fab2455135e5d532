import LiveProbe.Proofs.Code.Seniority
import LiveProbe.Proofs.Line.Stock

/-!
The registry of an engine, whatever else the engine does. Units are registered while listeners come
and go; what a location is looked up as is settled by the order of the registrations alone, and a
registration is told to all that listen then, once to each, or to nobody.
-/
namespace LiveProbe

def CodeListener.sighting (unit : CompiledUnit) : CodeListener → List (String × CompiledUnit)
  | .hooks => []
  | .watcher label => [(label, unit)]

def Occurrence.sighting? : Occurrence → Option (String × CompiledUnit)
  | .compiled label unit => some (label, unit)
  | _ => none

namespace Setup

open CodeRegistry

variable {s s' : Setup} {history later : List Registration} {live live' : List CodeListener}

def lookup (location : String) (s : Setup) : Option CompiledUnit :=
  s.engine.code.bind (·.lookup location)

def registerAll (s : Setup) (registrations : List Registration) : Setup :=
  registrations.foldl (fun s e => (s.registerUnit e.1 e.2).2) s

def sightings (s : Setup) : List (String × CompiledUnit) :=
  s.journal.filterMap Occurrence.sighting?

theorem sightings_fileKnown (s : Setup) (path : String) :
    (s.fileKnown path).sightings = s.sightings := by
  refine foldl_hookInstalled_keeps (P := fun s' => s'.sightings = s.sightings)
    (fun s' k same => ?_) (fun s' t same => ?_) _ _ rfl
  · rw [← same]
    simp [promote, tellStatus, setProbes, tell, note, sightings, Occurrence.sighting?]
  · rw [← same]
    simp [note, sightings, Occurrence.sighting?]

theorem sightings_tellListener (unit : CompiledUnit) (s : Setup) (l : CodeListener) :
    (s.tellListener unit l).sightings = s.sightings ++ l.sighting unit := by
  cases l with
  | hooks => simp [tellListener, CodeListener.sighting, sightings_fileKnown]
  | watcher label =>
    simp [tellListener, note, sightings, CodeListener.sighting, Occurrence.sighting?]

theorem sightings_foldl_tellListener (unit : CompiledUnit) (ls : List CodeListener) (s : Setup) :
    (ls.foldl (tellListener unit) s).sightings =
      s.sightings ++ ls.flatMap (·.sighting unit) := by
  induction ls generalizing s with
  | nil => simp
  | cons l rest ih => simp [ih, sightings_tellListener]

/-- Setups whose registry was empty once, had these units registered with it one after the other,
and has these listeners now. In between may happen whatever leaves its units and listeners alone. -/
inductive Recorded : Setup → List Registration → List CodeListener → Prop where
  | opened {s : Setup} (code : s.engine.code = some {}) : Recorded s [] []
  | register {s : Setup} {history live} (path : String) (unit : CompiledUnit)
      (before : Recorded s history live) :
      Recorded (s.registerUnit path unit).2 (history ++ [(path, unit)]) live
  | listen {s : Setup} {history live} (l : CodeListener) (before : Recorded s history live) :
      Recorded (s.setCode (·.addListener l)) history (live ++ [l])
  | drop {s : Setup} {history live} (label : String) (before : Recorded s history live) :
      Recorded (s.setCode (·.dropWatcher label)) history
        (live.filter fun l => l ≠ .watcher label)
  | elsewhere {s s' : Setup} {history live} (before : Recorded s history live)
      (same : s'.engine.code.map (fun r => (r.units, r.listeners)) =
        s.engine.code.map fun r => (r.units, r.listeners)) :
      Recorded s' history live

theorem Recorded.registry (recorded : Recorded s history live) :
    ∃ r, s.engine.code = some r ∧ r.Records history ∧ r.listeners = live := by
  induction recorded with
  | opened code => exact ⟨{}, code, Records.empty, rfl⟩
  | register path unit _ ih =>
    obtain ⟨r, code, records, listeners⟩ := ih
    refine ⟨_, code_registerUnit code path unit, records.register path unit, ?_⟩
    rw [register_eq]
    exact listeners
  | listen l _ ih =>
    obtain ⟨r, code, records, listeners⟩ := ih
    exact ⟨r.addListener l, congrArg (Option.map _) code, records,
      congrArg (· ++ [l]) listeners⟩
  | drop label _ ih =>
    obtain ⟨r, code, records, listeners⟩ := ih
    exact ⟨r.dropWatcher label, congrArg (Option.map _) code, records,
      congrArg (List.filter _) listeners⟩
  | elsewhere _ same ih =>
    obtain ⟨r, code, records, listeners⟩ := ih
    rw [code, Option.map_some, Option.map_eq_some_iff] at same
    obtain ⟨r', code', both⟩ := same
    obtain ⟨units, listeners'⟩ := Prod.mk.inj both
    refine ⟨r', code', fun key => ?_, listeners'.trans listeners⟩
    rw [units]
    exact records key

theorem Recorded.lookup (recorded : Recorded s history live) (location : String) :
    s.lookup location = eldest location history := by
  obtain ⟨r, code, records, -⟩ := recorded.registry
  unfold Setup.lookup
  rw [code, Option.bind_some, records.lookup]

theorem Recorded.registerAll (recorded : Recorded s history live) (later : List Registration) :
    Recorded (s.registerAll later) (history ++ later) live := by
  induction later generalizing s history with
  | nil => simpa [Setup.registerAll] using recorded
  | cons e rest ih => simpa [Setup.registerAll] using ih (recorded.register e.1 e.2)

theorem Recorded.foldl_unitLoaded (recorded : Recorded s history live)
    (units : List CompiledUnit) :
    Recorded (units.foldl unitLoaded s) (history ++ units.map (·.registration)) live := by
  have all := recorded.registerAll (units.map (·.registration))
  unfold Setup.registerAll at all
  rwa [List.foldl_map] at all

theorem Recorded.setCode (recorded : Recorded s history live) {f : CodeRegistry → CodeRegistry}
    (same : ∀ r, ((f r).units, (f r).listeners) = (r.units, r.listeners)) :
    Recorded (s.setCode f) history live := by
  refine recorded.elsewhere ?_
  simp only [Setup.setCode, Option.map_map, Function.comp_def, same]

def backlog (s : Setup) : List CompiledUnit :=
  if s.engine.code.any (·.subscription.isNone) then s.host.loadedUnits else []

theorem Recorded.track (recorded : Recorded s history live) :
    Recorded s.track (history ++ s.backlog.map (·.registration)) live := by
  obtain ⟨r, code, -, -⟩ := recorded.registry
  cases subscription : r.subscription with
  | some id =>
    rw [track_of_subscribed code subscription]
    simpa [backlog, code, subscription] using recorded
  | none =>
    have told : s.backlog = s.host.loadedUnits := by simp [backlog, code, subscription]
    obtain ⟨units, active, idle, listeners⟩ := r
    obtain rfl : idle = none := subscription
    rw [told]
    simp only [Setup.track, code]
    have subscribed : Recorded
        { s with host := (s.host.subscribeCompiles (.engine s.engine.number)).2 } history live :=
      recorded.elsewhere rfl
    refine Recorded.setCode (Recorded.foldl_unitLoaded (Recorded.setCode subscribed ?_) _) ?_
    · exact fun _ => rfl
    · exact fun _ => rfl

theorem Recorded.subscribe (recorded : Recorded s history live) :
    Recorded s.subscribe history (live ++ [.hooks]) := by
  refine Recorded.listen .hooks ?_
  split
  · exact recorded
  · exact recorded.elsewhere rfl

theorem Recorded.start (recorded : Recorded s history live) :
    Recorded s.start (history ++ s.backlog.map (·.registration)) (live ++ [.hooks]) :=
  recorded.track.subscribe

/-- A registry in which the earliest registration counts. -/
structure Seniority (s : Setup) (history : List Registration) (live : List CodeListener) :
    Prop where
  /-- The location itself goes before its base name, and the earlier registration before a later. -/
  found : ∀ location, s.lookup location =
    (earliest location history).or (earliest (Text.basename location) history)
  /-- What is found once is found after any registrations more; under a base name it is the same. -/
  lasting : ∀ {s' later live'}, Recorded s' (history ++ later) live' → ∀ {location unit},
    s.lookup location = some unit →
      (s'.lookup location).isSome = true ∧
        (Text.basename location = location → s'.lookup location = some unit)
  told : ∀ {path} (unit), Novel path history →
    s.registerUnit path unit =
      (true, live.foldl (tellListener unit) (s.setCode fun r => (r.register path unit).2))
  sighted : ∀ {path} (unit), Novel path history →
    (s.registerUnit path unit).2.sightings = s.sightings ++ live.flatMap (·.sighting unit)
  ignored : ∀ {path} (unit), ¬ Novel path history → s.registerUnit path unit = (false, s)

/-- Whatever is registered and whoever listens, the registry answers by the history of its
registrations, and tells its listeners of those that brought a key that had not been there. -/
theorem registry_seniority (recorded : Recorded s history live) : s.Seniority history live := by
  obtain ⟨r, code, records, listeners⟩ := recorded.registry
  have told : ∀ {path} (unit), Novel path history → s.registerUnit path unit =
      (true, live.foldl (tellListener unit) (s.setCode fun r => (r.register path unit).2)) := by
    intro path unit novel
    have added := (records.register_novel path unit).mpr novel
    have same : (r.register path unit).2.listeners = live := by
      rw [register_eq]
      exact listeners
    simp [registerUnit, code, added, same, Setup.setCode]
  constructor
  case found => exact recorded.lookup
  case lasting =>
    intro s' later live' recorded' location unit found
    rw [recorded.lookup] at found
    rw [recorded'.lookup]
    refine ⟨isSome_eldest_append (Option.isSome_of_mem found) later, fun base => ?_⟩
    rw [eldest_of_base base] at found ⊢
    exact earliest_of_earlier found later
  case told => exact told
  case sighted =>
    intro path unit novel
    rw [told unit novel]
    exact sightings_foldl_tellListener unit live _
  case ignored =>
    intro path unit old
    have known : (r.register path unit).1 = false := by
      rw [← Bool.not_eq_true, records.register_novel]
      exact old
    have same : r.register path unit = (false, r) := Prod.ext known (register_of_known known)
    have unchanged : { s with engine := { s.engine with code := some r } } = s := by rw [← code]
    simp only [registerUnit, code, same, unchanged, Bool.false_eq_true, if_false]

namespace Sample

def idle : Setup where
  host := (({ listsUnits := true } : Host).load "/app/f.rb" [10]).2
  engine := World.Sample.engine

def attended : Setup := idle.start.setCode (·.addListener (.watcher "w"))

def shadowed : List Registration :=
  [("lib\\f.rb", ⟨2, "lib\\f.rb", [20]⟩), ("f.rb", ⟨3, "f.rb", [30]⟩),
    ("/app/", ⟨4, "/app/", [40]⟩)]

end Sample

open Sample in
theorem registry_seniority_shadowed :
    let s := attended.registerAll shadowed
    (s.lookup "f.rb").map (·.id) = some 1 ∧ (s.lookup "/other/f.rb").map (·.id) = some 1 ∧
      (s.lookup "lib\\f.rb").map (·.id) = some 2 ∧ (s.lookup "/app/").map (·.id) = some 4 ∧
      s.lookup "" = none ∧
      s.registerUnit "f.rb" ⟨5, "f.rb", []⟩ = (false, s) ∧
      (s.registerUnit "/lib/f.rb" ⟨5, "/lib/f.rb", []⟩).2.sightings =
        s.sightings ++ [("w", ⟨5, "/lib/f.rb", []⟩)] := by
  intro s
  have listed : idle.backlog = [⟨1, "/app/f.rb", [10]⟩] := by decide +kernel
  have started := (Recorded.opened (s := idle) rfl).start
  rw [listed] at started
  have recorded : Recorded s (("/app/f.rb", ⟨1, "/app/f.rb", [10]⟩) :: shadowed)
      [.hooks, .watcher "w"] :=
    (started.listen (.watcher "w")).registerAll shadowed
  have senior := registry_seniority recorded
  refine ⟨?_, ?_, ?_, ?_, ?_, senior.ignored _ (by decide +kernel),
    senior.sighted _ (by decide +kernel)⟩ <;>
    (rw [senior.found]; decide +kernel)

end Setup
end LiveProbe
