import LiveProbe.Engine.Component
import LiveProbe.Proofs.Code.Catalog
import LiveProbe.Proofs.Engine.Following
import LiveProbe.Proofs.Engine.Processing

/-!
The engine that a host runs with: coherent, on a host that refuses nothing, and told of definitions
and of units as long as it follows them. Nothing that happens to the engine or its host changes
this.
-/
namespace LiveProbe

theorem Probes.Ordered.of_limiters {ps : Probes} (ordered : ps.Ordered) (limiters : Limiters) :
    Probes.Ordered { ps with limiters } where
  toGrouped := ⟨ordered.installed, ordered.pending, ordered.apart, ordered.nodup, ordered.members,
    ordered.placed, ordered.distinct, ordered.numbered, ordered.fresh⟩
  inhabited := ordered.inhabited

namespace Setup

variable {s s' : Setup} {propagate : Bool}

structure Composed (propagate : Bool) (s : Setup) : Prop where
  coherent : Coherent [] s
  number : s.engine.hooks.manager = 0
  propagates : s.engine.propagate = propagate
  willing : ∀ c t, s.host.refuses c t = none
  lists : s.host.listsUnits = true
  definitions : s.host.definitionObservers =
    s.engine.hooks.definitions.toList.map fun id => (id, Observer.engine 0)
  compiles : s.host.compileObservers =
    (s.engine.code.bind (·.subscription)).toList.map fun id => (id, Observer.engine 0)

theorem Composed.of_backdrop (composed : Composed propagate s) (backdrop : Backdrop s s')
    (coherent : Coherent [] s') : Composed propagate s' := by
  have wired := fun {α : Type} (f : Hooking.Wiring → α) => congrArg f backdrop.wiring
  refine ⟨coherent, (wired (·.manager)).trans composed.number,
    backdrop.propagate.trans composed.propagates, fun c t => ?_,
    (wired (·.listsUnits)).trans composed.lists, ?_, ?_⟩
  · rw [show s'.host.refuses = s.host.refuses from wired (·.refuses)]
    exact composed.willing c t
  · rw [show s'.host.definitionObservers = s.host.definitionObservers from
        wired (·.definitionObservers),
      show s'.engine.hooks.definitions = s.engine.hooks.definitions from wired (·.definitions)]
    exact composed.definitions
  · rw [show s'.host.compileObservers = s.host.compileObservers from wired (·.compileObservers),
      backdrop.code]
    exact composed.compiles

theorem Composed.of_passage (composed : Composed propagate s) (passage : Passage s s') :
    Composed propagate s' := composed.of_backdrop passage.backdrop passage.coherent

theorem Composed.of_unmoved (composed : Composed propagate s) (unmoved : Unmoved s s')
    (anchored : s'.held.Anchored) : Composed propagate s' :=
  composed.of_passage (Passage.of_unmoved composed.coherent unmoved anchored)

theorem Composed.process (composed : Composed propagate s) (documents : List Json) :
    Composed propagate (s.process documents).2 :=
  composed.of_passage (process_passage composed.coherent documents)

theorem Composed.addProbe (composed : Composed propagate s) (p : Probe) :
    Composed propagate (s.addProbe p).2 :=
  composed.of_passage (addProbe_addition composed.coherent p).toPassage

theorem Composed.keepProbes (composed : Composed propagate s) (named : List String) :
    Composed propagate (s.keepProbes named).2 :=
  composed.of_passage (keepProbes_retention composed.coherent named).toPassage

theorem Composed.tell (composed : Composed propagate s) (n : Notice) :
    Composed propagate (s.tell n) :=
  composed.of_unmoved (unmoved_tell n s) composed.coherent.anchored

theorem Composed.settleDelivery (composed : Composed propagate s) :
    Composed propagate s.settleDelivery :=
  composed.of_unmoved (unmoved_settleDelivery s) composed.coherent.anchored

theorem Composed.takeTurn (composed : Composed propagate s) (k : KnownProbe) :
    Composed propagate (s.onProbes (Probes.takeTurn k)).2 := by
  have unfolded : (s.onProbes (Probes.takeTurn k)).2 = { s with engine := { s.engine with
      probes := { s.engine.probes with limiters := (s.engine.probes.takeTurn k).2.limiters } } } := by
    rw [← Probes.takeTurn_eq]
    rfl
  rw [unfolded]
  exact { composed with
    coherent := { composed.coherent with ordered := composed.coherent.ordered.of_limiters _ } }

theorem Composed.define (composed : Composed propagate s) (typeName : String)
    (bodies : List (String × Body)) :
    Composed propagate { s with host := s.host.define typeName bodies } :=
  { composed with
    coherent := { composed.coherent with anchored := { composed.coherent.anchored with } } }

theorem Composed.load (composed : Composed propagate s) (path : String) (lines : List UInt32) :
    Composed propagate { s with host := (s.host.load path lines).2 } := by
  have later := fun t member => Nat.le_succ_of_le (composed.coherent.anchored.bounded t member)
  exact { composed with coherent := { composed.coherent with
    anchored := { composed.coherent.anchored with bounded := later } } }

theorem Composed.typeDefined (composed : Composed propagate s) (typeName : String) :
    Composed propagate (s.typeDefined typeName) :=
  have attended := typeDefined_attended composed.coherent typeName
  composed.of_backdrop attended.backdrop attended.coherent

theorem Composed.fileKnown (composed : Composed propagate s) (path : String) :
    Composed propagate (s.fileKnown path) :=
  have attended := fileKnown_attended composed.coherent path
  composed.of_backdrop attended.backdrop attended.coherent

theorem Composed.of_code (composed : Composed propagate s) {code : Option CodeRegistry}
    (subscription : code.bind (·.subscription) = s.engine.code.bind (·.subscription)) :
    Composed propagate { s with engine := { s.engine with code } } := by
  have compiles := composed.compiles
  rw [← subscription] at compiles
  exact { composed with coherent := { composed.coherent with }, compiles }

theorem Composed.register (composed : Composed propagate s) {registry : CodeRegistry}
    (code : s.engine.code = some registry) (path : String) (unit : CompiledUnit) :
    Composed propagate { s with engine := { s.engine with
      code := some (registry.register path unit).2 } } := by
  apply composed.of_code
  rw [code, CodeRegistry.register_eq]
  rfl

theorem Composed.tellListener (composed : Composed propagate s) (unit : CompiledUnit)
    (l : CodeListener) : Composed propagate (s.tellListener unit l) := by
  cases l with
  | hooks => exact composed.fileKnown unit.path
  | watcher label =>
    exact composed.of_unmoved (unmoved_note _ s) composed.coherent.anchored

theorem Composed.foldl {α : Type} (f : Setup → α → Setup)
    (each : ∀ {s}, Composed propagate s → ∀ a, Composed propagate (f s a)) (l : List α) :
    ∀ {s}, Composed propagate s → Composed propagate (l.foldl f s) := by
  induction l with
  | nil => exact id
  | cons a rest ih => exact fun composed => ih (each composed a)

theorem Composed.registerUnit (composed : Composed propagate s) (path : String)
    (unit : CompiledUnit) : Composed propagate (s.registerUnit path unit).2 := by
  unfold Setup.registerUnit
  cases code : s.engine.code with
  | none => exact composed
  | some registry =>
    have registered := composed.register code path unit
    dsimp only
    split
    · exact Composed.foldl _ (fun composed l => composed.tellListener unit l) _ registered
    · exact registered

theorem Composed.unitLoaded (composed : Composed propagate s) (unit : CompiledUnit) :
    Composed propagate (s.unitLoaded unit) := composed.registerUnit unit.path unit

theorem Composed.subscribeCompiles (composed : Composed propagate s) {registry : CodeRegistry}
    (code : s.engine.code = some registry) (idle : registry.subscription = none) :
    Composed propagate ({ s with host := (s.host.subscribeCompiles (.engine 0)).2 }.setCode
      fun c => { c with subscription := some (s.host.lastId + 1) }) := by
  have later := fun t member => Nat.le_succ_of_le (composed.coherent.anchored.bounded t member)
  have none : s.host.compileObservers = [] := by
    rw [composed.compiles, code]
    simp [idle]
  refine { composed with
    coherent := { composed.coherent with
      anchored := { composed.coherent.anchored with bounded := later } }
    compiles := ?_ }
  show s.host.compileObservers ++ [(s.host.lastId + 1, Observer.engine 0)] = _
  rw [none]
  simp [setCode, code]

theorem Composed.setActive (composed : Composed propagate s) (active : Bool) :
    Composed propagate (s.setCode fun c => { c with active }) := by
  apply composed.of_code
  cases s.engine.code <;> rfl

theorem track_of_idle {registry : CodeRegistry} (code : s.engine.code = some registry)
    (idle : registry.subscription = none) (number : s.engine.hooks.manager = 0) :
    s.track = ((s.host.subscribeCompiles (.engine 0)).2.loadedUnits.foldl Setup.unitLoaded
      ({ s with host := (s.host.subscribeCompiles (.engine 0)).2 }.setCode
        fun c => { c with subscription := some (s.host.lastId + 1) })).setCode
      fun c => { c with active := true } := by
  obtain ⟨units, active, subscription, listeners⟩ := registry
  subst idle
  simp only [Setup.track, code, Engine.number, number]
  rfl

theorem Composed.track (composed : Composed propagate s) : Composed propagate s.track := by
  cases code : s.engine.code with
  | none =>
    have same : s.track = s := by simp [Setup.track, code]
    rw [same]
    exact composed
  | some registry =>
    cases subscription : registry.subscription with
    | some id =>
      rw [track_of_subscribed code subscription]
      exact composed
    | none =>
      rw [track_of_idle code subscription composed.number]
      refine Composed.setActive ?_ true
      exact Composed.foldl _ (fun composed unit => composed.unitLoaded unit) _
        (composed.subscribeCompiles code subscription)

theorem Composed.untrack (composed : Composed propagate s) : Composed propagate s.untrack := by
  unfold Setup.untrack
  split
  · rename_i units active id listeners code
    refine { composed with
      coherent := { composed.coherent with anchored := { composed.coherent.anchored with } }
      compiles := ?_ }
    show s.host.compileObservers.filter _ = _
    rw [composed.compiles]
    simp [setCode, code]
  · exact composed

theorem Composed.addListener (composed : Composed propagate s) (l : CodeListener) :
    Composed propagate (s.setCode (·.addListener l)) := by
  apply composed.of_code
  cases s.engine.code <;> rfl

theorem Composed.subscribeDefinitions (composed : Composed propagate s)
    (idle : s.engine.hooks.definitions = none) : Composed propagate { s with
      host := (s.host.subscribeDefinitions (.engine s.engine.number)).2
      engine := { s.engine with
        hooks := { s.engine.hooks with definitions := some (s.host.lastId + 1) } } } := by
  have later := fun t member => Nat.le_succ_of_le (composed.coherent.anchored.bounded t member)
  refine { composed with
    coherent := { composed.coherent with
      anchored := { composed.coherent.anchored with bounded := later } }
    definitions := ?_ }
  show s.host.definitionObservers ++ [(s.host.lastId + 1, Observer.engine s.engine.number)] = _
  rw [composed.definitions, idle, Engine.number, composed.number]
  rfl

theorem Composed.subscribe (composed : Composed propagate s) : Composed propagate s.subscribe := by
  cases following : s.engine.hooks.definitions with
  | some id =>
    have unfolded : s.subscribe = s.setCode (·.addListener .hooks) := by
      simp [Setup.subscribe, following]
    rw [unfolded]
    exact composed.addListener .hooks
  | none =>
    have subscribed := (composed.subscribeDefinitions following).addListener .hooks
    unfold Setup.subscribe
    rw [following]
    exact subscribed

end Setup
end LiveProbe
