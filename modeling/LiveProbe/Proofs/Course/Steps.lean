import LiveProbe.Proofs.Course.Duty
import LiveProbe.Proofs.World.Observation

/-!
The course that a host with an engine takes, step by step. Calls and lines may be nested, and what
they have found to call waits until they come to it; meanwhile types are defined, units loaded and
configurations applied. Each step tells of every probe exactly what it does to the standing of its
name.
-/
namespace LiveProbe

/-- A host that runs, and what is still due in the calls and lines in progress. -/
structure Course where
  world : World
  /-- Callbacks that have been found and not been called, those of the innermost call first. -/
  due : List (List Callback) := []

namespace World

def standing (w : World) (id : String) : Standing :=
  w.engines[0]?.elim .unknown (·.probes.standing id)

structure Announced (r : Reporter) (w w' : World) (told : List Notice) : Prop where
  journal : w'.journal = w.journal ++ told.map .notice
  paired : Notice.Paired w.poisoned told
  each : ∀ id, r.Announces w.poisoned id (w.standing id)
    (told.filter fun n => n.probeId = id) (w'.standing id)

structure Drifts (w w' : World) : Prop where
  host : w'.host = w.host
  engines : w'.engines = w.engines
  journal : w'.journal = w.journal
  poisoned : w'.poisoned = w.poisoned

variable {w w' : World} {s s' : Setup} {r : Reporter} {told : List Notice}

theorem Around.standing (around : w.Around s) : w.standing = s.engine.probes.standing := by
  unfold World.standing
  rw [around.engines]
  rfl

theorem Around.announced (around : w.Around s) (around' : w'.Around s')
    (announced : Setup.Announced r w.poisoned s s' told) : w.Announced r w' told where
  journal := by
    rw [around'.journal, around.journal]
    exact announced.journal
  paired := announced.paired
  each := by
    rw [around.standing, around'.standing]
    exact announced.each

theorem Around.withHost (around : w.Around s) (host : Host) :
    ({ w with host } : World).Around { s with host } :=
  ⟨rfl, around.engines, around.journal, around.warnings⟩

theorem Around.define (around : w.Around s)
    (heard : s.host.definitionObservers.map (·.2) = [.engine 0]) (typeName : String)
    (methods : List (String × Code)) :
    let bodies := methods.map fun e => (e.1, Body.program e.2)
    let s' : Setup := { s with host := s.host.define typeName bodies }
    (w.define typeName methods).Around (s'.typeDefined typeName) := by
  intro bodies s'
  rw [define_eq, around.host, heard]
  exact (around.withHost (s.host.define typeName bodies)).inSetup
    fun s => ((), s.typeDefined typeName)

theorem Around.load (around : w.Around s)
    (heard : s.host.compileObservers.map (·.2) = [.engine 0]) (path : String)
    (lines : List UInt32) :
    let s' : Setup := { s with host := (s.host.load path lines).2 }
    (w.load path lines).2.Around (s'.unitLoaded (s.host.load path lines).1) := by
  intro s'
  rw [load_eq, around.host, heard]
  exact (around.withHost (s.host.load path lines).2).inSetup
    fun s' => ((), s'.unitLoaded (s.host.load path lines).1)

end World

namespace Course

variable {propagate untargeted : Bool} {r : Reporter} {failing : List String} {c c' : Course}

/-- What may happen next. A call finds what is live on its method before its program runs, and a line
the traces that it concerns; a panic takes along what is due of the innermost one. -/
inductive Step : Course → Course → Prop
  | defines {c : Course} (typeName : String) (methods : List (String × Code)) :
    Step c { c with world := c.world.define typeName methods }
  | loads {c : Course} (path : String) (lines : List UInt32) :
    Step c { c with world := (c.world.load path lines).2 }
  | applies {c : Course} (document : Json) :
    Step c { c with world := (c.world.inSetup 0 (·.applyDocument document)).2 }
  | keeps {c : Course} (named : List String) :
    Step c { c with world := (c.world.inSetup 0 (·.keepProbes named)).2 }
  | delivers {c : Course} : Step c { c with world := c.world.updateSetup 0 Setup.settleDelivery }
  | drifts {c : Course} {w : World} (apart : c.world.Drifts w) : Step c { c with world := w }
  | calls {c : Course} {m : MethodName} {body : Body} (found : c.world.host.body? m = some body) :
    Step c { c with due := (body.live fun n => c.world.slot n m).map (·.2) :: c.due }
  | runs {c : Course} (path : String) (line : UInt32) :
    Step c { c with due := c.world.host.callbacksAt path line :: c.due }
  | fires {w : World} {callback : Callback} {rest : List Callback} {due : List (List Callback)}
      (x : Execution) :
    Step ⟨w, (callback :: rest) :: due⟩ ⟨(Action.fire (fun _ _ => pure .nil) x callback w).2,
      rest :: due⟩
  | ends {w : World} {callbacks : List Callback} {due : List (List Callback)} :
    Step ⟨w, callbacks :: due⟩ ⟨w, due⟩

abbrev Reaches : Course → Course → Prop := Relation.ReflTransGen Step

/-- The engine stands as it should, and whatever is due acts for installed probes. -/
structure Sound (propagate untargeted : Bool) (r : Reporter) (failing : List String) (c : Course) :
    Prop where
  hosts : c.world.Hosts (Setup.Serving propagate untargeted r c.due.flatten)
  poisoned : c.world.poisoned = failing

theorem lasting_serving (propagate untargeted : Bool) (r : Reporter) (due : List Callback) :
    World.Lasting (World.Hosts (Setup.Serving propagate untargeted r due)) :=
  World.lasting_hosts (Setup.kept_serving r due).stable

namespace Sound

theorem inSetup (sound : c.Sound propagate untargeted r failing) {α : Type} {f : Setup → α × Setup}
    (attuned : ∀ s, Setup.Attuned propagate untargeted s →
      Setup.Attuned propagate untargeted (f s).2)
    (kept : ∀ s (J : Setup → Prop), Setup.Composed propagate s →
      Setup.Kept (fun _ _ => True) J → J s → J (f s).2) :
    Sound propagate untargeted r failing { c with world := (c.world.inSetup 0 f).2 } where
  hosts := sound.hosts.inSetup (fun s serving =>
    ⟨attuned s serving.1, kept s _ serving.1.composed (Setup.kept_serving r _) serving.2⟩) 0
  poisoned := (World.poisoned_inSetup 0 f c.world).trans sound.poisoned

theorem step (sound : c.Sound propagate untargeted r failing) (step : c.Step c') :
    c'.Sound propagate untargeted r failing := by
  have lasting := lasting_serving propagate untargeted r c.due.flatten
  have steady := World.lasting_poisoned failing
  cases step with
  | defines typeName methods =>
    exact ⟨lasting.define typeName methods _ sound.hosts,
      steady.define typeName methods _ sound.poisoned⟩
  | loads path lines =>
    exact ⟨lasting.load path lines _ sound.hosts, steady.load path lines _ sound.poisoned⟩
  | applies document =>
    exact sound.inSetup
      (fun s attuned => attuned.of_passage
        (Setup.applyDocument_application attuned.composed.coherent document).toPassage)
      fun s J composed kept holds => kept.applyDocument composed document holds
  | keeps named =>
    exact sound.inSetup
      (fun s attuned => attuned.of_passage
        (Setup.keepProbes_retention attuned.composed.coherent named).toPassage)
      fun s J composed kept holds => kept.keepProbes composed named holds
  | delivers => exact ⟨lasting.settled 0 _ sound.hosts, steady.settled 0 _ sound.poisoned⟩
  | drifts apart =>
    exact ⟨lasting.congr _ _ apart.host apart.engines apart.poisoned sound.hosts,
      apart.poisoned.trans sound.poisoned⟩
  | @calls _ m body found =>
    obtain ⟨e, only, serving⟩ := sound.hosts
    refine ⟨⟨e, only, serving.of_serves fun callback member => ?_⟩, sound.poisoned⟩
    rcases List.mem_append.mp member with new | old
    · exact serving.live found new
    · exact serving.2.2 callback old
  | runs path line =>
    obtain ⟨e, only, serving⟩ := sound.hosts
    refine ⟨⟨e, only, serving.of_serves fun callback member => ?_⟩, sound.poisoned⟩
    rcases List.mem_append.mp member with new | old
    · exact serving.callbacksAt path line callback new
    · exact serving.2.2 callback old
  | @fires w callback rest due x =>
    have kept : (Action.fire (fun _ _ => pure .nil) x callback w).2.Hosts _ :=
      Action.respects_fire lasting.confined (fun _ _ _ => Action.respects_pure _) x
        callback.within_any w sound.hosts
    have poisoned : (Action.fire (fun _ _ => pure .nil) x callback w).2.poisoned = failing :=
      Action.respects_fire steady.confined (fun _ _ _ => Action.respects_pure _) x
        callback.within_any w sound.poisoned
    exact ⟨kept.mono fun s serving => serving.of_serves fun callback later =>
      serving.2.2 callback (List.mem_cons_of_mem _ later), poisoned⟩
  | ends =>
    exact ⟨sound.hosts.mono fun s serving => serving.of_serves fun callback later =>
      serving.2.2 callback (List.mem_append_right _ later), sound.poisoned⟩

theorem reaches (sound : c.Sound propagate untargeted r failing) (reaches : c.Reaches c') :
    c'.Sound propagate untargeted r failing := by
  induction reaches with
  | refl => exact sound
  | tail _ step ih => exact ih.step step

theorem announced (sound : c.Sound propagate untargeted r failing) (step : c.Step c') :
    ∃ told, c.world.Announced r c'.world told := by
  obtain ⟨e, only, serving⟩ := sound.hosts
  obtain ⟨attuned, ⟨-, -, reporter⟩, serves⟩ := id serving
  let s : Setup := ⟨c.world.host, e, c.world.journal, c.world.warnings⟩
  have around : c.world.Around s := ⟨rfl, only, rfl, rfl⟩
  have idle : ∀ {w : World} {s' : Setup}, w.Around s' → s'.journal = s.journal →
      s'.engine.probes = s.engine.probes → ∃ told, c.world.Announced r w told := by
    intro w s' around' journal probes
    exact ⟨[], around.announced around'
      (Setup.announced_nothing journal fun id => Or.inl (by rw [probes]))⟩
  cases step with
  | defines typeName methods =>
    obtain ⟨told, announced⟩ := serving.define_announced typeName methods
    exact ⟨told, around.announced (around.define attuned.definitionObservers typeName methods)
      announced⟩
  | loads path lines =>
    obtain ⟨told, announced⟩ := serving.load_announced path lines
    exact ⟨told, around.announced (around.load attuned.compileObservers path lines) announced⟩
  | applies document =>
    obtain ⟨told, announced⟩ := Setup.applyDocument_announced reporter document
    exact ⟨told, around.announced (around.inSetup _) announced⟩
  | keeps named =>
    exact ⟨[], around.announced (around.inSetup _)
      (Setup.keepProbes_announced attuned.composed named)⟩
  | delivers => exact idle (around.inSetup fun s => ((), s.settleDelivery)) rfl rfl
  | @drifts _ w apart =>
    have around' : w.Around ⟨w.host, e, w.journal, w.warnings⟩ :=
      ⟨rfl, apart.engines.trans only, rfl, rfl⟩
    exact idle around' apart.journal rfl
  | calls | runs | ends => exact idle around rfl rfl
  | @fires w callback rest due x =>
    obtain ⟨s', told, around', announced⟩ := Setup.fired_announced around
      attuned.composed.coherent.ordered reporter (serves callback List.mem_cons_self) x
    exact ⟨told, around.announced around' announced⟩

end Sound
end Course
end LiveProbe
