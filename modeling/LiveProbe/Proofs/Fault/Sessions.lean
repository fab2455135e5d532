import LiveProbe.Proofs.Fault.Mirroring
import LiveProbe.Session.Run

/-!
Sessions that go on beside each other, on worlds that differ at most in what has been told,
delivered and warned of. Whatever is asked of both, they answer the same and show the same from then
on, but for what their deliveries have shipped and dropped.
-/
namespace LiveProbe

namespace Session

variable {c : Contrast} {flags : List Bool} {s t : Session} {α : Type}

structure Spared (c : Contrast) (flags : List Bool) (s t : Session) : Prop where
  world : World.Spared c flags s.world t.world
  units : s.units = t.units
  methodHandles : s.methodHandles = t.methodHandles
  lineHandles : s.lineHandles = t.lineHandles
  watchers : s.watchers = t.watchers
  refusals : s.refusals = t.refusals
  interceptors : s.interceptors = t.interceptors

structure Yields (c : Contrast) (flags : List Bool) (x y : α × Session) : Prop where
  answer : x.1 = y.1
  spared : Spared c flags x.2 y.2

namespace Spared

variable (both : Spared c flags s t)
include both

theorem inSetup (default : α) {f g : Setup → α × Setup}
    (alike : ∀ {p s t}, Setup.Spared c p s t → Setup.Yields c p (f s) (g t)) :
    Yields c flags (s.inSetup default f) (t.inSetup default g) := by
  obtain ⟨answer, world⟩ := both.world.inSetup 0 alike
  exact ⟨congrArg (·.getD default) answer, { both with world }⟩

theorem ask (default : α) (f : Engine → α) (blind : ∀ e : Engine, f e.undelivered = f e) :
    Yields c flags (s.inSetup default fun setup => (f setup.engine, setup))
      (t.inSetup default fun setup => (f setup.engine, setup)) :=
  both.inSetup default fun both => ⟨both.part f blind, both⟩

theorem update {f g : Setup → Setup}
    (alike : ∀ {p s t}, Setup.Spared c p s t → Setup.Spared c p (f s) (g t)) :
    Spared c flags (s.update f) (t.update g) :=
  (both.inSetup () fun both => (⟨rfl, alike both⟩ : Setup.Yields _ _ ((), f _) ((), g _))).spared

theorem withHost (host : Host) :
    Spared c flags { s with world := { s.world with host } }
      { t with world := { t.world with host } } :=
  { both with world := { both.world with host := rfl } }

theorem onHost (f : Host → α × Host) : Yields c flags (s.onHost f) (t.onHost f) := by
  unfold Session.onHost
  rw [both.world.host]
  exact ⟨rfl, both.withHost _⟩

theorem run {x y : Action SessionAnswer} (mirrors : Action.Mirrors c flags x y) :
    Yields c flags (s.run x) (t.run y) := by
  obtain ⟨answer, world⟩ := mirrors _ _ both.world
  unfold Session.run
  rcases left : x s.world with ⟨result, w⟩
  rcases right : y t.world with ⟨result', v⟩
  rw [left, right] at answer world
  obtain rfl : result = result' := answer
  cases result <;> exact ⟨rfl, { both with world }⟩

theorem engine?_part {β : Type} (f : Engine → β) (blind : ∀ e : Engine, f e.undelivered = f e) :
    s.engine?.map f = t.engine?.map f := by
  unfold Session.engine?
  rcases both.world.getElem_engines 0 with ⟨left, right⟩ | ⟨e, e', flag, left, right, -, paired⟩
  · rw [left, right]
  · rw [left, right]
    exact congrArg some (Engine.part paired.engine f blind)

theorem delivers : s.delivery?.isSome = t.delivery?.isSome := by
  unfold Session.delivery? Session.engine?
  rcases both.world.getElem_engines 0 with ⟨left, right⟩ | ⟨e, e', flag, left, right, -, paired⟩
  · rw [left, right]
  · rw [left, right]
    exact paired.delivers

theorem refuse (what : Capability) (error : Option Error) (only : Option String) :
    Spared c flags (s.refuse what error only) (t.refuse what error only) := by
  have hosts : ∀ refuses, { s.world.host with refuses } = { t.world.host with refuses } :=
    fun refuses => congrArg (fun host : Host => { host with refuses }) both.world.host
  unfold Session.refuse
  rw [both.refusals]
  exact { both with refusals := rfl, world := { both.world with host := hosts _ } }

theorem interceptMethod (label : String) (m : MethodName) (mode : InterceptMode) :
    Yields c flags (s.interceptMethod label m mode) (t.interceptMethod label m mode) := by
  unfold Session.interceptMethod
  rw [both.interceptors]
  have asked := both.onHost fun h =>
    h.interceptMethod m (wrapper label (t.interceptors + 1) mode)
  dsimp only
  generalize s.onHost _ = x at asked ⊢
  generalize t.onHost _ = y at asked ⊢
  obtain ⟨answer, s'⟩ := x
  obtain ⟨answer', t'⟩ := y
  obtain ⟨rfl, both'⟩ := asked
  cases answer with
  | error e => exact ⟨rfl, both'⟩
  | ok handle =>
    refine ⟨rfl, { both' with interceptors := rfl, methodHandles := ?_ }⟩
    exact congrArg (Table.insert label handle) both'.methodHandles

theorem unitOf (choice : UnitChoice) : s.unitOf choice = t.unitOf choice := by
  unfold Session.unitOf
  rw [both.units]

theorem interceptLine (label : String) (unit : UnitChoice) (file : String) (line : UInt32) :
    Yields c flags (s.interceptLine label unit file line)
      (t.interceptLine label unit file line) := by
  unfold Session.interceptLine
  rw [both.unitOf]
  have asked := both.onHost fun h =>
    h.interceptLine (t.unitOf unit) file line none (.record label)
  generalize s.onHost _ = x at asked ⊢
  generalize t.onHost _ = y at asked ⊢
  obtain ⟨answer, s'⟩ := x
  obtain ⟨answer', t'⟩ := y
  obtain ⟨rfl, both'⟩ := asked
  cases answer with
  | error e => exact ⟨rfl, both'⟩
  | ok handle =>
    refine ⟨rfl, { both' with lineHandles := ?_ }⟩
    exact congrArg (Table.insert label handle) both'.lineHandles

theorem dropWatcher (label : String) :
    Spared c flags (s.dropWatcher label) (t.dropWatcher label) := by
  unfold Session.dropWatcher
  rw [both.watchers, both.world.host]
  refine Spared.update ?_ fun both => both.setCode _
  exact { both with watchers := rfl, world := { both.world with host := rfl } }

theorem watch (label : String) (kind : WatchKind) :
    Yields c flags (s.watch label kind) (t.watch label kind) := by
  have dropped := both.dropWatcher label
  have listed : ∀ {s t : Session}, Spared c flags s t → ∀ id, Spared c flags
      { s with watchers := Table.insert label (kind, id) s.watchers }
      { t with watchers := Table.insert label (kind, id) t.watchers } := fun both id =>
    { both with watchers := congrArg (Table.insert label (kind, id)) both.watchers }
  unfold Session.watch
  cases kind with
  | registry => exact ⟨rfl, (listed dropped 0).update fun both => both.setCode _⟩
  | definitions =>
    have asked := dropped.onHost (·.subscribeDefinitions (.watcher label))
    dsimp only
    generalize (s.dropWatcher label).onHost _ = x at asked ⊢
    generalize (t.dropWatcher label).onHost _ = y at asked ⊢
    obtain ⟨id, s'⟩ := x
    obtain ⟨id', t'⟩ := y
    obtain ⟨rfl, both'⟩ := asked
    exact ⟨rfl, listed both' id⟩
  | compiles =>
    have asked := dropped.onHost (·.subscribeCompiles (.watcher label))
    dsimp only
    generalize (s.dropWatcher label).onHost _ = x at asked ⊢
    generalize (t.dropWatcher label).onHost _ = y at asked ⊢
    obtain ⟨id, s'⟩ := x
    obtain ⟨id', t'⟩ := y
    obtain ⟨rfl, both'⟩ := asked
    exact ⟨rfl, listed both' id⟩

theorem unsubscribe (label : String) :
    Spared c flags (s.unsubscribe label) (t.unsubscribe label) := by
  unfold Session.unsubscribe
  rw [both.watchers]
  split
  · exact (both.onHost _).spared
  · exact (both.onHost _).spared
  · exact both

theorem lookup (path : String) (lines : List UInt32) :
    s.lookup path lines = t.lookup path lines := by
  unfold Session.lookup Session.engine?
  rcases both.world.getElem_engines 0 with ⟨left, right⟩ | ⟨e, e', flag, left, right, -, paired⟩
  · rw [left, right]
  · have code : e.code = e'.code := Engine.part paired.engine _ fun _ => rfl
    rw [left, right, Option.bind_some, Option.bind_some, code]

theorem perform {step : SessionStep} (plain : step ≠ .deliver ∧ step ≠ .dropped) :
    Yields c flags (s.perform step) (t.perform step) := by
  cases step with
  | define typeName methods => exact ⟨rfl, { both with world := both.world.define _ _ }⟩
  | isDefined typeName =>
    exact ⟨congrArg (fun h : Host => SessionAnswer.truth (h.isDefined typeName)) both.world.host,
      both⟩
  | load path lines =>
    obtain ⟨unit, world⟩ := both.world.load path lines
    refine ⟨congrArg (fun u : CompiledUnit => SessionAnswer.number u.id) unit, ?_⟩
    refine { both with world, units := ?_ }
    show s.units ++ [(s.world.load path lines).1] = t.units ++ [(t.world.load path lines).1]
    rw [unit, both.units]
  | loadedUnits =>
    exact ⟨congrArg (fun h : Host => SessionAnswer.units h.loadedUnits) both.world.host, both⟩
  | call m args named =>
    refine both.run (Action.mirrors_bind (Action.mirrors_building _) fun args => ?_)
    exact Action.mirrors_bind (Action.mirrors_call _ m args) fun _ => Action.mirrors_pure _
  | line path line locals =>
    refine both.run (Action.mirrors_bind (Action.mirrors_building _) fun locals => ?_)
    exact Action.mirrors_bind (Action.mirrors_executeLine _ path line locals) fun _ =>
      Action.mirrors_pure _
  | refuse what error only => exact ⟨rfl, both.refuse what error only⟩
  | poison ids =>
    refine ⟨rfl, { both with world := { both.world with poisoned := ?_ } }⟩
    show (if s.delivery?.isSome then [] else ids) = if t.delivery?.isSome then [] else ids
    rw [both.delivers]
  | interceptMethod label m mode => exact both.interceptMethod label m mode
  | restoreMethod label =>
    refine ⟨rfl, ?_⟩
    dsimp only [Session.perform]
    rw [both.methodHandles]
    split
    · exact (both.onHost _).spared
    · exact both
  | interceptLine label unit file line => exact both.interceptLine label unit file line
  | restoreLine label =>
    refine ⟨rfl, ?_⟩
    dsimp only [Session.perform]
    rw [both.lineHandles]
    split
    · exact (both.onHost _).spared
    · exact both
  | watch label kind => exact both.watch label kind
  | unsubscribe label => exact ⟨rfl, both.unsubscribe label⟩
  | dropWatcher label =>
    refine ⟨congrArg (fun w => SessionAnswer.truth (Table.contains label w)) both.watchers, ?_⟩
    exact both.dropWatcher label
  | track => exact ⟨rfl, both.update fun both => both.track⟩
  | untrack => exact ⟨rfl, both.update fun both => both.untrack⟩
  | isTracking =>
    exact both.ask (SessionAnswer.truth false)
      (fun e => SessionAnswer.truth (e.code.any (·.active))) fun _ => rfl
  | register path unit =>
    exact both.inSetup _ fun both => (both.registerUnit path unit).map SessionAnswer.truth
  | lookup path lines => exact ⟨both.lookup path lines, both⟩
  | subscribe => exact ⟨rfl, both.update fun both => both.subscribe⟩
  | hook label target =>
    unfold Session.perform
    refine both.inSetup _ fun both => ?_
    rw [both.code]
    exact (both.hooking fun like => like.hook _ target _).map SessionAnswer.done
  | hookWhenDefined label target =>
    unfold Session.perform
    refine both.inSetup _ fun both => ?_
    rw [both.code]
    exact (both.hooking fun like => like.hookWhenDefined _ target _).map SessionAnswer.whetherNow
  | installPending path => exact ⟨rfl, both.update fun both => both.fileKnown path⟩
  | unhook target =>
    exact both.inSetup _ fun both =>
      (both.hooking fun like => like.unhook target).map SessionAnswer.done
  | clearPending target =>
    exact both.inSetup _ fun both => (both.onHooks (·.clearPending target)).map SessionAnswer.truth
  | hookState target =>
    exact both.ask SessionAnswer.nothing
      (fun e => SessionAnswer.state (e.hooks.isInstalled target) (e.hooks.isPending target))
      fun _ => rfl
  | clearHooks =>
    refine ⟨rfl, both.update fun both => Setup.Yields.spared (both.hooking fun like => ?_)⟩
    exact ⟨rfl, like.clearHooks⟩
  | closeHooks =>
    refine ⟨rfl, both.update fun both => Setup.Yields.spared (both.hooking fun like => ?_)⟩
    exact ⟨rfl, like.close⟩
  | process documents =>
    exact both.inSetup _ fun both => (both.process documents).map SessionAnswer.statuses
  | addProbe document =>
    dsimp only [Session.perform]
    cases Probe.ofDocument document with
    | error e => exact ⟨rfl, both⟩
    | ok q => exact both.inSetup _ fun both => (both.addProbe q).map SessionAnswer.done
  | keepProbes ids =>
    exact both.inSetup _ fun both => (both.keepProbes ids).map SessionAnswer.done
  | probeState id =>
    exact both.ask SessionAnswer.nothing
      (fun e => SessionAnswer.state (e.probes.isInstalled id) (e.probes.isPending id)) fun _ => rfl
  | closeProbes => exact ⟨rfl, both.update fun both => both.closeProbes⟩
  | deliver => exact absurd rfl plain.1
  | dropped => exact absurd rfl plain.2
  | shutdown => exact ⟨rfl, both.update fun both => both.shutdown⟩

end Spared

/-- Sessions whose worlds differ at most in what has been told, delivered and warned of, with
whatever has been told before. -/
def Similar (s t : Session) : Prop := ∃ c flags, Spared c flags s t

def after (s : Session) (steps : List SessionStep) : Session :=
  steps.foldl (fun s step => (s.advance step).2) s

end Session

namespace Contrast

def unspoken : Contrast := ⟨fun _ => false, [], []⟩

theorem Told.eq {j j' : List Occurrence} (told : unspoken.Told j j') : j = j' := by
  obtain ⟨new, new', rfl, rfl, same⟩ := told
  have all : ∀ l : List Occurrence, l.filter unspoken.shows = l := by
    intro l
    refine List.filter_eq_self.mpr fun o _ => ?_
    cases o <;> rfl
  rw [all, all] at same
  exact same

end Contrast

namespace SessionReport

/-- What is reported of a step is the same, but for warnings and for what was delivered. -/
structure Agrees (step : SessionStep) (r r' : SessionReport) : Prop where
  answer : step ≠ .dropped → r.answer = r'.answer
  occurrences : step ≠ .deliver → r.occurrences = r'.occurrences
  hooks : r.hooks = r'.hooks
  traces : r.traces = r'.traces
  installed : r.installed = r'.installed
  pending : r.pending = r'.pending

end SessionReport

namespace Session

variable {c : Contrast} {flags : List Bool} {s t : Session}

theorem Spared.deliver (both : Spared c flags s t) : Similar s.deliver t.deliver := by
  have told : ∀ j j' : List Occurrence, Spared ⟨fun _ => false, j, j'⟩ flags
      { s with world := { s.world with journal := j } }
      { t with world := { t.world with journal := j' } } := fun j j' =>
    { both with world := { both.world with told := Contrast.told_refl _ } }
  have shown : ∀ {s t : Session} {c : Contrast} (n m : Nat), Spared c flags s t →
      Spared c flags { s with shown := n } { t with shown := m } :=
    fun _ _ both => { both with }
  have delivers := both.delivers
  unfold Session.deliver
  cases left : s.delivery? with
  | none =>
    cases right : t.delivery? with
    | none => exact ⟨c, flags, both⟩
    | some d => simp [left, right] at delivers
  | some d =>
    cases right : t.delivery? with
    | none => simp [left, right] at delivers
    | some d' => exact ⟨_, flags, shown _ _ (told _ _)⟩

theorem Spared.dropped (both : Spared c flags s t) :
    Spared c flags (s.perform .dropped).2 (t.perform .dropped).2 := by
  unfold Session.perform Session.inSetup World.inSetup
  rcases both.world.getElem_engines 0 with ⟨left, right⟩ | ⟨e, e', flag, left, right, known, paired⟩
  · rw [left, right]
    exact both
  · rw [left, right]
    exact { both with
      world := both.world.replace known paired both.world.host both.world.told _ _ }

theorem Spared.report (both : Spared c flags s t) (step : SessionStep)
    {answer answer' : SessionAnswer} (same : step ≠ .dropped → answer = answer')
    (told : step ≠ .deliver → s.world.journal = t.world.journal) :
    (s.report step answer).Agrees step (t.report step answer') where
  answer := same
  occurrences elsewhere := by
    have plain : ∀ s : Session, s.shownOf step = if s.delivery?.isSome then
        s.world.journal.filter fun o => !isNotice o else s.world.journal := by
      intro s
      cases step <;> first | rfl | exact absurd rfl elsewhere
    show s.shownOf step = t.shownOf step
    rw [plain, plain, both.delivers, told elsewhere]
  hooks := congrArg (·.getD (0, 0)) (both.engine?_part (·.hooks.counts) fun _ => rfl)
  traces := congrArg (fun h : Host => h.traces.length) both.world.host
  installed := congrArg (·.getD [])
    (both.engine?_part (fun e => Table.keys e.probes.installed) fun _ => rfl)
  pending := congrArg (·.getD [])
    (both.engine?_part (fun e => Table.keys e.probes.pending) fun _ => rfl)

theorem Similar.advance (both : Similar s t) (step : SessionStep) :
    (s.advance step).1.Agrees step (t.advance step).1 ∧
      Similar (s.advance step).2 (t.advance step).2 := by
  obtain ⟨c, flags, both⟩ := both
  have quiet : Spared .unspoken flags
      { s with world := { s.world with journal := [], warnings := [] } }
      { t with world := { t.world with journal := [], warnings := [] } } :=
    { both with world := { both.world with told := Contrast.told_refl _ } }
  have settled : ∀ {s t : Session}, Similar s t →
      Similar (s.update Setup.settleDelivery) (t.update Setup.settleDelivery) :=
    fun ⟨c, flags, both⟩ => ⟨c, flags, both.update fun both => both.settleDelivery⟩
  unfold Session.advance
  by_cases plain : step ≠ .deliver ∧ step ≠ .dropped
  · obtain ⟨answer, after⟩ := quiet.perform plain
    exact ⟨after.report step (fun _ => answer) fun _ => after.world.told.eq,
      settled ⟨_, flags, after⟩⟩
  · rcases not_and_or.mp plain with delivers | drops
    · obtain rfl := not_not.mp delivers
      obtain ⟨c, flags, after⟩ := quiet.deliver
      exact ⟨after.report .deliver (fun _ => rfl) fun other => absurd rfl other,
        settled ⟨c, flags, after⟩⟩
    · obtain rfl := not_not.mp drops
      have after := quiet.dropped
      exact ⟨after.report .dropped (fun other => absurd rfl other) fun _ => after.world.told.eq,
        settled ⟨_, flags, after⟩⟩

theorem Similar.after (both : Similar s t) (steps : List SessionStep) :
    Similar (s.after steps) (t.after steps) := by
  unfold Session.after
  exact List.foldl_rel both fun step _ _ _ both => (both.advance step).2

end Session
end LiveProbe
