import LiveProbe.Proofs.Line.Conduct
import LiveProbe.Proofs.Line.Firing

/-!
Exactly once. Whatever a manager, its registry and their host are asked for, in whatever order: the
traces in the host stand one for one for the hooked lines, and a line that runs calls the hook that
was set there last, once, or nothing.
-/
namespace LiveProbe

namespace World

variable {w : World} {b : Lineup} {s : Setup}

theorem setup?_inSetup {α : Type} (there : w.setup? = some s) (f : Setup → α × Setup) :
    (w.inSetup 0 f).1 = some (f s).1 ∧ (w.inSetup 0 f).2.setup? = some (f s).2 := by
  unfold setup? at there
  obtain ⟨e, found, rfl⟩ := Option.map_eq_some_iff.mp there
  have inside : 0 < w.engines.length := (List.getElem?_eq_some_iff.mp found).1
  unfold inSetup setup?
  rw [found]
  refine ⟨rfl, ?_⟩
  dsimp only
  rw [List.getElem?_set_self inside]
  rfl

def Lined (b : Lineup) (w : World) : Prop := ∃ s, w.setup? = some s ∧ s.Manages b ∧ s.Alert

theorem lined_opened (e : Engine) (w : World) : (w.opened e).Lined {} := by
  refine ⟨_, rfl, ⟨⟨⟨?_, rfl, List.nodup_nil, ?_, List.nodup_nil, List.nodup_nil, List.nodup_nil⟩,
    fun _ _ => rfl, rfl, fun _ => ⟨rfl, rfl⟩, fun _ => rfl, rfl, ?_⟩, rfl, ?_⟩, ?_⟩
  · intro m i found
    cases found
  · intro t member
    cases member
  · intro l waits
    cases waits
  · show [] = ((e.code.map fun _ => ({} : CodeRegistry)).bind _).toList.map _
    cases e.code <;> rfl
  · intro r code
    obtain ⟨r', -, rfl⟩ := Option.map_eq_some_iff.mp code
    rfl

theorem prospect_of_setup (there : w.setup? = some s) : w.prospect = s.prospect := by
  funext l
  unfold World.prospect
  rw [there]
  rfl

theorem Lined.inSetup (lined : w.Lined b) {α : Type} {f : Setup → α × Setup} {b' : Lineup}
    (step : ∀ s, w.setup? = some s → s.Manages b → s.Alert →
      (f s).2.Manages b' ∧ (f s).2.Alert) : (w.inSetup 0 f).2.Lined b' := by
  obtain ⟨s, there, manages, alert⟩ := lined
  exact ⟨_, (setup?_inSetup there f).2, step s there manages alert⟩

theorem setup?_load (there : w.setup? = some s)
    (compiles : s.host.compileObservers =
      (s.engine.code.bind (·.subscription)).toList.map fun id => (id, Observer.engine 0))
    (path : String) (lines : List UInt32) :
    let s' : Setup := { s with host := (s.host.load path lines).2 }
    (w.load path lines).2.setup? = some (if (s.engine.code.bind (·.subscription)).isSome then
      s'.unitLoaded (s.host.load path lines).1 else s') := by
  obtain ⟨e, found, rfl⟩ := Option.map_eq_some_iff.mp there
  have there' : ({ w with host := (w.host.load path lines).2 } : World).setup? =
      some ⟨(w.host.load path lines).2, e, w.journal, w.warnings⟩ := congrArg (Option.map _) found
  have observers : w.host.compileObservers.map (·.2) =
      (e.code.bind (·.subscription)).toList.map fun _ => Observer.engine 0 := by
    rw [compiles, List.map_map]
    rfl
  rw [load_eq, observers]
  dsimp only
  cases e.code.bind (·.subscription) with
  | none => exact there'
  | some id =>
    exact (setup?_inSetup there' fun s => ((), s.unitLoaded (w.host.load path lines).1)).2

theorem Lined.load (lined : w.Lined b) (path : String) (lines : List UInt32) :
    (w.load path lines).2.Lined (if w.isTracking && w.reports path (w.host.load path lines).1 then
      b.attend (w.load path lines).2.prospect path else b) := by
  obtain ⟨s, there, manages, alert⟩ := lined
  have loaded := manages.load path lines
  have there' := setup?_load there manages.compiles path lines
  have tracking : w.isTracking = (s.engine.code.bind (·.subscription)).isSome := by
    unfold World.isTracking
    rw [there]
    exact alert.isTracking
  have reports : w.reports path (w.host.load path lines).1 =
      s.reports path (s.host.load path lines).1 := by
    unfold World.reports
    rw [there]
    obtain ⟨e, -, rfl⟩ := Option.map_eq_some_iff.mp there
    rfl
  rw [prospect_of_setup there', tracking, reports]
  refine ⟨_, there', ?_⟩
  cases (s.engine.code.bind (·.subscription)).isSome with
  | false => exact ⟨loaded, alert⟩
  | true =>
    obtain ⟨registered, -, kept⟩ := loaded.registerUnit path (s.host.load path lines).1
    exact ⟨registered, Setup.Alert.of_tracking alert kept⟩

theorem Lined.register (lined : w.Lined b) (path : String) (unit : CompiledUnit) :
    (w.inSetup 0 (·.registerUnit path unit)).2.Lined (if w.reports path unit then
      b.attend (w.inSetup 0 (·.registerUnit path unit)).2.prospect unit.path else b) := by
  obtain ⟨s, there, manages, alert⟩ := lined
  have there' := (setup?_inSetup there (·.registerUnit path unit)).2
  obtain ⟨registered, -, tracking⟩ := manages.registerUnit path unit
  have reports : w.reports path unit = s.reports path unit := by
    unfold World.reports
    rw [there]
    rfl
  rw [reports, prospect_of_setup there']
  exact ⟨_, there', registered, alert.of_tracking tracking⟩

theorem Lined.heed (lined : w.Lined b) (c : LineCommand) :
    (w.heed c).Lined (b.follow w (w.heed c) c) := by
  cases c with
  | load path lines => exact lined.load path lines
  | hook path line callback =>
    rw [Lineup.follow]
    refine lined.inSetup fun s there manages alert => ?_
    obtain ⟨-, hooked, wiring⟩ :=
      manages.meets.hookLine s.engine.code (.ofPath path line) callback
    rw [prospect_of_setup there]
    exact ⟨manages.hooking _ hooked wiring, alert⟩
  | hookWhenDefined path line callback =>
    rw [Lineup.follow]
    refine lined.inSetup fun s there manages alert => ?_
    obtain ⟨-, hooked, wiring⟩ :=
      manages.meets.hookWhenDefined s.engine.code (.ofPath path line) callback
    rw [prospect_of_setup there]
    exact ⟨manages.hooking _ hooked wiring, alert⟩
  | installPending path =>
    rw [Lineup.follow]
    refine lined.inSetup fun s there manages alert => ?_
    rw [prospect_of_setup there]
    exact ⟨manages.fileKnown path, alert.of_tracking (by
      unfold Setup.tracking
      rw [Setup.code_fileKnown])⟩
  | unhook target =>
    refine lined.inSetup fun s _ manages alert => ⟨?_, alert⟩
    cases target with
    | method m =>
      refine manages.hooking _ ?_ ?_ <;> rw [manages.meets.unhook_method m]
      exact manages.meets
    | line l =>
      obtain ⟨unhooked, wiring⟩ := manages.meets.unhookLine l
      exact manages.hooking _ unhooked wiring
  | clearPending target =>
    refine lined.inSetup fun s _ manages alert => ⟨?_, alert⟩
    cases target with
    | method m => exact manages.hooking _ (manages.meets.forget_method m) rfl
    | line l => exact manages.hooking _ (manages.meets.forget l) rfl
  | clearHooks =>
    refine lined.inSetup fun s _ manages alert => ⟨?_, alert⟩
    refine manages.hooking _ manages.meets.clearHooks ?_
    dsimp only
    rw [manages.meets.clearHooks_eq]
    rfl
  | close => exact lined.inSetup fun s _ manages alert => ⟨manages.close, alert⟩
  | subscribe => exact lined.inSetup fun s _ manages alert => manages.subscribe alert
  | track => exact lined.inSetup fun s _ manages alert => manages.track alert
  | untrack => exact lined.inSetup fun s _ manages alert => manages.untrack alert
  | register path unit => exact lined.register path unit

theorem lined_conducted (commands : List LineCommand) :
    ∀ {b : Lineup} {w : World}, w.Lined b →
      (commands.foldl conduct (b, w)).2.Lined (commands.foldl conduct (b, w)).1 := by
  induction commands with
  | nil => exact fun lined => lined
  | cons c rest ih => exact fun lined => ih (lined.heed c)

structure FiresOnce (b : Lineup) (s : Setup) (w : World) : Prop where
  traces : w.host.traces.map (fun t => (t.only, t.id)) =
    s.engine.hooks.lines.map fun e => (some e.1, e.2.id)
  targets : (Table.keys s.engine.hooks.lines).Nodup
  numbers : (w.host.traces.map (·.id)).Nodup
  trace : ∀ l p, b.posted l = some p → ∃ id,
    w.host.tracesAt l = [⟨id, p.unit, l.line, some l, p.callback⟩]
  installed : ∀ l, s.engine.hooks.isInstalled (.line l) = (b.posted l).isSome
  pending : ∀ l, s.engine.hooks.isPending (.line l) = (b.waiting l).isSome
  answer : ∀ path line callback, (w.askHook path line callback).1 = some (.ok ()) ↔
    (w.prospect (.ofPath path line)).isTraced = true
  answerWhenDefined : ∀ path line callback,
    (w.askHookWhenDefined path line callback).1 = some (.ok true) ↔
      (w.prospect (.ofPath path line)).isTraced = true
  fires : ∀ run path line locals, Action.executeLine run path line locals w =
    (if w.host.executes path line then
      Action.runLine run path line locals (b.fires w.host path line).toList else pure ()) w

theorem Lined.firesOnce (lined : w.Lined b) : ∃ s, w.setup? = some s ∧ FiresOnce b s w := by
  obtain ⟨s, there, manages, -⟩ := lined
  have meets := manages.meets
  refine ⟨s, there, ?_⟩
  have prospect := prospect_of_setup there
  obtain ⟨e, found, rfl⟩ := Option.map_eq_some_iff.mp there
  constructor
  case traces => exact meets.anchored.traced
  case targets => exact meets.anchored.lineKeys
  case numbers => exact meets.anchored.distinct
  case trace =>
    intro l p posted
    have holds := meets.holds l
    rw [posted] at holds
    obtain ⟨id, -, traces⟩ := holds
    exact ⟨id, traces⟩
  case installed => exact fun l => (meets.holds l).isInstalled
  case pending => exact fun l => congrArg Option.isSome (meets.waiting l)
  case answer =>
    intro path line callback
    obtain ⟨answers, -⟩ := meets.hookLine e.code (.ofPath path line) callback
    unfold askHook
    rw [(setup?_inSetup there _).1, Option.some.injEq, prospect]
    exact answers.ok_iff
  case answerWhenDefined =>
    intro path line callback
    unfold askHookWhenDefined
    rw [(setup?_inSetup there _).1, Option.some.injEq, prospect]
    exact (meets.hookWhenDefined e.code (.ofPath path line) callback).1
  case fires =>
    intro run path line locals
    rw [Action.executeLine_eq]
    cases executes : w.host.executes path line with
    | false => rfl
    | true =>
      have callbacks : w.host.callbacksAt path line = (b.fires w.host path line).toList :=
        meets.callbacksAt executes
      rw [callbacks]

/-- Whatever a manager has been asked for, its registry and their host: the traces stand one for one
for the hooked lines, and a line that runs calls the hook that was set there last, once, if it is
still set, the line holds code, and the trace of the hook is bound to no unit or to one that is
loaded for the path. Otherwise it calls nothing. -/
theorem conducted_firesOnce (engine : Engine) (commands : List LineCommand) (w : World) :
    let r := commands.foldl conduct ({}, w.opened engine)
    ∃ s, r.2.setup? = some s ∧ FiresOnce r.1 s r.2 :=
  (lined_conducted commands (lined_opened engine w)).firesOnce

end World
end LiveProbe
