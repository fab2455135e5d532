import LiveProbe.Proofs.Engine.Composition
import LiveProbe.Proofs.Line.Waiting
import LiveProbe.Proofs.World.History

/-!
A manager and its registry on a host do what they are meant to do for lines. The registry tells of a
unit that it did not know, and then what waits for the file of the unit is tried, however many times
the manager listens; while the registry starts, it can not be known yet where a line is to be
traced, and what waits goes on waiting.
-/
namespace LiveProbe

namespace Setup

variable {s s' : Setup} {b b' : Lineup}

def tracking (s : Setup) : Option (Bool × Option Nat) :=
  s.engine.code.map fun r => (r.active, r.subscription)

/-- The engine, whose number is zero, holds of lines what is meant to be held, and nobody but its
registry is told of units. -/
structure Manages (b : Lineup) (s : Setup) : Prop where
  meets : s.held.Meets b
  number : s.engine.hooks.manager = 0
  compiles : s.host.compileObservers =
    (s.engine.code.bind (·.subscription)).toList.map fun id => (id, Observer.engine 0)

theorem prospect_of_backdrop (wiring : s'.held.wiring = s.held.wiring)
    (code : s'.engine.code = s.engine.code) : s'.prospect = s.prospect := by
  funext l
  unfold prospect
  rw [code]
  exact Hooking.prospect_congr wiring

theorem Manages.of_held (manages : Manages b s) (meets : s'.held.Meets b')
    (wiring : s'.held.wiring = s.held.wiring) (code : s'.engine.code = s.engine.code) :
    Manages b' s' where
  meets := meets
  number := (congrArg Hooking.Wiring.manager wiring).trans manages.number
  compiles := by
    rw [code, ← manages.compiles]
    exact congrArg Hooking.Wiring.compileObservers wiring

theorem Manages.close (manages : Manages b s) :
    Manages { closed := true } (s.hooking fun k => ((), k.close)).2 :=
  have ⟨closed, number, observers⟩ := manages.meets.close
  ⟨closed, number.trans manages.number, observers.trans manages.compiles⟩

theorem Manages.of_code (manages : Manages b s) {code : Option CodeRegistry}
    (subscription : code.bind (·.subscription) = s.engine.code.bind (·.subscription)) :
    Manages b { s with engine := { s.engine with code } } := by
  have compiles := manages.compiles
  rw [← subscription] at compiles
  exact ⟨manages.meets, manages.number, compiles⟩

theorem Manages.hooking {α : Type} (manages : Manages b s) (f : Hooking → α × Hooking)
    (meets : (f s.held).2.Meets b') (wiring : (f s.held).2.wiring = s.held.wiring) :
    Manages b' (s.hooking f).2 := manages.of_held meets wiring rfl

theorem wiring_fileKnown (manages : Manages b s) (path : String) :
    (s.fileKnown path).held.wiring = s.held.wiring := by
  rw [held_fileKnown]
  exact (manages.meets.installPendingLines s.engine.code path).2

theorem Manages.fileKnown (manages : Manages b s) (path : String) :
    Manages (b.attend s.prospect path) (s.fileKnown path) := by
  refine manages.of_held ?_ (wiring_fileKnown manages path) (code_fileKnown s path)
  rw [held_fileKnown]
  exact (manages.meets.installPendingLines s.engine.code path).1

theorem Manages.note (manages : Manages b s) (o : Occurrence) : Manages b (s.note o) :=
  manages.of_held { manages.meets with anchored := { manages.meets.anchored with } } rfl rfl

theorem Manages.foldl_tellListener (unit : CompiledUnit) (ls : List CodeListener) :
    ∀ {b : Lineup} {s : Setup}, Manages b s →
      let s' := ls.foldl (Setup.tellListener unit) s
      Manages (if ls.contains .hooks then b.attend s.prospect unit.path else b) s' ∧
        s'.held.wiring = s.held.wiring ∧ s'.engine.code = s.engine.code := by
  induction ls with
  | nil => exact fun manages => ⟨manages, rfl, rfl⟩
  | cons l rest ih =>
    intro b s manages
    cases l with
    | watcher label =>
      obtain ⟨later, wiring, code⟩ := ih (manages.note (.compiled label unit))
      have others : (CodeListener.watcher label :: rest).contains .hooks = rest.contains .hooks := by
        simp
      rw [others]
      exact ⟨later, wiring, code⟩
    | hooks =>
      have wiring := wiring_fileKnown manages unit.path
      have code := code_fileKnown s unit.path
      obtain ⟨later, wiring', code'⟩ := ih (manages.fileKnown unit.path)
      have listens : (CodeListener.hooks :: rest).contains .hooks = true := by simp
      rw [prospect_of_backdrop wiring code, Lineup.attend_attend, ite_self] at later
      rw [if_pos listens]
      exact ⟨later, wiring'.trans wiring, code'.trans code⟩

theorem Manages.registerUnit (manages : Manages b s) (path : String) (unit : CompiledUnit) :
    let s' := (s.registerUnit path unit).2
    Manages (if s.reports path unit then b.attend s'.prospect unit.path else b) s' ∧
      s'.held.wiring = s.held.wiring ∧ s'.tracking = s.tracking := by
  unfold Setup.registerUnit Setup.reports Setup.tracking
  cases code : s.engine.code with
  | none => exact ⟨manages, rfl, by rw [code]⟩
  | some registry =>
    let entered : Setup :=
      { s with engine := { s.engine with code := some (registry.register path unit).2 } }
    have kept := CodeRegistry.register_eq path unit registry
    have manages' : Manages b entered := by
      apply manages.of_code
      rw [code, kept]
      rfl
    have tracking : entered.tracking = some (registry.active, registry.subscription) := by
      show some ((registry.register path unit).2.active,
        (registry.register path unit).2.subscription) = _
      rw [kept]
    have listeners : (registry.register path unit).2.listeners = registry.listeners := by rw [kept]
    dsimp only
    rw [Option.any_some, listeners]
    cases added : (registry.register path unit).1 with
    | false => exact ⟨manages', rfl, tracking⟩
    | true =>
      obtain ⟨told, wiring, code'⟩ :=
        Manages.foldl_tellListener unit registry.listeners manages'
      rw [Bool.true_and, if_pos rfl, prospect_of_backdrop wiring code']
      refine ⟨told, wiring, ?_⟩
      rw [code']
      exact tracking

/-! While the registry is not used, nothing that waits has prospects. -/

theorem attend_of_unused
    (targeted : ∀ l, (b.waiting l).isSome = true → s.engine.hooks.untargeted = false)
    (unused : s.engine.code.any (·.active) = false) (path : String) :
    b.attend s.prospect path = b := by
  unfold Lineup.attend
  split
  · rfl
  · refine Lineup.tryWaiting_of_disallowed fun l waits => ?_
    have filtered : s.engine.code.filter (·.active) = none := by
      cases code : s.engine.code with
      | none => rfl
      | some r =>
        rw [code] at unused
        simpa [Option.filter] using unused
    unfold prospect Hooking.prospect
    rw [filtered]
    show (if s.engine.hooks.untargeted = true then _ else _) = _
    rw [targeted l waits]
    rfl

theorem used_of_tracking (tracking : s'.tracking = s.tracking) :
    s'.engine.code.any (·.active) = s.engine.code.any (·.active) := by
  have used : ∀ s : Setup, s.engine.code.any (·.active) = s.tracking.any (·.1) := by
    intro s
    unfold Setup.tracking
    cases s.engine.code <;> rfl
  rw [used, used, tracking]

theorem Manages.foldl_unitLoaded (units : List CompiledUnit) :
    ∀ {s : Setup}, Manages b s → s.engine.code.any (·.active) = false →
      Manages b (units.foldl Setup.unitLoaded s) ∧
        (units.foldl Setup.unitLoaded s).tracking = s.tracking := by
  induction units with
  | nil => exact fun manages _ => ⟨manages, rfl⟩
  | cons unit rest ih =>
    intro s manages unused
    obtain ⟨registered, wiring, tracking⟩ := manages.registerUnit unit.path unit
    have unused' := (used_of_tracking tracking).trans unused
    have targeted : ∀ l, (b.waiting l).isSome = true →
        (s.registerUnit unit.path unit).2.engine.hooks.untargeted = false := fun l waits =>
      (congrArg Hooking.Wiring.untargeted wiring).trans (manages.meets.targeted l waits)
    rw [attend_of_unused targeted unused', ite_self] at registered
    obtain ⟨all, tracking'⟩ := ih registered unused'
    exact ⟨all, tracking'.trans tracking⟩

/-! The registry starts and stops. -/

/-- The registry is used while it is subscribed. -/
def Alert (s : Setup) : Prop := ∀ r, s.engine.code = some r → r.active = r.subscription.isSome

theorem Alert.of_tracking (alert : Alert s) (tracking : s'.tracking = s.tracking) : Alert s' := by
  intro r code
  unfold Setup.tracking at tracking
  rw [code] at tracking
  obtain ⟨r', code', same⟩ := Option.map_eq_some_iff.mp tracking.symm
  obtain ⟨active, subscription⟩ := Prod.mk.inj same
  rw [← active, ← subscription]
  exact alert r' code'

theorem Alert.isTracking (alert : Alert s) :
    s.isTracking = (s.engine.code.bind (·.subscription)).isSome := by
  unfold Setup.isTracking
  cases code : s.engine.code with
  | none => rfl
  | some r => exact alert r code

theorem Manages.subscribeCompiles (manages : Manages b s) {registry : CodeRegistry}
    (code : s.engine.code = some registry) (idle : registry.subscription = none) :
    Manages b ({ s with host := (s.host.subscribeCompiles (.engine 0)).2 }.setCode
      fun c => { c with subscription := some (s.host.lastId + 1) }) := by
  have later := fun t member => Nat.le_succ_of_le (manages.meets.anchored.bounded t member)
  have unheard : s.host.compileObservers = [] := by
    rw [manages.compiles, code]
    simp [idle]
  refine ⟨{ manages.meets with
    anchored := { manages.meets.anchored with bounded := later } }, manages.number, ?_⟩
  show s.host.compileObservers ++ [(s.host.lastId + 1, Observer.engine 0)] = _
  rw [unheard]
  simp [setCode, code]

theorem Manages.track (manages : Manages b s) (alert : Alert s) :
    Manages b s.track ∧ Alert s.track := by
  cases code : s.engine.code with
  | none =>
    have same : s.track = s := by simp [Setup.track, code]
    rw [same]
    exact ⟨manages, alert⟩
  | some registry =>
    cases subscription : registry.subscription with
    | some id =>
      rw [track_of_subscribed code subscription]
      exact ⟨manages, alert⟩
    | none =>
      have unused : registry.active = false := by
        rw [alert registry code, subscription]
        rfl
      let subscribed := { s with host := (s.host.subscribeCompiles (.engine 0)).2 }.setCode
        fun c => { c with subscription := some (s.host.lastId + 1) }
      have code' : subscribed.engine.code =
          some { registry with subscription := some (s.host.lastId + 1) } :=
        congrArg (Option.map _) code
      have manages' : Manages b subscribed := manages.subscribeCompiles code subscription
      obtain ⟨all, tracking⟩ := manages'.foldl_unitLoaded
        (s.host.subscribeCompiles (.engine 0)).2.loadedUnits (by rw [code']; exact unused)
      rw [track_of_idle code subscription manages.number]
      unfold Setup.tracking at tracking
      rw [code'] at tracking
      obtain ⟨r, entered, same⟩ := Option.map_eq_some_iff.mp tracking
      obtain ⟨-, subscribed'⟩ := Prod.mk.inj same
      refine ⟨all.of_code ?_, fun r' found => ?_⟩
      · rw [entered]
        rfl
      · have active : some { r with active := true } = some r' :=
          (congrArg (Option.map _) entered).symm.trans found
        cases active
        show true = r.subscription.isSome
        rw [subscribed']
        rfl

theorem Manages.untrack (manages : Manages b s) (alert : Alert s) :
    Manages b s.untrack ∧ Alert s.untrack := by
  unfold Setup.untrack
  split
  · rename_i units active id listeners code
    have unheard : (s.host.unsubscribeCompiles id).compileObservers = [] := by
      show s.host.compileObservers.filter _ = _
      rw [manages.compiles, code]
      simp
    refine ⟨⟨{ manages.meets with anchored := { manages.meets.anchored with } }, manages.number,
      ?_⟩, fun r found => ?_⟩
    · show (s.host.unsubscribeCompiles id).compileObservers = _
      rw [unheard]
      simp [setCode, code]
    · have idle : some { units, active := false, subscription := none, listeners } = some r :=
        (congrArg (Option.map _) code).symm.trans found
      cases idle
      rfl
  · exact ⟨manages, alert⟩

theorem Manages.subscribe (manages : Manages b s) (alert : Alert s) :
    Manages b s.subscribe ∧ Alert s.subscribe := by
  have later := fun t member => Nat.le_succ_of_le (manages.meets.anchored.bounded t member)
  have listens : ∀ {s : Setup}, Manages b s → Alert s →
      Manages b (s.setCode (·.addListener .hooks)) ∧ Alert (s.setCode (·.addListener .hooks)) := by
    intro s manages alert
    refine ⟨manages.of_code ?_, alert.of_tracking ?_⟩
    · cases s.engine.code <;> rfl
    · unfold Setup.tracking setCode
      cases s.engine.code <;> rfl
  unfold Setup.subscribe
  cases s.engine.hooks.definitions with
  | some id => exact listens manages alert
  | none =>
    refine listens ⟨{ manages.meets with
      anchored := { manages.meets.anchored with bounded := later } }, ?_, ?_⟩ alert
    · exact manages.number
    · exact manages.compiles

theorem Manages.load (manages : Manages b s) (path : String) (lines : List UInt32) :
    Manages b { s with host := (s.host.load path lines).2 } := by
  have later := fun t member => Nat.le_succ_of_le (manages.meets.anchored.bounded t member)
  exact { manages with meets := { manages.meets with
    anchored := { manages.meets.anchored with bounded := later } } }

end Setup
end LiveProbe
