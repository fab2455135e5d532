import LiveProbe.Proofs.Traffic.Step

/-!
A thread that nobody comes between. The sections of a job, taken one after the other, come to the
engine's own operation: to adding a probe, removing all but the named ones, closing the engine, or
to what an arrival leads to.
-/
namespace LiveProbe

def Setup.hear : Arrival → Setup → Setup
  | .type name => Setup.typeDefined name
  | .file path => Setup.fileKnown path

theorem Setup.hear_eq (arrival : Arrival) (s : Setup) :
    s.hear arrival = if s.engine.hooks.closed then s else
      let (targets, s) := s.hooking
        (Hooking.retryAll s.engine.code (arrival.waiting s.engine.hooks))
      targets.foldl Setup.hookInstalled s := by
  cases arrival <;>
  · simp only [hear, typeDefined, fileKnown, Setup.hooking, Hooking.installPendingMethods,
      Hooking.installPendingLines, Arrival.waiting]
    split <;> rfl

namespace Traffic

variable {opens : Job → Prop} {s : Traffic} {setup part : Setup} {job : Job} {hold : Hold}

/-- Jobs can be done without a break, which leaves the engine as told and nothing else to do. -/
def Completes (opens : Job → Prop) (s : Traffic) (jobs : Multiset Job) (setup : Setup) : Prop :=
  ∃ astray, Reaches opens { s with jobs := jobs + s.jobs } { s with setup, astray }

theorem completes_zero (s : Traffic) : Completes opens s 0 s.setup :=
  ⟨s.astray, by rw [Multiset.zero_add]⟩

theorem Completes.of_runs {next : Multiset Job} (first : job.Runs s.setup part next)
    (rest : Completes opens { s with setup := part } next setup) :
    Completes opens s {job} setup := by
  obtain ⟨astray, run⟩ := rest
  exact ⟨astray, .head (.runs (Multiset.singleton_add job s.jobs) first) run⟩

theorem Completes.of_locks (free : s.holder = none) {next : Multiset Job}
    (first : job.Locks s.setup part next none)
    (rest : Completes opens { s with setup := part } next setup) :
    Completes opens s {job} setup := by
  obtain ⟨astray, run⟩ := rest
  refine ⟨astray, .head (.locks (Multiset.singleton_add job s.jobs) free first) ?_⟩
  rw [← free]
  exact run

theorem Completes.reaches {s' : Traffic} (done : Completes opens s' {job} setup)
    (run : Reaches opens s s') (allowed : opens job) :
    ∃ astray, Reaches opens s { s' with setup, astray } := by
  obtain ⟨astray, rest⟩ := done
  exact ⟨astray, (run.tail (.begins allowed)).trans rest⟩

/-! Arrivals. -/

theorem completes_notify (targets : List HookTarget) :
    ∀ {s : Traffic}, s.holder = none →
      Completes opens s {.notify targets} (targets.foldl Setup.hookInstalled s.setup) := by
  induction targets with
  | nil => exact fun _ => .of_runs .notified (completes_zero _)
  | cons target rest ih =>
    intro s free
    exact .of_locks free .notify (ih (s := { s with setup := s.setup.hookInstalled target }) free)

theorem completes_announce (free : s.holder = none) (arrival : Arrival) :
    Completes opens s {.announce arrival} (s.setup.hear arrival) := by
  rw [Setup.hear_eq]
  refine .of_runs .announce ?_
  cases s.setup.engine.hooks.closed with
  | true => exact completes_zero s
  | false => exact .of_runs (.install (List.Perm.refl _)) (completes_notify _ free)

theorem Completes.add {jobs next : Multiset Job}
    (first : Completes opens { s with jobs := next + s.jobs } jobs part)
    (rest : ∀ astray, Completes opens { s with setup := part, astray } next setup) :
    Completes opens s (jobs + next) setup := by
  obtain ⟨astray, run⟩ := first
  obtain ⟨astray', run'⟩ := rest astray
  refine ⟨astray', ?_⟩
  rw [Multiset.add_assoc]
  exact run.trans run'

theorem completes_heard (unit : CompiledUnit) (listeners : List CodeListener)
    (hooks : ∀ l ∈ listeners, l = .hooks) : ∀ {s : Traffic}, s.holder = none →
      Completes opens s (listeners.map fun _ => .announce (.file unit.path) : List Job)
        (listeners.foldl (Setup.tellListener unit) s.setup) := by
  induction listeners with
  | nil => exact fun _ => completes_zero _
  | cons l rest ih =>
    intro s free
    obtain ⟨own, others⟩ := List.forall_mem_cons.mp hooks
    subst own
    let next : Multiset Job := (rest.map fun _ => .announce (.file unit.path) : List Job)
    have first : Completes opens { s with jobs := next + s.jobs } {.announce (.file unit.path)}
        (s.setup.fileKnown unit.path) :=
      completes_announce (s := { s with jobs := next + s.jobs }) free (.file unit.path)
    exact first.add fun astray =>
      ih others (s := { s with setup := s.setup.fileKnown unit.path, astray }) free

theorem completes_register (free : s.holder = none) {r : CodeRegistry}
    (code : s.setup.engine.code = some r) (hooks : ∀ l ∈ r.listeners, l = .hooks)
    (unit : CompiledUnit) : Completes opens s {.register unit} (s.setup.unitLoaded unit) := by
  have listeners : (r.register unit.path unit).2.listeners = r.listeners := by
    rw [CodeRegistry.register_eq]
  have told : s.setup.unitLoaded unit = if (r.register unit.path unit).1 then
      r.listeners.foldl (Setup.tellListener unit) (s.setup.registering r unit)
        else s.setup.registering r unit := by
    unfold Setup.unitLoaded Setup.registerUnit
    rw [code]
    dsimp only
    rw [listeners]
    rfl
  rw [told]
  refine .of_runs (.register code) ?_
  cases (r.register unit.path unit).1 with
  | false => exact completes_zero _
  | true =>
    have heard : r.listeners.filter (· = .hooks) = r.listeners :=
      List.filter_eq_self.mpr fun l member => decide_eq_true (hooks l member)
    simp only [if_true, CodeRegistry.heard, listeners, heard]
    exact completes_heard unit r.listeners hooks
      (s := { s with setup := s.setup.registering r unit }) free

/-! With the lock of the probes. -/

def Concludes (opens : Job → Prop) (s : Traffic) (hold : Hold) (setup : Setup) : Prop :=
  ∃ astray, Reaches opens { s with holder := some hold } { s with setup, holder := none, astray }

theorem concludes_last (last : hold.Runs s.setup setup none) : Concludes opens s hold setup :=
  ⟨_, .single (.holds rfl last)⟩

theorem Concludes.of_holds {hold' : Hold} (first : hold.Runs s.setup part (some hold'))
    (rest : ∀ astray, Concludes opens { s with setup := part, astray } hold' setup) :
    Concludes opens s hold setup := by
  obtain ⟨astray, run⟩ := rest (s.strayed hold)
  exact ⟨astray, .head (.holds rfl first) run⟩

theorem Completes.of_concludes (free : s.holder = none)
    (first : job.Locks s.setup part 0 (some hold))
    (rest : Concludes opens { s with setup := part } hold setup) :
    Completes opens s {job} setup := by
  obtain ⟨astray, run⟩ := rest
  refine ⟨astray, .head (.locks (Multiset.singleton_add job s.jobs) free first) ?_⟩
  rw [← free, Multiset.zero_add] at *
  exact run

theorem completes_add (free : s.holder = none) (p : Probe) :
    Completes opens s {.add p} (s.setup.addProbe p).2 := by
  unfold Setup.addProbe
  rcases admitted : s.setup.engine.probes.admission p with e | (_ | group | target)
  · exact .of_locks free (.misplaced admitted) (completes_zero _)
  · exact .of_locks free (.idle admitted) (completes_zero _)
  · exact .of_locks free (.joins admitted) (completes_zero _)
  · refine .of_concludes free (.founds admitted) ?_
    dsimp only
    rcases answer : s.setup.requestHook target with ⟨e | installed, asked⟩
    · have request := Hold.Runs.refused (p := p) (congrArg Prod.fst answer)
      rw [answer] at request
      exact concludes_last request
    · have request := Hold.Runs.requested (p := p) (congrArg Prod.fst answer)
      rw [answer] at request
      exact .of_holds request fun _ => concludes_last .enter

theorem concludes_dropInstalled (stale : List (String × KnownProbe)) :
    ∀ {s : Traffic},
      Concludes opens s (.dropInstalled stale) (s.setup.removeAllInstalled stale).2 := by
  induction stale with
  | nil => exact concludes_last .kept
  | cons e rest ih =>
    intro s
    exact .of_holds .dropInstalled fun astray =>
      ih (s := { s with setup := (s.setup.removeInstalled e.1 e.2).2, astray })

theorem concludes_dropPending (named : List String) (stale : List (String × KnownProbe)) :
    ∀ {s : Traffic}, Concludes opens s (.dropPending stale named)
      (let kept := stale.foldl Setup.removePending s.setup
      (kept.removeAllInstalled (Probes.others named kept.engine.probes.installed)).2) := by
  induction stale with
  | nil =>
    intro s
    exact .of_holds (.turn (List.Perm.refl _)) fun astray =>
      concludes_dropInstalled _ (s := { s with astray })
  | cons e rest ih =>
    intro s
    exact .of_holds .dropPending fun astray =>
      ih (s := { s with setup := s.setup.removePending e, astray })

theorem completes_keep (free : s.holder = none) (named : List String) :
    Completes opens s {.keep named} (s.setup.keepProbes named).2 :=
  .of_concludes free (.keep (List.Perm.refl _)) (concludes_dropPending named _)

theorem completes_close (free : s.holder = none) :
    Completes opens s {.close} s.setup.closeProbes :=
  .of_concludes free .close <| .of_holds .clearHooks fun _ => .of_holds .clearPending fun _ =>
    concludes_last .clearProbes

end Traffic
end LiveProbe
