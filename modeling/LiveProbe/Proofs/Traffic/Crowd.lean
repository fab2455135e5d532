import LiveProbe.Proofs.Engine.Entering
import LiveProbe.Proofs.Hook.Layers
import LiveProbe.Proofs.Traffic.Sections
import LiveProbe.Proofs.World.Respect

/-!
Calls of the host among the threads that manage an engine. A call looks each of its hooks up before
the body beneath runs, and the hooks that it has found are told of the call after that; a line that
runs has its hooks told one after the other. Between any two of these anything may happen.

What is preserved by all of it: the layers that hooks lay on bodies stay in order.
-/
namespace LiveProbe

structure World.Around (w : World) (s : Setup) : Prop where
  host : w.host = s.host
  engines : w.engines = [s.engine]
  journal : w.journal = s.journal
  warnings : w.warnings = s.warnings

/-- What is left of a call, or of a line that runs. -/
inductive Activation where
  /-- The body is to be run, and after it the callbacks. -/
  | entering (body : Body) (due : List Callback)
  | leaving (due : List Callback)

namespace Activation

/-- Callbacks that were found current and have not been called, the next one first. -/
def due : Activation → List Callback
  | entering _ due => due
  | leaving due => due

def rest {α : Type} (due : List Callback) : Except Fault α → Multiset Activation
  | .ok _ => {.leaving due}
  | .error _ => 0

theorem eq_of_mem_rest {α : Type} {due : List Callback} {r : Except Fault α} {a : Activation}
    (member : a ∈ rest due r) : a = .leaving due := by
  cases r with
  | ok _ => exact Multiset.mem_singleton.mp member
  | error _ => cases member

/-- What comes next: what it leaves, and what is to be done then. Calls that a program makes and
types that it defines are activations and jobs of their own, and so is what a script does. -/
inductive Runs (s : Setup) : Activation → Setup → Multiset Activation → Prop
  | found {manager installation : Nat} {m : MethodName} {callback : Callback} {saved : Body}
      {due : List Callback}
      (current : manager = s.engine.number → s.engine.hooks.slot m = installation) :
    Runs s (.entering (.hooked manager m installation callback saved) due) s
      {.entering saved (callback :: due)}
  | passed {manager installation : Nat} {m : MethodName} {callback : Callback} {saved : Body}
      {due : List Callback}
      (stale : manager = s.engine.number → s.engine.hooks.slot m ≠ installation) :
    Runs s (.entering (.hooked manager m installation callback saved) due) s {.entering saved due}
  | wrapped {serial : Nat} {label : String} {saved : Body} {due : List Callback}
      {stack : List StackFrame} :
    Runs s (.entering (.wrapped serial label saved) due) (s.note (.intercepted label stack))
      {.entering saved due}
  | replaced {serial : Nat} {label : String} {due : List Callback} {stack : List StackFrame} :
    Runs s (.entering (.replaced serial label) due) (s.note (.intercepted label stack))
      {.leaving due}
  | returned {code : Code} {due : List Callback} :
    Runs s (.entering (.program code) due) s {.leaving due}
  | panicked {code : Code} {due : List Callback} : Runs s (.entering (.program code) due) s 0
  | fired {callback : Callback} {due : List Callback} {x : Execution} {w : World} {s' : Setup}
      (before : w.Around s)
      (after : (Action.fire (fun _ _ => pure .nil) x callback w).2.Around s') :
    Runs s (.leaving (callback :: due)) s'
      (rest due (Action.fire (fun _ _ => pure .nil) x callback w).1)
  | finished : Runs s (.leaving []) s 0

end Activation

def Host.callbacksAt (h : Host) (path : String) (line : UInt32) : List Callback :=
  ((h.tracesOf path line).filter (Action.concerns path line)).map (·.callback)

structure Crowd where
  traffic : Traffic
  activations : Multiset Activation := 0

namespace Crowd

inductive Step (opens : Job → Prop) (s : Crowd) : Crowd → Prop
  | threads {traffic : Traffic} (part : Traffic.Step opens s.traffic traffic) :
    Step opens s { s with traffic }
  | calls {m : MethodName} {body : Body} (defined : s.traffic.setup.host.body? m = some body) :
    Step opens s { s with activations := .entering body [] ::ₘ s.activations }
  | line {path : String} {line : UInt32} :
    Step opens s { s with
      activations := .leaving (s.traffic.setup.host.callbacksAt path line) ::ₘ s.activations }
  | goes {a : Activation} {others next : Multiset Activation} {setup : Setup}
      (ready : s.activations = a ::ₘ others) (part : a.Runs s.traffic.setup setup next) :
    Step opens s { traffic := { s.traffic with setup }, activations := next + others }

abbrev Reaches (opens : Job → Prop) : Crowd → Crowd → Prop := Relation.ReflTransGen (Step opens)

end Crowd

/-! What becomes of the setup when a callback is called. -/

/-- Turns have been taken and notices told, of members of the groups that callbacks act for. -/
structure Setup.Reported (callbacks : List Callback) (s s' : Setup) : Prop where
  host : s'.host = s.host
  hooks : s'.engine.hooks = s.engine.hooks
  probes : s'.engine.probes = { s.engine.probes with limiters := s'.engine.probes.limiters }
  journal : ∃ told, s'.journal = s.journal ++ told ∧ ∀ n, .notice n ∈ told →
    ∃ g, .probes 0 g ∈ callbacks ∧ ∃ k ∈ s.engine.probes.membersOf g, n.probeId = k.probe.id

namespace Setup

variable {s s' s'' : Setup} {callbacks : List Callback}

theorem reported_refl (callbacks : List Callback) (s : Setup) : Reported callbacks s s :=
  ⟨rfl, rfl, rfl, [], (List.append_nil _).symm, fun _ told => absurd told List.not_mem_nil⟩

theorem reported_warn (callbacks : List Callback) (warning : Warning) (s : Setup) :
    Reported callbacks s (s.warn warning) :=
  ⟨rfl, rfl, rfl, [], (List.append_nil _).symm, fun _ told => absurd told List.not_mem_nil⟩

theorem reported_note (callbacks : List Callback) {o : Occurrence} (other : ∀ n, o ≠ .notice n)
    (s : Setup) : Reported callbacks s (s.note o) :=
  ⟨rfl, rfl, rfl, [o], rfl, fun n told => absurd (List.mem_singleton.mp told).symm (other n)⟩

theorem reported_takeTurn (callbacks : List Callback) (k : KnownProbe) (s : Setup) :
    Reported callbacks s (s.onProbes (Probes.takeTurn k)).2 :=
  ⟨rfl, rfl, Probes.takeTurn_eq k s.engine.probes, [], (List.append_nil _).symm,
    fun _ told => absurd told List.not_mem_nil⟩

theorem reported_tell {g : Nat} (acts : .probes 0 g ∈ callbacks) {k : KnownProbe}
    (member : k ∈ s.engine.probes.membersOf g) {n : Notice} (named : n.probeId = k.probe.id) :
    Reported callbacks s (s.tell n) := by
  refine ⟨rfl, rfl, rfl, [.notice n], rfl, fun n' told => ?_⟩
  cases List.mem_singleton.mp told
  exact ⟨g, acts, k, member, named⟩

theorem Reported.trans (first : Reported callbacks s s') (second : Reported callbacks s' s'') :
    Reported callbacks s s'' := by
  obtain ⟨told, journal, members⟩ := first.journal
  obtain ⟨told', journal', members'⟩ := second.journal
  refine ⟨second.host.trans first.host, second.hooks.trans first.hooks, ?_, told ++ told', ?_, ?_⟩
  · rw [second.probes, first.probes]
  · rw [journal', journal, List.append_assoc]
  · intro n member
    rcases List.mem_append.mp member with before | later
    · exact members n before
    · obtain ⟨g, acts, k, there, named⟩ := members' n later
      rw [first.probes] at there
      exact ⟨g, acts, k, there, named⟩

theorem Reported.relayered (reported : Reported callbacks s s') :
    Hooking.Relayered s.held s'.held := by
  have hooks : s'.held.hooks = s.held.hooks := reported.hooks
  refine Hooking.relayered_of_same (fun m => congrArg (·.body? m) reported.host) ?_ ?_ ?_
  all_goals rw [hooks]

end Setup

namespace World

variable {w : World} {s : Setup}

theorem Around.inSetup (around : w.Around s) {α : Type} (f : Setup → α × Setup) :
    (w.inSetup 0 f).2.Around (f s).2 := by
  have same : (⟨w.host, s.engine, w.journal, w.warnings⟩ : Setup) = s := by
    rw [around.host, around.journal, around.warnings]
  unfold World.inSetup
  rw [around.engines, List.getElem?_cons_zero]
  dsimp only
  rw [same]
  exact ⟨rfl, rfl, rfl, rfl⟩

theorem Around.warn (around : w.Around s) (warning : Warning) :
    (w.warn warning).Around (s.warn warning) :=
  ⟨around.host, around.engines, around.journal, congrArg (· ++ [warning]) around.warnings⟩

theorem Around.unique {s' : Setup} (around : w.Around s) (around' : w.Around s') : s' = s := by
  obtain ⟨host, engine, journal, warnings⟩ := s
  obtain ⟨host', engine', journal', warnings'⟩ := s'
  cases around.host.symm.trans around'.host
  cases around.engines.symm.trans around'.engines
  cases around.journal.symm.trans around'.journal
  cases around.warnings.symm.trans around'.warnings
  rfl

theorem Around.fired (around : w.Around s) {callback : Callback} {callbacks : List Callback}
    (among : callback ∈ callbacks) (x : Execution) :
    ∃ s', (Action.fire (fun _ _ => pure .nil) x callback w).2.Around s' ∧
      s.Reported callbacks s' := by
  let P (w : World) : Prop := ∃ s', w.Around s' ∧ s.Reported callbacks s'
  have start : P w := ⟨s, around, Setup.reported_refl callbacks s⟩
  cases callback with
  | script code => exact start
  | record label =>
    exact ⟨s.note (Action.recordOf label x), ⟨around.host, around.engines,
      congrArg (· ++ _) around.journal, around.warnings⟩,
      Setup.reported_note callbacks (fun n same => by cases x <;> cases same) s⟩
  | probes engine g =>
    refine Action.respects_forM _ (fun k member => ?_) w start
    -- another engine is not there, and has no members
    obtain ⟨rfl, joined⟩ : engine = 0 ∧ k ∈ s.engine.probes.membersOf g := by
      rw [around.engines] at member
      cases engine with
      | zero => exact ⟨rfl, member⟩
      | succ n => cases member
    refine Action.respects_guarded_of (Action.respects_report_of x ?_ ?_) ?_
    · rintro w ⟨s', around', reported⟩
      exact ⟨_, around'.inSetup _, reported.trans (Setup.reported_takeTurn _ k s')⟩
    · rintro f w named ⟨s', around', reported⟩
      refine ⟨_, around'.inSetup _, reported.trans (Setup.reported_tell among ?_ (named s'))⟩
      rw [reported.probes]
      exact joined
    · rintro w ⟨s', around', reported⟩
      exact ⟨_, around'.warn _, reported.trans (Setup.reported_warn _ _ s')⟩

end World

namespace Activation

variable {s s' : Setup} {a b : Activation} {next : Multiset Activation}

theorem Runs.reported (part : a.Runs s s' next) : s.Reported a.due s' := by
  cases part with
  | found | passed | returned | panicked | finished => exact Setup.reported_refl _ s
  | wrapped | replaced => exact Setup.reported_note _ (fun _ same => by cases same) s
  | fired before after =>
    obtain ⟨s', around, reported⟩ := before.fired List.mem_cons_self _
    rwa [around.unique after]

theorem Runs.due_next (part : a.Runs s s' next) (member : b ∈ next) {callback : Callback}
    (later : callback ∈ b.due) : callback ∈ a.due ∨
      ∃ manager m installation saved,
        a = .entering (.hooked manager m installation callback saved) a.due ∧
          (manager = s.engine.number → s.engine.hooks.slot m = installation) := by
  cases part with
  | found current =>
    rw [Multiset.mem_singleton.mp member] at later
    rcases List.mem_cons.mp later with rfl | old
    · exact Or.inr ⟨_, _, _, _, rfl, current⟩
    · exact Or.inl old
  | passed | wrapped | replaced | returned =>
    rw [Multiset.mem_singleton.mp member] at later
    exact Or.inl later
  | panicked | finished => cases member
  | fired =>
    rw [eq_of_mem_rest member] at later
    exact Or.inl (List.mem_cons_of_mem _ later)

end Activation

/-! What sections make of the layers. -/

/-- Bodies that are to be defined are regular. -/
def Job.Regular (n : Nat) : Job → Prop
  | .define _ bodies => ∀ e ∈ bodies, e.2.Regular n
  | _ => True

def Activation.Regular (n : Nat) : Activation → Prop
  | .entering body _ => body.Regular n
  | .leaving _ => True

namespace Setup

theorem relayered_of_held {s s' : Setup} (held : s'.held = s.held) :
    Hooking.Relayered s.held s'.held := by
  rw [held]
  exact .refl s.held

theorem relayered_removePending (e : String × KnownProbe) (s : Setup) :
    Hooking.Relayered s.held (s.removePending e).held := by
  unfold removePending setProbes onProbes
  dsimp only
  split
  · rename_i target _
    rcases Probes.leave target e.1 (s.engine.probes.dropPending e.1) with ⟨last, ps⟩
    cases last with
    | true => exact Hooking.forget_relayered target s.held
    | false => exact .refl s.held
  · exact .refl s.held

theorem relayered_removeInstalled (id : String) (k : KnownProbe) (s : Setup) :
    Hooking.Relayered s.held (s.removeInstalled id k).2.held := by
  unfold removeInstalled
  split
  · rename_i target _
    have unhooked := Hooking.unhook_relayered target s.held
    dsimp only
    cases s.engine.probes.sharesHook target id with
    | true => exact .refl s.held
    | false =>
      simp only [Bool.false_eq_true, if_false]
      unfold hooking
      rcases answer : Hooking.unhook target s.held with ⟨r, kept⟩
      rw [answer] at unhooked
      rw [show (⟨s.host, s.engine.hooks, s.warnings⟩ : Hooking) = s.held from rfl, answer]
      cases r with
      | ok _ => exact unhooked
      | error e => exact unhooked.trans (Hooking.relayered_of_same (fun _ => rfl) rfl rfl rfl)
  · exact .refl s.held

end Setup

theorem Job.Runs.relayered {s s' : Setup} {job : Job} {next : Multiset Job}
    (part : job.Runs s s' next) (regular : job.Regular s.engine.number) :
    Hooking.Relayered s.held s'.held := by
  cases part with
  | define => exact ⟨rfl, fun l => ⟨l.seated, l.host.define _ regular, l.handles⟩⟩
  | load => exact Hooking.relayered_of_same (fun _ => rfl) rfl rfl rfl
  | register => exact Hooking.relayered_of_same (fun _ => rfl) rfl rfl rfl
  | announce | notified => exact .refl s.held
  | install => exact (Hooking.retryAll_touched _ _ _).toRelayered

theorem Job.Locks.relayered {s s' : Setup} {job : Job} {next : Multiset Job} {holder : Option Hold}
    (part : job.Locks s s' next holder) : Hooking.Relayered s.held s'.held := by
  cases part with
  | notify => exact Setup.relayered_of_held (s.held_hookInstalled _)
  | misplaced | idle | founds | keep => exact .refl s.held
  | joins => exact Setup.relayered_of_held (Setup.restaffed_enterGroup _ _ s).1.held
  | close =>
    refine Hooking.relayered_of_same (fun m => ?_) rfl rfl rfl
    show (Hooking.stopFollowing s.held).host.body? m = _
    unfold Hooking.stopFollowing
    dsimp only
    split <;> rfl

theorem Hold.Runs.relayered {s s' : Setup} {hold : Hold} {holder : Option Hold}
    (part : hold.Runs s s' holder) : Hooking.Relayered s.held s'.held := by
  cases part with
  | refused | requested => exact Hooking.hookWhenDefined_relayered _ _ _ s.held
  | enter => exact Setup.relayered_of_held (Setup.restaffed_enterFirst _ _ _ s).1.held
  | dropPending => exact Setup.relayered_removePending _ s
  | turn | kept => exact .refl s.held
  | dropInstalled => exact Setup.relayered_removeInstalled _ _ s
  | clearHooks => exact Hooking.clearHooks_relayered s.held
  | clearPending => exact Hooking.relayered_of_same (fun _ => rfl) rfl rfl rfl
  | clearProbes => exact Hooking.relayered_of_same (fun _ => rfl) rfl rfl rfl

theorem Job.Runs.next_cases {s s' : Setup} {job other : Job} {next : Multiset Job}
    (part : job.Runs s s' next) (member : other ∈ next) :
    (∃ unit, other = .register unit) ∨ (∃ arrival, other = .announce arrival) ∨
      (∃ arrival, other = .install arrival ∧ s.engine.hooks.closed = false) ∨
      ∃ targets, other = .notify targets := by
  cases part with
  | define => exact Or.inr (Or.inl ⟨_, (Traffic.mem_subscribed.mp member).1⟩)
  | load => exact Or.inl ⟨_, (Traffic.mem_subscribed.mp member).1⟩
  | register =>
    split at member
    · exact Or.inr (Or.inl ⟨_, (Traffic.mem_heard.mp member).1⟩)
    · cases member
  | announce =>
    split at member
    · cases member
    · rename_i opened
      exact Or.inr (Or.inr (Or.inl
        ⟨_, Multiset.mem_singleton.mp member, Bool.eq_false_iff.mpr opened⟩))
  | install => exact Or.inr (Or.inr (Or.inr ⟨_, Multiset.mem_singleton.mp member⟩))
  | notified => cases member

theorem Job.Runs.regular_next {s s' : Setup} {job other : Job} {next : Multiset Job} (n : Nat)
    (part : job.Runs s s' next) (member : other ∈ next) : other.Regular n := by
  rcases part.next_cases member with ⟨_, rfl⟩ | ⟨_, rfl⟩ | ⟨_, rfl, -⟩ | ⟨_, rfl⟩ <;> trivial

theorem Job.Locks.regular_next {s s' : Setup} {job other : Job} {next : Multiset Job}
    {holder : Option Hold} (n : Nat) (part : job.Locks s s' next holder)
    (member : other ∈ next) : other.Regular n := by
  cases part with
  | notify => rw [Multiset.mem_singleton.mp member]; trivial
  | _ => cases member

theorem Activation.Runs.regular_next {s s' : Setup} {a b : Activation}
    {next : Multiset Activation} {n : Nat} (part : a.Runs s s' next) (regular : a.Regular n)
    (member : b ∈ next) : b.Regular n := by
  cases part with
  | found | passed => rw [Multiset.mem_singleton.mp member]; exact regular.2.2
  | wrapped => rw [Multiset.mem_singleton.mp member]; exact regular
  | replaced | returned => rw [Multiset.mem_singleton.mp member]; trivial
  | panicked | finished => cases member
  | fired => rw [Activation.eq_of_mem_rest member]; trivial

namespace Crowd

variable {opens : Job → Prop} {s s' : Crowd}

/-- Layers are in order, in the host and in all that is under way. -/
structure Regular (s : Crowd) : Prop where
  number : s.traffic.setup.engine.number = 0
  layered : s.traffic.setup.held.Layered
  jobs : ∀ job ∈ s.traffic.jobs, job.Regular 0
  activations : ∀ a ∈ s.activations, a.Regular 0

theorem Regular.step (regular : Regular s) (each : ∀ job, opens job → job.Regular 0)
    (step : Step opens s s') : Regular s' := by
  obtain ⟨number, layered, jobs, activations⟩ := regular
  have of_relayered : ∀ {setup : Setup}, Hooking.Relayered s.traffic.setup.held setup.held →
      setup.engine.number = 0 ∧ setup.held.Layered :=
    fun relayered => ⟨relayered.manager.trans number, relayered.layered layered⟩
  cases step with
  | threads part =>
    cases part with
    | begins allowed =>
      exact ⟨number, layered, Multiset.forall_mem_cons.mpr ⟨each _ allowed, jobs⟩, activations⟩
    | runs ready part =>
      rw [ready] at jobs
      obtain ⟨own, others⟩ := Multiset.forall_mem_cons.mp jobs
      obtain ⟨number', layered'⟩ := of_relayered (part.relayered (number.symm ▸ own))
      exact ⟨number', layered', fun job member => (Multiset.mem_add.mp member).elim
        (part.regular_next 0) (others job), activations⟩
    | locks ready _ part =>
      rw [ready] at jobs
      obtain ⟨number', layered'⟩ := of_relayered part.relayered
      exact ⟨number', layered', fun job member => (Multiset.mem_add.mp member).elim
        (part.regular_next 0) ((Multiset.forall_mem_cons.mp jobs).2 job), activations⟩
    | holds _ part =>
      obtain ⟨number', layered'⟩ := of_relayered part.relayered
      exact ⟨number', layered', jobs, activations⟩
  | calls defined =>
    refine ⟨number, layered, jobs, Multiset.forall_mem_cons.mpr ⟨?_, activations⟩⟩
    have own := layered.host _ _ defined
    rwa [show s.traffic.setup.held.hooks.manager = 0 from number] at own
  | line => exact ⟨number, layered, jobs, Multiset.forall_mem_cons.mpr ⟨trivial, activations⟩⟩
  | goes ready part =>
    rw [ready] at activations
    obtain ⟨own, others⟩ := Multiset.forall_mem_cons.mp activations
    obtain ⟨number', layered'⟩ := of_relayered part.reported.relayered
    exact ⟨number', layered', jobs, fun b member => (Multiset.mem_add.mp member).elim
      (part.regular_next own) (others b)⟩

theorem Regular.reaches (regular : Regular s) (each : ∀ job, opens job → job.Regular 0)
    (run : Reaches opens s s') : Regular s' := by
  induction run with
  | refl => exact regular
  | tail _ step ih => exact ih.step each step

end Crowd
end LiveProbe
