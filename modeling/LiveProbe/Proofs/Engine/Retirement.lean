import LiveProbe.Proofs.Engine.Launch
import LiveProbe.Proofs.Engine.Tending
import LiveProbe.Proofs.Hook.Roots

/-!
The end of an engine. When it is shut down its hooks go and its probes are forgotten, it follows the
host no more and delivers nothing more, and the host is as if nobody had ever observed it. To shut
it down again changes nothing.
-/
namespace LiveProbe

namespace Delivery

variable {σ τ : Type}

theorem stopped_steps (n : Nat) : ∀ d : Delivery σ τ, (d.steps n).stopped = d.stopped := by
  induction n with
  | zero => exact fun _ => rfl
  | succ n ih =>
    intro d
    unfold steps
    split
    · rfl
    · exact ih d.step

theorem stopped_stop (d : Delivery σ τ) : d.stop.2.stopped = true := by
  unfold stop
  split
  · assumption
  · exact stopped_steps _ _

end Delivery

def Hooks.vacated (h : Hooks) : Hooks :=
  { h with
    pendingMethods := [], pendingLines := [], methods := [], lines := []
    slots := h.slots.map fun e => (e.1, 0), closed := true, definitions := none }

def CodeRegistry.detached (r : CodeRegistry) : CodeRegistry :=
  if r.subscription.isSome then { r with subscription := none, active := false } else r

theorem CodeRegistry.subscription_detached (r : CodeRegistry) : r.detached.subscription = none := by
  obtain ⟨units, active, subscription, listeners⟩ := r
  cases subscription <;> rfl

/-- A host that nobody traces and observes, with bodies of its own. -/
def Host.vacated (types : List (String × List (String × Body))) (h : Host) : Host :=
  { h with types, traces := [], definitionObservers := [], compileObservers := [] }

namespace Setup

variable {s : Setup} {propagate : Bool} {latest : Definitions}

/-- An engine that is done, on a host that it has left to itself. -/
structure Retired (s : Setup) : Prop extends Unstaffed s where
  pristine : Pristine s.host
  closed : s.engine.hooks.closed = true
  unfollowing : s.engine.hooks.definitions = none
  disabled : s.engine.hooks.slots.map (fun e => (e.1, 0)) = s.engine.hooks.slots
  unsubscribed : s.engine.code.bind (·.subscription) = none
  inactive : s.engine.code.filter (·.active) = none
  stopped : ∀ d, s.engine.delivery = some d → d.stopped = true

theorem Retired.counts (retired : s.Retired) : s.engine.hooks.counts = (0, 0) := by
  unfold Hooks.counts
  rw [retired.methods, retired.lines, retired.pendingMethods, retired.pendingLines]
  rfl

theorem Retired.body?_eq (retired : s.Retired) (rooted : s.held.Rooted latest) (m : MethodName) :
    s.host.body? m = (latest m).map .program := by
  have free : Table.get? m s.engine.hooks.methods = none := by
    rw [retired.methods]
    rfl
  exact rooted.body?_of_free free

theorem Unstaffed.coherent (unstaffed : Unstaffed s) (untraced : s.host.traces = []) :
    Coherent [] s := by
  have coherent := unstaffed.tidy.coherent
  have same : s.without (s.host.traces.map (·.id)) = s := by
    unfold Setup.without Host.without
    rw [untraced]
    show { s with host := { s.host with traces := [] } } = s
    rw [← untraced]
  rwa [same] at coherent

/-! What is done, one after the other. -/

theorem Composed.stopFollowing_eq (composed : Composed propagate s) :
    s.held.stopFollowing = { s.held with
      host := { s.host with definitionObservers := [] }
      hooks := s.engine.hooks.markClosed } := by
  have observers := composed.definitions
  unfold Hooking.stopFollowing
  cases following : s.held.hooks.definitions with
  | none =>
    rw [show s.engine.hooks.definitions = none from following] at observers
    rw [← show s.host.definitionObservers = [] from observers]
    rfl
  | some id =>
    rw [show s.engine.hooks.definitions = some id from following] at observers
    dsimp only
    unfold Host.unsubscribeDefinitions
    rw [show s.held.host.definitionObservers = _ from observers]
    simp [held]

theorem Composed.closeProbes_eq (composed : Composed propagate s)
    (rooted : s.held.Rooted latest) :
    ∃ types, s.closeProbes = { s with
        host := { s.host with types, traces := [], definitionObservers := [] }
        engine := { s.engine with
          hooks := s.engine.hooks.vacated, probes := s.engine.probes.clear } } ∧
      ∀ m, Host.body? { s.host with types } m = (latest m).map .program := by
  have stopped := composed.stopFollowing_eq
  have rooted' : s.held.stopFollowing.Rooted latest := by
    rw [stopped]
    exact rooted.congr (fun _ => rfl) rfl rfl rfl
  have anchored : s.held.stopFollowing.Anchored := by
    rw [stopped]
    exact { composed.coherent.anchored with }
  obtain ⟨types, cleared, bodies⟩ := rooted'.clearHooks anchored
  rw [stopped] at bodies
  refine ⟨types, ?_, bodies⟩
  have closed : s.held.close = _ := congrArg Hooking.clearPending cleared
  rw [stopped] at closed
  unfold closeProbes hooking setProbes
  rw [show (⟨s.host, s.engine.hooks, s.warnings⟩ : Hooking) = s.held from rfl]
  dsimp only
  rw [closed]
  rfl

theorem untrack_eq (compiles : s.host.compileObservers =
      (s.engine.code.bind (·.subscription)).toList.map fun id => (id, Observer.engine 0)) :
    s.untrack = { s with
      host := { s.host with compileObservers := [] }
      engine := { s.engine with code := s.engine.code.map CodeRegistry.detached } } := by
  obtain ⟨⟨types, units, traces, lastId, _, compileObservers, lists, refuses⟩,
    ⟨hooks, code, probes, reporter, propagates, observer, delivery⟩, journal, warnings⟩ := s
  dsimp only at compiles
  cases code with
  | none =>
    cases (show compileObservers = [] from compiles)
    rfl
  | some registry =>
    obtain ⟨units, active, subscription, listeners⟩ := registry
    cases subscription with
    | none =>
      cases (show compileObservers = [] from compiles)
      rfl
    | some id =>
      unfold Setup.untrack Host.unsubscribeCompiles
      simp [setCode, compiles, CodeRegistry.detached]

theorem stopDelivery_eq (s : Setup) : ∃ warnings, s.stopDelivery = { s with
    engine := { s.engine with delivery := s.engine.delivery.map fun d => d.stop.2 }
    warnings } := by
  obtain ⟨host, ⟨hooks, code, probes, reporter, propagates, observer, delivery⟩, journal,
    warnings⟩ := s
  cases delivery with
  | none => exact ⟨warnings, rfl⟩
  | some d => exact ⟨_, rfl⟩

theorem Composed.shutdown_eq (composed : Composed propagate s) (rooted : s.held.Rooted latest) :
    ∃ types warnings, s.shutdown = { s with
        host := s.host.vacated types
        engine := { s.engine with
          hooks := s.engine.hooks.vacated
          code := s.engine.code.map CodeRegistry.detached
          probes := s.engine.probes.clear
          delivery := s.engine.delivery.map fun d => d.stop.2 }
        warnings } ∧
      ∀ m, (s.host.vacated types).body? m = (latest m).map .program := by
  obtain ⟨types, closed, bodies⟩ := composed.closeProbes_eq rooted
  have untracked := untrack_eq (s := s.closeProbes) (by rw [closed]; exact composed.compiles)
  obtain ⟨warnings, stopped⟩ := stopDelivery_eq s.closeProbes.untrack
  refine ⟨types, warnings, ?_, bodies⟩
  unfold Setup.shutdown
  rw [stopped, untracked, closed]
  rfl

/-! What is left. -/

/-- A registry that is not subscribed is not active either. -/
def Regular (s : Setup) : Prop :=
  ∀ r, s.engine.code = some r → r.subscription = none → r.active = false

theorem Attuned.regular {untargeted : Bool} (attuned : Attuned propagate untargeted s) :
    s.Regular := by
  intro r code idle
  have subscribed := attuned.wired.subscribed
  rw [code, Option.bind_some, idle] at subscribed
  cases subscribed

theorem Composed.unstaffed_shutdown (composed : Composed propagate s)
    (rooted : s.held.Rooted latest) : s.shutdown.Unstaffed := by
  obtain ⟨types, warnings, done, -⟩ := composed.shutdown_eq rooted
  rw [done]
  exact ⟨rfl, rfl, rfl, rfl, rfl, rfl, rfl, composed.coherent.ordered.fresh,
    composed.coherent.observer, nofun⟩

theorem Composed.unsubscribed_shutdown (composed : Composed propagate s)
    (rooted : s.held.Rooted latest) : s.shutdown.engine.code.bind (·.subscription) = none := by
  obtain ⟨types, warnings, done, -⟩ := composed.shutdown_eq rooted
  rw [done]
  dsimp only
  cases s.engine.code with
  | none => rfl
  | some r => exact r.subscription_detached

theorem retired_shutdown (composed : Composed propagate s) (rooted : s.held.Rooted latest)
    (regular : s.Regular) : s.shutdown.Retired := by
  have unstaffed := composed.unstaffed_shutdown rooted
  have unsubscribed := composed.unsubscribed_shutdown rooted
  obtain ⟨types, warnings, done, bodies⟩ := composed.shutdown_eq rooted
  rw [done] at unstaffed unsubscribed ⊢
  constructor
  case toUnstaffed => exact unstaffed
  case pristine =>
    refine ⟨rfl, rfl, rfl, composed.willing, composed.lists, fun m body found => ?_⟩
    rw [bodies] at found
    obtain ⟨code, -, rfl⟩ := Option.map_eq_some_iff.mp found
    exact ⟨code, rfl⟩
  case closed => rfl
  case unfollowing => rfl
  case disabled =>
    show (s.engine.hooks.slots.map _).map _ = _
    rw [List.map_map]
    rfl
  case unsubscribed => exact unsubscribed
  case inactive =>
    dsimp only
    cases code : s.engine.code with
    | none => rfl
    | some r =>
      obtain ⟨units, active, subscription, listeners⟩ := r
      cases subscription with
      | none =>
        cases (regular _ code rfl)
        rfl
      | some id => rfl
  case stopped =>
    intro d delivery
    obtain ⟨d', -, rfl⟩ := Option.map_eq_some_iff.mp delivery
    exact d'.stopped_stop

theorem Composed.shutdown (composed : Composed propagate s) (rooted : s.held.Rooted latest) :
    Composed propagate s.shutdown ∧ s.shutdown.held.Rooted latest := by
  have unstaffed := composed.unstaffed_shutdown rooted
  have unsubscribed := composed.unsubscribed_shutdown rooted
  obtain ⟨types, warnings, done, bodies⟩ := composed.shutdown_eq rooted
  rw [done] at unstaffed unsubscribed ⊢
  refine ⟨⟨unstaffed.coherent rfl, composed.number, composed.propagates, composed.willing,
    composed.lists, rfl, ?_⟩, Hooking.Rooted.bare composed.willing rfl bodies⟩
  rw [unsubscribed]
  rfl

theorem Retired.shutdown_eq (retired : s.Retired) : s.shutdown = s := by
  have closed : s.closeProbes = s := by
    obtain ⟨host, ⟨⟨manager, untargeted, pendingMethods, pendingLines, methods, slots, lines, last,
      closed, definitions⟩, code, ⟨installed, pending, groups, members, lastGroup, lastSerial,
      limiters⟩, reporter, propagates, observer, delivery⟩, journal, warnings⟩ := s
    cases retired.methods
    cases retired.lines
    cases retired.pendingMethods
    cases retired.pendingLines
    cases retired.installed
    cases retired.pending
    cases retired.groups
    cases retired.closed
    cases retired.unfollowing
    have disabled : slots.map (fun e => (e.1, 0)) = slots := retired.disabled
    unfold closeProbes hooking setProbes Hooking.close Hooking.clearHooks
    simp only [Hooking.stopFollowing, Hooks.markClosed, List.foldl_nil, disabled]
    rfl
  have untracked : s.untrack = s := by
    have off := retired.unsubscribed
    unfold Setup.untrack
    split
    · rename_i code
      rw [code] at off
      cases off
    · rfl
  have stopped : s.stopDelivery = s := by
    obtain ⟨host, ⟨hooks, code, probes, reporter, propagates, observer, delivery⟩, journal,
      warnings⟩ := s
    cases delivery with
    | none => rfl
    | some d =>
      unfold stopDelivery
      simp only [Delivery.stop_of_stopped (retired.stopped d rfl), List.append_nil]
  unfold Setup.shutdown
  rw [closed, untracked, stopped]

end Setup
end LiveProbe
