import LiveProbe.Proofs.Engine.Arrivals
import LiveProbe.Proofs.World.Equipment
import LiveProbe.Proofs.World.Retirement
import LiveProbe.Proofs.World.Standing

/-!
A configuration that comes late, when the engine has been shut down. The engine is told of nothing
any more, but a configuration is still its own to apply: probes are known again, methods that are
defined are hooked again, and hooks on others wait, for definitions that nobody will tell of. Only
documents that bring no probe leave all as it was.
-/
namespace LiveProbe

def Host.Offers (h : Host) : HookTarget → Prop
  | .method m => (h.body? m).isSome = true
  | .line _ => True

namespace Setup

variable {s s' : Setup} {propagate untargeted : Bool} {latest : Definitions}

def Unmanned (s : Setup) : Prop :=
  s.engine.hooks.counts = (0, 0) ∧ ∀ k, ¬ s.engine.probes.Knows k

def Unaltered (h : Host) (s : Setup) : Prop := s.Unmanned ∧ ∀ m, s.host.body? m = h.body? m

/-- What has become of an engine that was done, and of its host, when it knows probes again: it is
as closed as before. -/
structure Relapsed (probes : List Probe) (h : Host) (s : Setup) : Prop where
  closed : s.engine.hooks.closed = true
  unfollowing : s.engine.hooks.definitions = none
  known : ∀ p, p ∈ probes ↔ ∃ k, k.probe = p ∧ s.engine.probes.Knows k
  installed : ∀ t, s.engine.hooks.isInstalled t = true ↔
    (∃ p ∈ probes, p.target = .ok (some t)) ∧ h.Offers t
  pending : ∀ t, s.engine.hooks.isPending t = true ↔
    (∃ p ∈ probes, p.target = .ok (some t)) ∧ ¬ h.Offers t
  spared : ∀ m, s.engine.hooks.isInstalled (.method m) = false → s.host.body? m = h.body? m
  hooked : ∀ m, s.engine.hooks.isInstalled (.method m) = true → ∃ i g code,
    h.body? m = some (.program code) ∧ s.host.body? m = some
      (.hooked s.engine.hooks.manager m i (.probes s.engine.hooks.manager g) (.program code))

theorem counts_eq_zero_iff (h : Hooks) :
    h.counts = (0, 0) ↔ ∀ t, h.isInstalled t = false ∧ h.isPending t = false := by
  unfold Hooks.counts
  simp only [Prod.mk.injEq, Nat.add_eq_zero_iff, List.length_eq_zero_iff, Table.eq_nil_iff]
  constructor
  · rintro ⟨⟨methods, lines⟩, pendingMethods, pendingLines⟩ t
    cases t with
    | method m => exact ⟨methods m, pendingMethods m⟩
    | line l => exact ⟨lines l, pendingLines l⟩
  · intro idle
    exact ⟨⟨fun m => (idle (.method m)).1, fun l => (idle (.line l)).1⟩,
      fun m => (idle (.method m)).2, fun l => (idle (.line l)).2⟩

theorem Relapsed.unaltered_iff {probes : List Probe} {h : Host} (relapsed : s.Relapsed probes h) :
    s.Unaltered h ↔ probes = [] := by
  constructor
  · rintro ⟨⟨-, nobody⟩, -⟩
    refine List.eq_nil_iff_forall_not_mem.mpr fun p member => ?_
    obtain ⟨k, -, knows⟩ := (relapsed.known p).mp member
    exact nobody k knows
  · rintro rfl
    have unhooked : ∀ t, s.engine.hooks.isInstalled t = false := fun t => by
      rw [Bool.eq_false_iff, Ne, relapsed.installed]
      rintro ⟨⟨p, member, -⟩, -⟩
      cases member
    have idle : ∀ t, s.engine.hooks.isPending t = false := fun t => by
      rw [Bool.eq_false_iff, Ne, relapsed.pending]
      rintro ⟨⟨p, member, -⟩, -⟩
      cases member
    refine ⟨⟨(counts_eq_zero_iff _).mpr fun t => ⟨unhooked t, idle t⟩, fun k knows => ?_⟩,
      fun m => relapsed.spared m (unhooked _)⟩
    cases (relapsed.known k.probe).mpr ⟨k, rfl, knows⟩

structure Detached (propagate untargeted : Bool) (s : Setup) : Prop where
  composed : Composed propagate s
  closed : s.engine.hooks.closed = true
  unfollowing : s.engine.hooks.definitions = none
  unsubscribed : s.engine.code.bind (·.subscription) = none
  inactive : s.engine.code.filter (·.active) = none
  anywhere : s.engine.hooks.untargeted = untargeted

namespace Detached

theorem of_backdrop (detached : s.Detached propagate untargeted) (backdrop : Backdrop s s')
    (coherent : Coherent [] s') : s'.Detached propagate untargeted := by
  have same := fun {α : Type} (f : Hooking.Wiring → α) => congrArg f backdrop.wiring
  refine ⟨detached.composed.of_backdrop backdrop coherent, (same (·.closed)).trans detached.closed,
    (same (·.definitions)).trans detached.unfollowing, ?_, ?_,
    (same (·.untargeted)).trans detached.anywhere⟩
  · rw [backdrop.code]
    exact detached.unsubscribed
  · rw [backdrop.code]
    exact detached.inactive

theorem of_composed (detached : s.Detached propagate untargeted) (composed : Composed propagate s')
    (engine : s'.engine = s.engine) : s'.Detached propagate untargeted := by
  refine ⟨composed, ?_, ?_, ?_, ?_, ?_⟩ <;> rw [engine]
  · exact detached.closed
  · exact detached.unfollowing
  · exact detached.unsubscribed
  · exact detached.inactive
  · exact detached.anywhere

end Detached

/-- An engine that is composed can be shut down, also when it has been already. -/
structure Orderly (propagate untargeted : Bool) (s : Setup) : Prop where
  composed : Composed propagate s
  regular : s.Regular
  anywhere : s.engine.hooks.untargeted = untargeted

theorem Attuned.orderly (attuned : Attuned propagate untargeted s) :
    s.Orderly propagate untargeted :=
  ⟨attuned.composed, attuned.regular, attuned.wired.anywhere⟩

theorem Detached.orderly (detached : s.Detached propagate untargeted) :
    s.Orderly propagate untargeted := by
  refine ⟨detached.composed, fun r code _ => ?_, detached.anywhere⟩
  have inactive := detached.inactive
  rw [code, Option.filter_some] at inactive
  simpa using inactive

theorem Orderly.shutdown (orderly : s.Orderly propagate untargeted)
    (rooted : s.held.Rooted latest) :
    s.shutdown.Unmanned ∧ s.shutdown.Detached propagate untargeted := by
  obtain ⟨composed, regular, anywhere⟩ := orderly
  have retired := retired_shutdown composed rooted regular
  obtain ⟨types, warnings, done, -⟩ := composed.shutdown_eq rooted
  have same := congrArg (·.engine.hooks.untargeted) done
  have nobody := retired.toUnstaffed.nobody
  exact ⟨⟨retired.counts, fun k knows => knows.elim (nobody k).1 (nobody k).2⟩,
    (composed.shutdown rooted).1, retired.closed, retired.unfollowing, retired.unsubscribed,
    retired.inactive, same.trans anywhere⟩

theorem stable_detached : Stable (Detached propagate untargeted) where
  congr s s' host engine detached := by
    obtain ⟨unmoved, coherent⟩ := detached.composed.coherent.of_hosted host engine
    exact detached.of_backdrop unmoved.backdrop coherent
  define typeName methods s detached := by
    refine Or.inl ⟨?_, detached.of_composed (detached.composed.define typeName _) rfl⟩
    rw [detached.composed.definitions, detached.unfollowing]
    rfl
  load path lines s detached := by
    refine Or.inl ⟨?_, detached.of_composed (detached.composed.load path lines) rfl⟩
    rw [detached.composed.compiles, detached.unsubscribed]
    rfl
  process documents s detached :=
    have passage := process_passage detached.composed.coherent documents
    detached.of_backdrop passage.backdrop passage.coherent
  turn k s detached :=
    detached.of_backdrop ⟨rfl, fun _ => rfl, rfl, rfl, rfl⟩ (detached.composed.takeTurn k).coherent
  told n s detached :=
    detached.of_backdrop (unmoved_tell n s).backdrop (detached.composed.tell n).coherent
  settled s detached :=
    detached.of_backdrop (unmoved_settleDelivery s).backdrop
      detached.composed.settleDelivery.coherent

/-! What a configuration comes to. -/

theorem Detached.receiving (detached : s.Detached propagate untargeted)
    (nobody : ∀ k, ¬ s.engine.probes.Knows k) : s.Receiving untargeted [] where
  coherent := detached.composed.coherent
  willing := detached.composed.willing
  inactive := detached.inactive
  anywhere := detached.anywhere
  members _ := ⟨nofun, fun ⟨k, _, knows⟩ => absurd knows (nobody k)⟩
  late := nofun

theorem Coherent.unhooked_of_nobody (coherent : Coherent [] s)
    (nobody : ∀ k, ¬ s.engine.probes.Knows k) (t : HookTarget) :
    s.engine.hooks.isInstalled t = false ∧ s.engine.hooks.isPending t = false := by
  rw [Bool.eq_false_iff, Bool.eq_false_iff, Ne, Ne, coherent.hooked_iff, coherent.waiting_iff]
  exact ⟨fun ⟨k, installs, _⟩ => nobody k (Or.inl installs),
    fun ⟨k, awaits, _⟩ => nobody k (Or.inr awaits)⟩

theorem Coherent.body?_of_nobody (coherent : Coherent [] s) (rooted : s.held.Rooted latest)
    (nobody : ∀ k, ¬ s.engine.probes.Knows k) (m : MethodName) :
    s.host.body? m = (latest m).map .program :=
  rooted.body?_of_free
    (Table.contains_eq_false_iff.mp (coherent.unhooked_of_nobody nobody (.method m)).1)

theorem Coherent.equipped (coherent : Coherent [] s) (rooted : s.held.Rooted latest)
    (nobody : ∀ k, ¬ s.engine.probes.Knows k) :
    s.Equipped (fun _ => True) (fun _ => False) := by
  intro t
  obtain ⟨free, idle⟩ := coherent.unhooked_of_nobody nobody t
  cases t with
  | method m =>
    have free : Table.get? m s.held.hooks.methods = none := Table.contains_eq_false_iff.mp free
    have idle : Table.get? m s.held.hooks.pendingMethods = none :=
      Table.contains_eq_false_iff.mp idle
    refine Hooking.Equipped.bare free idle (fun body found => ?_) _
    rw [rooted.body?_of_free free] at found
    obtain ⟨code, -, rfl⟩ := Option.map_eq_some_iff.mp found
    exact ⟨code, trivial, rfl⟩
  | line l =>
    have free : Table.get? l s.held.hooks.lines = none := Table.contains_eq_false_iff.mp free
    have idle : Table.get? l s.held.hooks.pendingLines = none :=
      Table.contains_eq_false_iff.mp idle
    exact Hooking.Lined.bare (coherent.anchored.tracesAt_eq_nil free) idle _

theorem Coherent.hooks_iff (coherent : Coherent [] s) (aware : Aware s) (t : HookTarget) :
    (s.engine.hooks.isInstalled t = true ↔
        (∃ k, s.engine.probes.Knows k ∧ k.At t) ∧ s.Grants t) ∧
      (s.engine.hooks.isPending t = true ↔
        (∃ k, s.engine.probes.Knows k ∧ k.At t) ∧ ¬ s.Grants t) := by
  rw [coherent.hooked_iff, coherent.waiting_iff]
  constructor
  · constructor
    · intro ⟨k, installs, here⟩
      exact ⟨⟨k, Or.inl installs, here⟩,
        (coherent.stands aware (Or.inl installs) here).1.mp installs⟩
    · intro ⟨⟨k, knows, here⟩, granted⟩
      exact ⟨k, (coherent.stands aware knows here).1.mpr granted, here⟩
  · constructor
    · intro ⟨k, awaits, here⟩
      exact ⟨⟨k, Or.inr awaits, here⟩, (coherent.stands aware (Or.inr awaits) here).2.mp awaits⟩
    · intro ⟨⟨k, knows, here⟩, declined⟩
      exact ⟨k, (coherent.stands aware knows here).2.mpr declined, here⟩

theorem Equipped.covers (equipped : s.Equipped (fun _ => True) fun _ => False)
    (rooted : s.held.Rooted latest) {m : MethodName}
    (installed : s.engine.hooks.isInstalled (.method m) = true) :
    ∃ i g code, latest m = some code ∧ s.host.body? m = some
      (.hooked s.engine.hooks.manager m i (.probes s.engine.hooks.manager g) (.program code)) := by
  obtain ⟨e, found⟩ := Table.contains_iff.mp installed
  have own : s.held.Equipped (fun _ => True) False m _ := equipped (.method m)
  obtain ⟨i, code, -, -, -, stands⟩ := own.hooked e found
  rcases stands with ⟨stale, -⟩ | ⟨-, g, -, laid⟩
  · cases stale
  · rcases rooted.bodies m with bare | ⟨code', defined, i', callback, -, laid'⟩
    · obtain ⟨_, -, other⟩ := Option.map_eq_some_iff.mp (bare.symm.trans laid)
      cases other
    · cases laid.symm.trans laid'
      exact ⟨i, g, code, defined, laid⟩

theorem Detached.relapsed (detached : s.Detached propagate untargeted)
    (rooted : s.held.Rooted latest) (nobody : ∀ k, ¬ s.engine.probes.Knows k)
    (documents : List Json) :
    (s.process documents).2.Relapsed (Probe.arrivals untargeted propagate [] documents) s.host := by
  have composed := detached.composed
  have unhooked := composed.coherent.unhooked_of_nobody nobody
  have passage := process_passage composed.coherent documents
  have aware := passage.aware fun t => by simp [unhooked t]
  have receiving := (detached.receiving nobody).process composed.propagates documents
  have rooted' := ((steady_chronicled propagate latest).process documents s ⟨composed, rooted⟩).2
  have equipped := (kept_equipped (D := fun _ _ => False) nofun nofun).process composed documents
    (composed.coherent.equipped rooted nobody)
  have before := composed.coherent.body?_of_nobody rooted nobody
  have sited : ∀ t, (∃ k, (s.process documents).2.engine.probes.Knows k ∧ k.At t) ↔
      ∃ p ∈ Probe.arrivals untargeted propagate [] documents, p.target = .ok (some t) := by
    intro t
    constructor
    · intro ⟨k, knows, here⟩
      exact ⟨k.probe, (receiving.members _).mpr ⟨k, rfl, knows⟩, here⟩
    · intro ⟨p, member, here⟩
      obtain ⟨k, rfl, knows⟩ := (receiving.members p).mp member
      exact ⟨k, knows, here⟩
  have offered : ∀ t, (∃ p ∈ Probe.arrivals untargeted propagate [] documents,
      p.target = .ok (some t)) → ((s.process documents).2.Grants t ↔ s.host.Offers t) := by
    intro t ⟨p, member, here⟩
    cases t with
    | method m =>
      rw [receiving.grants_method_iff, passage.backdrop.defined]
      rfl
    | line l =>
      obtain ⟨t, late⟩ := receiving.late p member
      rw [receiving.grants_line_iff]
      exact iff_of_true (Probe.untargeted_of_lateTarget here late) trivial
  have still := stable_detached.process documents s detached
  constructor
  case closed => exact still.closed
  case unfollowing => exact still.unfollowing
  case known => exact receiving.members
  case installed =>
    intro t
    rw [(receiving.coherent.hooks_iff aware t).1, sited]
    exact and_congr_right fun here => offered t here
  case pending =>
    intro t
    rw [(receiving.coherent.hooks_iff aware t).2, sited]
    exact and_congr_right fun here => not_congr (offered t here)
  case spared =>
    intro m free
    rw [before]
    exact rooted'.body?_of_free (Table.contains_eq_false_iff.mp free)
  case hooked =>
    intro m installed
    obtain ⟨i, g, code, defined, laid⟩ := equipped.covers rooted' installed
    exact ⟨i, g, code, (before m).trans (congrArg _ defined), laid⟩

end Setup

namespace World

variable {w : World} {propagate untargeted : Bool}

theorem Hosts.stopped (hosts : w.Hosts (Setup.Orderly propagate untargeted))
    (recorded : ∃ latest, Chronicle latest w) :
    (w.shutDown 0).Hosts fun s => s.Unmanned ∧ s.Detached propagate untargeted := by
  obtain ⟨latest, chronicle⟩ := recorded
  obtain ⟨_, chronicled⟩ := hosts.chronicled chronicle
  exact chronicled.inFirst (f := fun s => ((), s.shutdown))
    fun s ⟨orderly, _, rooted⟩ => orderly.shutdown rooted

theorem Hosts.aftermath (fuel : Nat) (rounds : List (List Event)) :
    ∀ {w : World}, (∃ latest, Chronicle latest w) →
      w.Hosts (Setup.Orderly propagate untargeted) →
        (w.aftermath fuel rounds).Hosts (Setup.Orderly propagate untargeted) := by
  induction rounds with
  | nil => exact fun _ hosts => hosts
  | cons events rest ih =>
    intro w recorded hosts
    have detached := (hosts.stopped recorded).mono fun _ both => both.2
    have after := (lasting_hosts Setup.stable_detached).after fuel events detached
    exact ih (chronicle_aftermath fuel [events] recorded) (after.mono fun _ s => s.orderly)

/-- However often an engine has been shut down, it knows no probe and has no hook then. A
configuration that is handed over after that, before any other, brings just the probes that it
would bring at all, with their hooks; all is left as it was if these are none. -/
theorem history_relapse (fuel fuel' : Nat) (settings : Settings) (origin : Origin)
    (before later : List Event) (rounds : List (List Event)) (w : World) :
    let running := w.history fuel settings origin before later
    let stopped := (running.aftermath fuel' rounds).shutDown 0
    stopped.Hosts Setup.Unmanned ∧ ∀ events,
      let ended := stopped.after fuel' events
      ended.Hosts Setup.Unmanned → ∀ documents,
        let probes := Probe.arrivals settings.untargetedTracing settings.propagate [] documents
        let w' := (ended.inSetup 0 (·.process documents)).2
        w'.Hosts (Setup.Relapsed probes ended.host) ∧
          (w'.Hosts (Setup.Unaltered ended.host) ↔ probes = []) ∧
          (settings.untargetedTracing = false →
            (∀ document ∈ documents, ∀ p, Probe.ofDocument document = .ok p →
              ∀ m, p.location ≠ .method m) →
            w'.Hosts (Setup.Unaltered ended.host)) := by
  intro running stopped
  have recorded := chronicle_history fuel settings origin before later w
  have orderly := (history_attuned fuel settings origin before later w).mono
    fun _ attuned => attuned.orderly
  have recorded' := chronicle_aftermath fuel' rounds recorded
  have done := (orderly.aftermath fuel' rounds recorded).stopped recorded'
  refine ⟨done.mono fun _ both => both.1, ?_⟩
  intro events ended unmanned documents probes w'
  have detached := (lasting_hosts Setup.stable_detached).after fuel' events
    (done.mono fun _ both => both.2)
  obtain ⟨latest, chronicle⟩ := chronicle_aftermath fuel' [events] recorded'
  obtain ⟨_, e, only, both, _, rooted⟩ := (unmanned.and detached).chronicled chronicle
  have ready : ended.Hosts fun s => s.host = ended.host ∧
      (s.Unmanned ∧ s.Detached _ _) ∧ s.held.Rooted latest := ⟨e, only, rfl, both, rooted⟩
  have relapsed : w'.Hosts (Setup.Relapsed probes ended.host) := by
    refine ready.inFirst (f := (·.process documents))
      fun s ⟨host, ⟨unmanned, detached⟩, rooted⟩ => ?_
    rw [← host]
    exact detached.relapsed rooted unmanned.2 documents
  have unaltered : w'.Hosts (Setup.Unaltered ended.host) ↔ probes = [] := by
    constructor
    · intro same
      obtain ⟨e', -, relapsed, same⟩ := relapsed.and same
      exact relapsed.unaltered_iff.mp same
    · exact fun none => relapsed.mono fun s relapsed => relapsed.unaltered_iff.mpr none
  refine ⟨relapsed, unaltered, fun targeted plain => unaltered.mpr ?_⟩
  show Probe.arrivals settings.untargetedTracing settings.propagate [] documents = []
  rw [targeted]
  exact Probe.arrivals_eq_nil plain

open Sample in
/-- A method that is probed when the engine has been shut down is hooked. -/
theorem history_relapsed :
    let stopped := (run [defining [.ret (.integer 1)]]).shutDown 0
    let w := stopped.after 1 [probing false]
    stopped.engines.map (·.hooks.counts) = [(0, 0)] ∧ installed stopped = [none] ∧
      (stopped.host.body? method).map returns = some true ∧
      w.engines.map (·.hooks.counts) = [(1, 0)] ∧ installed w = [some (probe false)] ∧
      (w.host.body? method).map returns = some false := by
  decide +kernel

end World
end LiveProbe
