import LiveProbe.Proofs.Engine.Launch
import LiveProbe.Proofs.Traffic.Locked
import LiveProbe.Proofs.Traffic.Rest
import LiveProbe.Proofs.Traffic.Solo

/-!
What is true of an engine when all threads are done. Main statements: a hook waits for exactly the
targets of pending probes, and only where it would not be granted; a hook is installed for exactly
the targets of installed probes, and for those astray: a hook that an event installs while the last
probe that waited for it is removed stays behind.
-/
namespace LiveProbe

theorem Probes.Keyed.exists_of_perm {table order : List (String × KnownProbe)}
    (keyed : Probes.Keyed table) {named : List String}
    (perm : order.Perm (Probes.others named table)) :
    ∃ ks : List KnownProbe, order = ks.map Probes.entry ∧ ks.Nodup ∧
      ∀ k ∈ ks, Probes.Lists table k := by
  have probes : (order.map (·.2)).Perm (Probes.unnamed named table) := perm.map _
  refine ⟨order.map (·.2), ?_, probes.nodup_iff.mpr (keyed.nodup_unnamed named), fun k member => ?_⟩
  · rw [List.map_map]
    refine (List.map_id _).symm.trans (List.map_congr_left fun e member => ?_)
    rw [perm.mem_iff, keyed.others_eq] at member
    obtain ⟨k, -, rfl⟩ := List.mem_map.mp member
    rfl
  · exact ((keyed.mem_unnamed named).mp (probes.mem_iff.mp member)).1

namespace Traffic

variable {s s' : Traffic}

theorem Orderly.step (order : Orderly s) (step : Step Job.Manages s s') : Follows s s' := by
  cases step with
  | begins allowed => exact order.begins allowed
  | runs ready part =>
    cases part with
    | define => exact order.define ready
    | load => exact order.load ready
    | register known => exact order.register ready known
    | announce => exact order.announce ready
    | install perm => exact order.install ready perm
    | notified => exact order.notified ready
  | locks ready free part =>
    cases part with
    | notify => exact order.notify ready free
    | misplaced | idle =>
      exact order.proceed ready free (fun _ => id) (fun _ => id) (fun _ _ _ same => by cases same)
        fun _ same => by cases same
    | joins there => exact order.join ready free there
    | founds alone =>
      refine order.proceed ready free (fun _ => id) (fun _ => id)
        (fun _ _ _ same => by cases same) fun hold same => ?_
      cases same
      exact Probes.admission_eq_founds alone
    | keep perm =>
      refine order.proceed ready free (fun _ => id) (fun _ => id)
        (fun _ _ _ same => by cases same) fun hold same => ?_
      cases same
      exact order.ordered.pending.exists_of_perm perm
    | close =>
      have closing : Job.close ∈ s.jobs := by
        rw [ready]
        exact Multiset.mem_cons_self _ _
      exact absurd closing order.unclosed
  | holds held part =>
    cases part with
    | refused answer => exact order.declined held answer
    | requested answer => exact order.requested held answer
    | enter => exact order.enter held
    | dropPending => exact order.dropPending held
    | turn perm =>
      refine order.turn held (fun _ _ _ same => by cases same) (fun _ _ _ same => by cases same)
        (fun hold same => ?_) rfl
      cases same
      exact order.ordered.installed.exists_of_perm perm
    | dropInstalled => exact order.dropInstalled held
    | kept =>
      exact order.turn held (fun _ _ _ same => by cases same) (fun _ _ _ same => by cases same)
        (fun _ same => by cases same) rfl
    | clearHooks | clearPending | clearProbes => exact (order.sensible _ held).elim

theorem Orderly.reaches (order : Orderly s) (run : Reaches Job.Manages s s') : Follows s s' := by
  induction run with
  | refl => exact ⟨order, fun _ => id⟩
  | tail _ step ih =>
    have last := ih.order.step step
    exact ⟨last.order, fun t granted => last.granted t (ih.granted t granted)⟩

theorem Step.mono {opens opens' : Job → Prop} (wider : ∀ job, opens job → opens' job)
    (step : Step opens s s') : Step opens' s s' := by
  cases step with
  | begins allowed => exact .begins (wider _ allowed)
  | runs ready part => exact .runs ready part
  | locks ready free part => exact .locks ready free part
  | holds held part => exact .holds held part

theorem Orderly.rests (order : Orderly s) : Rests s := by
  have ends := acc_proceeds s
  induction ends with
  | intro s _ ih =>
    rcases order.quiet_or_proceeds with done | able
    · exact .quiet done
    · exact .proceeds able fun s' step =>
        ih s' step (order.step (step.mono fun _ => False.elim)).order

/-! What is true when all threads are done. -/

section Quiet

variable (order : Orderly s) (quiet : s.Quiet) (t : HookTarget)
include order quiet

theorem Orderly.waits_iff : s.Waits t ↔ s.setup.engine.probes.PendingAt t := by
  have balanced := order.balanced t
  rw [← (unentered_of_free quiet.1).awaited_iff]
  refine ⟨balanced.waits, fun awaited => (balanced.awaited awaited).resolve_right ?_⟩
  rintro ⟨-, job, member, -⟩
  rw [quiet.2] at member
  exact absurd member (Multiset.notMem_zero job)

theorem Orderly.hooked_iff :
    s.Hooked t ↔ s.setup.engine.probes.InstalledAt t ∨ s.astray t := by
  have balanced := order.balanced t
  have staffed := (unentered_of_free quiet.1).staffed_iff t
  constructor
  · intro hooked
    rcases balanced.hooked hooked with installed | ⟨-, job, member, -⟩ | lost
    · exact Or.inl (staffed.mp installed)
    · rw [quiet.2] at member
      exact absurd member (Multiset.notMem_zero job)
    · exact Or.inr lost
  · exact fun h => h.elim (fun installed => balanced.staffed (staffed.mpr installed))
      fun lost => (balanced.astray lost).1

theorem Orderly.not_granted_of_waits (waits : s.Waits t) : ¬ s.setup.Grants t := by
  intro granted
  obtain ⟨job, member, -⟩ := (order.balanced t).heralded waits granted
  rw [quiet.2] at member
  exact absurd member (Multiset.notMem_zero job)

end Quiet

/-- Every known probe has the hook that its state asks for, and one state. -/
structure Placed (s : Traffic) : Prop where
  installed : ∀ k, s.setup.engine.probes.Installs k → ∃ t, k.At t ∧ s.Hooked t
  pending : ∀ k, s.setup.engine.probes.Awaits k → ∃ t, k.At t ∧ s.Waits t
  apart : ∀ id, s.setup.engine.probes.isInstalled id = true →
    s.setup.engine.probes.isPending id = false

theorem Orderly.placed (order : Orderly s) (quiet : s.Quiet) : s.Placed := by
  have grouped := order.ordered.toGrouped
  refine ⟨fun k installs => ?_, fun k awaits => ?_, grouped.apart⟩
  · obtain ⟨t, -, here, -⟩ := grouped.placed k (Or.inl installs)
    exact ⟨t, here, (order.hooked_iff quiet t).mpr (Or.inl ⟨k, installs, here⟩)⟩
  · obtain ⟨t, -, here, -⟩ := grouped.placed k (Or.inr awaits)
    exact ⟨t, here, (order.waits_iff quiet t).mpr ⟨k, awaits, here⟩⟩

theorem Orderly.installs_of_granted (order : Orderly s) (quiet : s.Quiet) {k : KnownProbe}
    {t : HookTarget} (here : k.At t) (granted : s.setup.Grants t)
    (known : s.setup.engine.probes.Knows k) : s.setup.engine.probes.Installs k := by
  refine known.resolve_right fun awaits => ?_
  exact order.not_granted_of_waits quiet t ((order.waits_iff quiet t).mpr ⟨k, awaits, here⟩) granted

/-! From the start on. -/

section Start

/-- The host has nothing traced, and lets hooks be removed. It may have types, units and observers
of its own, and need not let every hook be set. -/
structure Fresh (h : Host) : Prop where
  traces : h.traces = []
  accepting : Hooking.Accepting h

variable {h : Host} {settings : Settings} {origin : Origin} {journal : List Occurrence}
  {warnings : List Warning}

def started (settings : Settings) (origin : Origin) (h : Host) (journal : List Occurrence)
    (warnings : List Warning) : Traffic :=
  { setup := (Setup.unstarted settings origin h journal warnings).start }

theorem orderly_started (fresh : Fresh h) :
    Orderly (started settings origin h journal warnings) := by
  obtain ⟨r, tracked, active, unheard, -, catalogs⟩ :=
    Setup.track_unstarted_listed h settings origin journal warnings
  have anchored := Setup.anchored_unstarted settings origin journal warnings fresh.traces
  have idle := Setup.idle_unstarted (h := h) settings origin journal warnings
  unfold started Setup.start
  rw [tracked]
  refine ⟨{ anchored with bounded := fun t member => ?_ }, Probes.ordered_empty _,
    ⟨rfl, rfl, fresh.accepting, ?_, ?_, r.addListener .hooks, rfl, active, ?_, fun e member => ?_⟩,
    nofun, nofun, nofun, fun t => ?_⟩
  · exact (anchored.bounded t member).trans (Nat.le_add_right h.lastId 2)
  · exact ⟨_, List.mem_append_right _ List.mem_cons_self⟩
  · exact ⟨_, List.mem_append_right _ List.mem_cons_self⟩
  · exact List.mem_append_right _ List.mem_cons_self
  · exact Host.mem_allUnits_of_mem_loadedUnits (catalogs.listed e member).1
  · have unhooked := Bool.eq_false_iff.mp (idle t).1
    have waitless := Bool.eq_false_iff.mp (idle t).2
    have unstaffed := Probes.not_installedAt_empty { clock := origin.clock } t
    have unawaited := Probes.not_pendingAt_empty { clock := origin.clock } t
    constructor
    case staffed => exact fun h => absurd (h.resolve_right nofun) unstaffed
    case awaited => exact fun h => absurd (h.resolve_right nofun) unawaited
    case waits => exact fun h => absurd h waitless
    case hooked => exact fun h => absurd h unhooked
    case uniform => exact fun h => absurd (h.resolve_right nofun) unstaffed
    case apart => exact fun h => absurd h unhooked
    case astray => nofun
    case granted => exact fun h => absurd h unhooked
    case landed => nofun
    case heralded => exact fun h => absurd h waitless

/-- Whatever the threads have done, when all are done hooks wait for the targets of pending probes,
and are installed for those of installed ones. A hook without any known probe is one that was
installed while the last probe that waited for it was removed. -/
theorem reached_accounted (fresh : Fresh h)
    (run : Reaches Job.Manages (started settings origin h journal warnings) s) (quiet : s.Quiet)
    (t : HookTarget) :
    (s.Waits t ↔ s.setup.engine.probes.PendingAt t) ∧
      (s.Hooked t ↔ s.setup.engine.probes.InstalledAt t ∨ s.astray t) ∧
      (s.astray t → ¬ s.setup.engine.probes.InstalledAt t ∧
        ¬ s.setup.engine.probes.PendingAt t) := by
  have order := ((orderly_started fresh).reaches run).order
  have unentered := unentered_of_free quiet.1
  refine ⟨order.waits_iff quiet t, order.hooked_iff quiet t, fun lost => ?_⟩
  rw [← unentered.staffed_iff, ← unentered.awaited_iff]
  exact ((order.balanced t).astray lost).2

/-- Whatever the threads have done, all will be done, and then every known probe has the hook that
its state asks for; one whose target was granted at any time is installed by then. -/
theorem reached_placed (fresh : Fresh h)
    (run : Reaches Job.Manages (started settings origin h journal warnings) s) :
    Rests s ∧ (s.Quiet → s.Placed) ∧
      ∀ s', Reaches Job.Manages s s' → s'.Quiet → ∀ k t, k.At t → s.setup.Grants t →
        s'.setup.engine.probes.Knows k → s'.setup.engine.probes.Installs k := by
  have order := ((orderly_started fresh).reaches run).order
  refine ⟨order.rests, order.placed, fun s' later quiet k t here granted known => ?_⟩
  have follows := order.reaches later
  exact follows.order.installs_of_granted quiet here (follows.granted t granted) known

end Start

namespace Sample

def method : MethodName := ⟨"T", "m"⟩

def target : HookTarget := .method method

def arrival : Arrival := .type method.typeName

def probe : Probe := { id := "p", kind := "LOG_PROBE", location := .method method }

def origin : Origin := { runtimeId := "r", snapshotId := "s", threadId := "t" }

def start : Traffic := started { service := "svc" } origin {} [] []

def define (s : Setup) : Setup :=
  { s with host := s.host.define method.typeName [(method.name, .program [])] }

def install (s : Setup) : List HookTarget × Setup :=
  s.hooking (Hooking.retryAll s.engine.code (arrival.waiting s.engine.hooks))

def pending : Setup := (start.setup.addProbe probe).2

def asked : Setup := (start.setup.requestHook target).2

def overtaken : Setup := ((install (define pending)).2.keepProbes []).2

theorem fresh : Fresh {} := ⟨rfl, fun _ => ⟨rfl, rfl⟩⟩

section Install

variable {setup : Setup} {holder : Option Hold} {jobs : Multiset Job} {astray : HookTarget → Prop}
  (follows : (setup.host.definitionObservers.filter fun o =>
    o.2 = .engine setup.engine.number).length = 1)
  (opened : setup.engine.hooks.closed = false)
include follows opened

theorem reaches_opened {opens : Job → Prop}
    (run : Reaches opens start ⟨setup, holder, jobs, astray⟩)
    (allowed : opens (.define method.typeName [(method.name, .program [])])) :
    Reaches opens start ⟨define setup, holder, .install arrival ::ₘ jobs, astray⟩ := by
  have announced : Reaches opens start
      ⟨define setup, holder, .announce arrival ::ₘ jobs, astray⟩ := by
    have subscribed : setup.subscribed setup.host.definitionObservers (.announce arrival) =
        {.announce arrival} := by
      rw [Setup.subscribed, List.map_const', follows]
      rfl
    rw [← Multiset.singleton_add, ← subscribed]
    exact (run.tail (.begins allowed)).tail (.runs rfl .define)
  have opening : Job.Runs (define setup) (.announce arrival) (define setup)
      {.install arrival} := by
    have part : Job.Runs (define setup) (.announce arrival) (define setup) _ := .announce
    rwa [show (define setup).engine.hooks.closed = false from opened] at part
  rw [← Multiset.singleton_add]
  exact announced.tail (.runs rfl opening)

theorem reaches_install (run : Reaches Job.Manages start ⟨setup, holder, jobs, astray⟩) :
    Reaches Job.Manages start ⟨(install (define setup)).2, holder,
      {.notify (install (define setup)).1} + jobs, astray⟩ :=
  (reaches_opened follows opened run trivial).tail (.runs rfl (.install (List.Perm.refl _)))

end Install

theorem reaches_overtaken : ∃ astray, Reaches Job.Manages start
    { setup := overtaken.hookInstalled target, astray } := by
  have told : (install (define pending)).1 = [target] := by decide +kernel
  obtain ⟨none, added⟩ : ∃ astray, Reaches Job.Manages start { setup := pending, astray } :=
    (completes_add rfl probe).reaches .refl trivial
  have installed := reaches_install (by decide +kernel) (by decide +kernel) added
  rw [told] at installed
  obtain ⟨lost, removed⟩ : ∃ astray, Reaches Job.Manages start
      { setup := overtaken, jobs := {.notify [target]}, astray } :=
    (completes_keep rfl []).reaches installed trivial
  obtain ⟨astray, rest⟩ :=
    completes_notify [target] (s := { setup := overtaken, astray := lost }) rfl
  exact ⟨astray, removed.trans rest⟩

theorem hooked_overtaken : (overtaken.hookInstalled target).engine.hooks.isInstalled target = true ∧
    (overtaken.hookInstalled target).engine.probes.installed = [] ∧
    (overtaken.hookInstalled target).engine.probes.pending = [] := by decide +kernel

theorem reaches_meanwhile : ∃ astray, Reaches Job.Manages start {
    setup := (install (define asked)).2
    holder := some (.enter probe target false)
    jobs := {.notify [target]}
    astray } := by
  have told : (install (define asked)).1 = [target] := by decide +kernel
  have alone : start.setup.engine.probes.admission probe = .ok (.founds target) := by
    decide +kernel
  have answer : (start.setup.requestHook target).1 = .ok false := by decide +kernel
  let begun : Traffic := { start with jobs := {.add probe} }
  let founded : Traffic := { start with holder := some (.request probe target) }
  have ready : begun.jobs = .add probe ::ₘ 0 := rfl
  have run : Reaches Job.Manages start founded :=
    (Relation.ReflTransGen.single (b := begun) (.begins trivial)).tail
      (.locks ready rfl (.founds alone))
  have answered : Reaches Job.Manages start {
      setup := asked
      holder := some (.enter probe target false)
      astray := founded.strayed (.request probe target) } :=
    run.tail (.holds rfl (.requested answer))
  have installed := reaches_install (by decide +kernel) (by decide +kernel) answered
  rw [told] at installed
  exact ⟨_, installed⟩

end Sample

open Sample in
/-- The sequence of events of a removal that comes between an installation and the promotion. -/
theorem reached_accounted_overtaken :
    Fresh {} ∧ ∃ s, Reaches Job.Manages start s ∧ s.Quiet ∧ s.Hooked target ∧ s.astray target ∧
      ¬ s.Waits target := by
  obtain ⟨astray, run⟩ := reaches_overtaken
  obtain ⟨hooked, installed, pending⟩ := hooked_overtaken
  obtain ⟨waits, occupied, -⟩ := reached_accounted fresh run ⟨rfl, rfl⟩ target
  refine ⟨fresh, _, run, ⟨rfl, rfl⟩, hooked, (occupied.mp hooked).resolve_left ?_,
    fun h => ?_⟩
  · rintro ⟨k, installs, -⟩
    rw [Probes.Installs, installed] at installs
    cases installs
  · obtain ⟨k, awaits, -⟩ := waits.mp h
    rw [Probes.Awaits, pending] at awaits
    cases awaits

open Sample in
/-- A hook may be installed though no probe is known, when nobody is in the middle of anything. -/
theorem reached_hook_astray :
    ∃ s, Reaches Job.Manages start s ∧ s.Quiet ∧ s.Hooked target ∧
      ∀ k, ¬ s.setup.engine.probes.Knows k := by
  obtain ⟨astray, run⟩ := reaches_overtaken
  obtain ⟨hooked, installed, pending⟩ := hooked_overtaken
  refine ⟨_, run, ⟨rfl, rfl⟩, hooked, ?_⟩
  rintro k (installs | awaits)
  · rw [Probes.Installs, installed] at installs
    cases installs
  · rw [Probes.Awaits, pending] at awaits
    cases awaits

open Sample in
theorem reached_placed_meanwhile :
    Fresh {} ∧ ∃ s s', Reaches Job.Manages start s ∧
      s.holder = some (.enter probe target false) ∧ s.setup.Grants target ∧
      Reaches Job.Manages s s' ∧ s'.Quiet ∧ s'.Placed ∧
      s'.setup.engine.probes.Installs ⟨probe, 1⟩ := by
  obtain ⟨astray, run⟩ := reaches_meanwhile
  let s : Traffic := {
    setup := (install (define asked)).2
    holder := some (.enter probe target false)
    jobs := {.notify [target]}
    astray }
  let entered := s.setup.enterFirst target probe false
  obtain ⟨astray', rest⟩ : ∃ astray', Reaches Job.Manages s
      { setup := entered.hookInstalled target, astray := astray' } := by
    obtain ⟨astray', rest⟩ := completes_notify [target] (s := { setup := entered, astray }) rfl
    exact ⟨astray', .head (.holds rfl .enter) rest⟩
  have granted : (install (define asked)).2.Grants target :=
    ⟨by decide +kernel, by decide +kernel⟩
  have known : (((install (define asked)).2.enterFirst target probe false).hookInstalled
      target).engine.probes.Knows ⟨probe, 1⟩ := by
    refine Or.inl ?_
    show Table.get? "p" _ = some _
    decide +kernel
  obtain ⟨-, -, installs⟩ := reached_placed fresh run
  obtain ⟨-, placed, -⟩ := reached_placed fresh (run.trans rest)
  exact ⟨fresh, s, _, run, rfl, granted, rest, ⟨rfl, rfl⟩, placed ⟨rfl, rfl⟩,
    installs _ rest ⟨rfl, rfl⟩ ⟨probe, 1⟩ target rfl granted known⟩

end Traffic
end LiveProbe
