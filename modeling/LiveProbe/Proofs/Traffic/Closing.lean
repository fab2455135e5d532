import LiveProbe.Proofs.Traffic.Crowd
import LiveProbe.Proofs.Traffic.Settling

/-!
Closing an engine while the host tells of types and files and calls are in progress. Nothing waits
and no probe is known when the closing is over; what is not over then is told below: a hook that was
about to be installed when the engine was closed, and what calls in progress have found before.
-/
namespace LiveProbe

/-- What the host goes on with: it makes types and files known. -/
def Job.Arises : Job → Prop
  | .define _ bodies => ∀ e ∈ bodies, e.2.Regular 0
  | .load _ _ => True
  | _ => False

/-- A thread defines or loads something, or follows what the host has told. -/
def Job.Listens : Job → Prop
  | .add _ | .keep _ | .close => False
  | _ => True

theorem Job.Arises.listens {job : Job} (arises : job.Arises) : job.Listens := by
  cases job <;> trivial

theorem Job.Arises.regular {job : Job} (arises : job.Arises) : job.Regular 0 := by
  cases job <;> first | exact arises | trivial

theorem Job.Runs.listens_next {s s' : Setup} {job other : Job} {next : Multiset Job}
    (part : job.Runs s s' next) (member : other ∈ next) : other.Listens := by
  rcases part.next_cases member with ⟨_, rfl⟩ | ⟨_, rfl⟩ | ⟨_, rfl, -⟩ | ⟨_, rfl⟩ <;> trivial

theorem Setup.hookInstalled_cases {s : Setup} (vacant : s.engine.probes.pending = [])
    (target : HookTarget) :
    s.hookInstalled target = s ∨ s.hookInstalled target = s.note (.installed target) := by
  have nobody : s.promoteAt target = s := by
    unfold promoteAt Probes.waitingAt
    rw [vacant]
    rfl
  unfold hookInstalled
  split
  · exact Or.inl nobody
  · exact Or.inr rfl
  · exact Or.inl rfl

namespace Traffic

variable {s s' : Traffic} {t : HookTarget}

def closing (s : Traffic) : Traffic :=
  { s with
    setup := (s.setup.hooking fun k => ((), k.stopFollowing)).2
    holder := some .clearHooks }

theorem reaches_closing {opens : Job → Prop} (allowed : opens .close) (free : s.holder = none) :
    Reaches opens s s.closing := by
  have begun : Reaches opens s { s with jobs := .close ::ₘ s.jobs } := .single (.begins allowed)
  have locked := begun.tail (.locks rfl free .close)
  rwa [Multiset.zero_add] at locked

/-- A hook waits for an arrival whose thread has found the engine open. -/
def Owed (s : Traffic) (t : HookTarget) : Prop :=
  ∃ arrival, .install arrival ∈ s.jobs ∧ arrival.covers t ∧ s.Waits t

/-- How far the closing has come that began in a state; the thread that has the lock closes, or has
closed, the engine. -/
structure Closing (s₀ s : Traffic) : Prop where
  closed : s.setup.engine.hooks.closed = true
  listens : ∀ job ∈ s.jobs, job.Listens
  installs : ∀ arrival, .install arrival ∈ s.jobs → .install arrival ∈ s₀.jobs
  waits : ∀ t, s.Waits t → s₀.Waits t
  holder : s.holder ∈ [some .clearHooks, some .clearPending, some .clearProbes, none]
  hooked : s.holder ≠ some .clearHooks → ∀ t, s.Hooked t → s₀.Owed t
  idle : s.holder = some .clearProbes ∨ s.holder = none → ∀ t, ¬ s.Waits t
  vacant : s.holder = none →
    s.setup.engine.probes.installed = [] ∧ s.setup.engine.probes.pending = []

theorem closing_closing (listens : ∀ job ∈ s.jobs, job.Listens) : Closing s s.closing where
  closed := rfl
  listens := listens
  installs _ := id
  waits t waits := by cases t <;> exact waits
  holder := List.mem_cons_self
  hooked ne := absurd rfl ne
  idle done := by rcases done with same | same <;> cases same
  vacant done := by cases done

theorem Closing.while {s₀ : Traffic} (closing : Closing s₀ s) (holder : s'.holder = s.holder)
    (closed : s'.setup.engine.hooks.closed = s.setup.engine.hooks.closed)
    (listens : ∀ job ∈ s'.jobs, job.Listens)
    (installs : ∀ arrival, .install arrival ∈ s'.jobs → .install arrival ∈ s.jobs)
    (waits : ∀ t, s'.Waits t → s.Waits t)
    (hooked : ∀ t, s'.Hooked t → s.Hooked t ∨ s₀.Owed t)
    (installed : s'.setup.engine.probes.installed = s.setup.engine.probes.installed)
    (pending : s'.setup.engine.probes.pending = s.setup.engine.probes.pending) :
    Closing s₀ s' where
  closed := closed.trans closing.closed
  listens := listens
  installs arrival member := closing.installs arrival (installs arrival member)
  waits t h := closing.waits t (waits t h)
  holder := holder ▸ closing.holder
  hooked ne t h := (hooked t h).elim (closing.hooked (holder ▸ ne) t) id
  idle done t h := closing.idle (holder ▸ done) t (waits t h)
  vacant done := by
    rw [installed, pending]
    exact closing.vacant (holder ▸ done)

/-! What one section makes of a closing. -/

section Steps

variable {s₀ : Traffic} {setup : Setup} {job : Job} {others next : Multiset Job}

theorem Closing.runs (closing : Closing s₀ s) (ready : s.jobs = job ::ₘ others)
    (part : job.Runs s.setup setup next) :
    Closing s₀ { s with setup, jobs := next + others } := by
  have mem : ∀ {other}, other ∈ next + others → other ∈ next ∨ other ∈ s.jobs :=
    fun member => (Multiset.mem_add.mp member).imp_right (mem_of_ready ready)
  have listens : ∀ other ∈ next + others, other.Listens :=
    fun other member => (mem member).elim part.listens_next (closing.listens other)
  have installs : ∀ arrival, .install arrival ∈ next + others → .install arrival ∈ s.jobs := by
    intro arrival member
    refine (mem member).resolve_left fun anew => ?_
    rcases part.next_cases anew with ⟨_, same⟩ | ⟨_, same⟩ | ⟨_, same, opened⟩ | ⟨_, same⟩
    · cases same
    · cases same
    · rw [closing.closed] at opened
      cases opened
    · cases same
  cases part with
  | define | load | register | announce | notified =>
    exact closing.while rfl rfl listens installs (fun _ => id) (fun _ => Or.inl) rfl rfl
  | @install arrival order perm =>
    have touched := Hooking.retryAll_touched s.setup.engine.code order s.setup.held
    have now : .install arrival ∈ s.jobs := ready ▸ Multiset.mem_cons_self _ _
    refine closing.while rfl touched.closed listens installs touched.waits (fun t hooked => ?_)
      rfl rfl
    refine (touched.installed t hooked).imp_right fun tried => ?_
    obtain ⟨covers, waits⟩ := mem_waiting.mp ((perm.map (·.1)).mem_iff.mp tried)
    exact ⟨arrival, closing.installs arrival now, covers, closing.waits t waits⟩

theorem Closing.locks (closing : Closing s₀ s) (ready : s.jobs = job ::ₘ others)
    (free : s.holder = none) {holder : Option Hold} (part : job.Locks s.setup setup next holder) :
    Closing s₀ { s with setup, holder, jobs := next + others } := by
  have own : job.Listens := closing.listens job (ready ▸ Multiset.mem_cons_self _ _)
  cases part with
  | @notify target targets =>
    have mem : ∀ {other}, other ∈ ({.notify targets} : Multiset Job) + others →
        other = .notify targets ∨ other ∈ s.jobs :=
      fun member => (Multiset.mem_add.mp member).imp Multiset.mem_singleton.mp (mem_of_ready ready)
    have listens : ∀ other ∈ ({.notify targets} : Multiset Job) + others, other.Listens :=
      fun other member => (mem member).elim (fun same => same ▸ trivial) (closing.listens other)
    have installs : ∀ arrival, .install arrival ∈ ({.notify targets} : Multiset Job) + others →
        .install arrival ∈ s.jobs := fun arrival member => (mem member).resolve_left nofun
    rcases Setup.hookInstalled_cases (closing.vacant free).2 target with same | same
    all_goals
      rw [same]
      exact closing.while free.symm rfl listens installs (fun _ => id) (fun _ => Or.inl) rfl rfl
  | _ => exact own.elim

theorem Closing.holds (closing : Closing s₀ s) {hold : Hold} (held : s.holder = some hold)
    {holder : Option Hold} (part : hold.Runs s.setup setup holder) :
    Closing s₀ { s with setup, holder, astray := s.strayed hold } := by
  have stage := closing.holder
  rw [held] at stage
  cases part with
  | clearHooks =>
    have hooks := Hooking.hooks_clearHooks s.setup.held
    have same := fun {α : Type} (f : Hooks → α) => congrArg f hooks
    have unhooked : ∀ t, (s.setup.held.clearHooks).hooks.isInstalled t = false := by
      intro t
      rw [hooks]
      cases t <;> rfl
    refine {
      closed := (same (·.closed)).trans closing.closed
      listens := closing.listens
      installs := closing.installs
      waits := fun t waits => closing.waits t ?_
      holder := by simp
      hooked := fun _ t hooked => absurd hooked (Bool.eq_false_iff.mp (unhooked t))
      idle := fun done => by rcases done with done | done <;> cases done
      vacant := nofun }
    have before : s.setup.held.clearHooks.hooks.isPending t = true := waits
    rw [hooks] at before
    cases t <;> exact before
  | clearPending =>
    have idle : ∀ t, (s.setup.hooking fun k => ((), k.clearPending)).2.engine.hooks.isPending t =
        false := by
      intro t
      cases t <;> rfl
    exact {
      closed := closing.closed
      listens := closing.listens
      installs := closing.installs
      waits := fun t waits => absurd waits (Bool.eq_false_iff.mp (idle t))
      holder := by simp
      hooked := fun _ t hooked =>
        closing.hooked (by rw [held]; simp) t (by cases t <;> exact hooked)
      idle := fun _ t => Bool.eq_false_iff.mp (idle t)
      vacant := nofun }
  | clearProbes =>
    exact {
      closed := closing.closed
      listens := closing.listens
      installs := closing.installs
      waits := closing.waits
      holder := by simp
      hooked := fun _ => closing.hooked (by rw [held]; simp)
      idle := fun _ => closing.idle (Or.inl held)
      vacant := fun _ => ⟨rfl, rfl⟩ }
  | _ => simp at stage

theorem Closing.step (closing : Closing s₀ s) (step : Step Job.Arises s s') : Closing s₀ s' := by
  cases step with
  | begins allowed =>
    refine closing.while rfl rfl (Multiset.forall_mem_cons.mpr ⟨allowed.listens, closing.listens⟩)
      (fun arrival member => ?_) (fun _ => id) (fun _ => Or.inl) rfl rfl
    refine (Multiset.mem_cons.mp member).resolve_left fun same => ?_
    rw [← same] at allowed
    exact allowed
  | runs ready part => exact closing.runs ready part
  | locks ready free part => exact closing.locks ready free part
  | holds held part => exact closing.holds held part

end Steps

end Traffic
namespace Crowd

variable {s₁ s s' : Crowd} {s₀ : Traffic}

theorem closing_step (closing : Traffic.Closing s₀ s.traffic) (step : Step Job.Arises s s') :
    Traffic.Closing s₀ s'.traffic := by
  cases step with
  | threads part => exact closing.step part
  | calls | line => exact closing
  | goes ready part =>
    have reported := part.reported
    refine closing.while rfl (congrArg (·.closed) reported.hooks) closing.listens
      (fun _ => id) (fun t waits => ?_) (fun t hooked => Or.inl ?_) ?_ ?_
    · rwa [Traffic.Waits, reported.hooks] at waits
    · rwa [Traffic.Hooked, reported.hooks] at hooked
    · exact congrArg (·.installed) reported.probes
    · exact congrArg (·.pending) reported.probes

theorem closing_reaches (closing : Traffic.Closing s₀ s.traffic)
    (run : Reaches Job.Arises s s') : Traffic.Closing s₀ s'.traffic := by
  induction run with
  | refl => exact closing
  | tail _ step ih => exact closing_step ih step

/-- What may still act for the probes of a group. -/
inductive Sounds (s : Crowd) (g : Nat) : Prop
  | hooked {t : HookTarget} (left : s.traffic.Hooked t)
  | due {a : Activation} (underway : a ∈ s.activations) (found : .probes 0 g ∈ a.due)
  | traced {t : LineTrace} (left : t ∈ s.traffic.setup.host.traces)
      (acts : t.callback = .probes 0 g)

/-- What has happened since the closing was over: the hooks are what they were, and nothing has been
told but by what sounded then. -/
structure Fades (s₁ s : Crowd) : Prop where
  free : s.traffic.holder = none
  hooks : s.traffic.setup.engine.hooks = s₁.traffic.setup.engine.hooks
  traces : s.traffic.setup.host.traces = s₁.traffic.setup.host.traces
  members : ∀ g, s.traffic.setup.engine.probes.membersOf g =
    s₁.traffic.setup.engine.probes.membersOf g
  due : ∀ a ∈ s.activations, ∀ g, .probes 0 g ∈ a.due → s₁.Sounds g
  journal : ∃ told, s.traffic.setup.journal = s₁.traffic.setup.journal ++ told ∧
    ∀ n, .notice n ∈ told → ∃ g, s₁.Sounds g ∧
      ∃ k ∈ s₁.traffic.setup.engine.probes.membersOf g, n.probeId = k.probe.id

theorem fades_refl (free : s.traffic.holder = none) : Fades s s :=
  ⟨free, rfl, rfl, fun _ => rfl, fun _ member _ found => .due member found, [],
    (List.append_nil _).symm, fun _ told => absurd told List.not_mem_nil⟩

theorem Fades.quietly (fades : Fades s₁ s) (free : s'.traffic.holder = none)
    (hooks : s'.traffic.setup.engine.hooks = s.traffic.setup.engine.hooks)
    (traces : s'.traffic.setup.host.traces = s.traffic.setup.host.traces)
    (probes : s'.traffic.setup.engine.probes = s.traffic.setup.engine.probes)
    (activations : s'.activations = s.activations)
    (journal : ∃ told, s'.traffic.setup.journal = s.traffic.setup.journal ++ told ∧
      ∀ n, .notice n ∉ told) : Fades s₁ s' where
  free := free
  hooks := hooks.trans fades.hooks
  traces := traces.trans fades.traces
  members g := by rw [probes, fades.members]
  due := activations ▸ fades.due
  journal := by
    obtain ⟨told, before, sounded⟩ := fades.journal
    obtain ⟨told', later, silent⟩ := journal
    refine ⟨told ++ told', by rw [later, before, List.append_assoc], fun n member => ?_⟩
    exact sounded n ((List.mem_append.mp member).resolve_right (silent n))

theorem told_nothing (journal : List Occurrence) :
    ∃ told, journal = journal ++ told ∧ ∀ n, Occurrence.notice n ∉ told :=
  ⟨[], (List.append_nil _).symm, fun _ => List.not_mem_nil⟩

theorem Fades.thread (fades : Fades s₁ s) (closing : Traffic.Closing s₀ s.traffic)
    {traffic : Traffic} (part : Traffic.Step Job.Arises s.traffic traffic) :
    Fades s₁ { s with traffic } := by
  cases part with
  | begins => exact fades.quietly fades.free rfl rfl rfl rfl (told_nothing _)
  | runs ready part =>
    cases part with
    | define | load | register | announce | notified =>
      exact fades.quietly fades.free rfl rfl rfl rfl (told_nothing _)
    | @install arrival order perm =>
      have nobody : arrival.waiting s.traffic.setup.engine.hooks = [] := by
        refine List.eq_nil_iff_forall_not_mem.mpr fun e member => ?_
        have waiting := Traffic.mem_waiting.mp (List.mem_map_of_mem member)
        exact closing.idle (Or.inr fades.free) e.1 waiting.2
      rw [nobody] at perm
      cases perm.eq_nil
      exact fades.quietly fades.free rfl rfl rfl rfl (told_nothing _)
  | locks ready free part =>
    have own := closing.listens _ (ready ▸ Multiset.mem_cons_self _ _)
    cases part with
    | @notify target =>
      rcases Setup.hookInstalled_cases (closing.vacant free).2 target with same | same <;> rw [same]
      · exact fades.quietly rfl rfl rfl rfl rfl (told_nothing _)
      · exact fades.quietly rfl rfl rfl rfl rfl
          ⟨[.installed target], rfl, fun n member => by cases List.mem_singleton.mp member⟩
    | _ => exact own.elim
  | holds held => cases fades.free.symm.trans held

theorem Fades.found (fades : Fades s₁ s) (regular : Regular s) {a b : Activation}
    {next : Multiset Activation} {setup : Setup} (underway : a ∈ s.activations)
    (part : a.Runs s.traffic.setup setup next) (member : b ∈ next) {g : Nat}
    (later : .probes 0 g ∈ b.due) : s₁.Sounds g := by
  rcases part.due_next member later with before | ⟨manager, m, installation, saved, same, current⟩
  · exact fades.due a underway g before
  · have own := regular.activations a underway
    rw [same] at own
    obtain ⟨positive, acts, -⟩ := own
    cases acts g rfl
    have slot := current regular.number.symm
    refine .hooked (t := .method m) ?_
    rw [Traffic.Hooked, ← fades.hooks]
    refine Bool.of_not_eq_false fun free => ?_
    have zero := regular.layered.slot_of_free free
    exact absurd (zero.symm.trans slot) (Nat.ne_of_lt (positive rfl))

theorem Fades.step (fades : Fades s₁ s) (closing : Traffic.Closing s₀ s.traffic)
    (regular : Regular s) (step : Step Job.Arises s s') : Fades s₁ s' := by
  cases step with
  | threads part => exact fades.thread closing part
  | calls =>
    refine { fades with due := Multiset.forall_mem_cons.mpr ⟨fun g found => ?_, fades.due⟩ }
    cases found
  | @line path line =>
    refine { fades with due := Multiset.forall_mem_cons.mpr ⟨fun g found => ?_, fades.due⟩ }
    obtain ⟨t, concerned, acts⟩ := List.mem_map.mp found
    have left := Host.mem_traces_of_mem_tracesOf _ (List.mem_filter.mp concerned).1
    exact .traced (fades.traces ▸ left) acts
  | @goes a others next setup ready part =>
    have underway : a ∈ s.activations := ready ▸ Multiset.mem_cons_self _ _
    have reported := part.reported
    obtain ⟨told, before, sounded⟩ := fades.journal
    obtain ⟨told', later, named⟩ := reported.journal
    constructor
    case free => exact fades.free
    case hooks => exact reported.hooks.trans fades.hooks
    case traces => exact (congrArg (·.traces) reported.host).trans fades.traces
    case members =>
      intro g
      exact (congrArg (·.membersOf g) reported.probes).trans (fades.members g)
    case due =>
      intro b member g found
      rcases Multiset.mem_add.mp member with anew | old
      · exact fades.found regular underway part anew found
      · exact fades.due b (ready ▸ Multiset.mem_cons_of_mem old) g found
    case journal =>
      refine ⟨told ++ told', ?_, fun n member => ?_⟩
      · rw [← List.append_assoc, ← before]
        exact later
      · rcases List.mem_append.mp member with past | now
        · exact sounded n past
        · obtain ⟨g, acts, k, joined, same⟩ := named n now
          exact ⟨g, fades.due a underway g acts, k, fades.members g ▸ joined, same⟩

theorem Fades.reaches (free : s.traffic.holder = none) (closing : Traffic.Closing s₀ s.traffic)
    (regular : Regular s) (run : Reaches Job.Arises s s') : Fades s s' := by
  induction run with
  | refl => exact fades_refl free
  | tail before step ih =>
    have each := fun (job : Job) (arises : job.Arises) => arises.regular
    exact ih.step (closing_reaches closing before) (regular.reaches each before) step

/-! From the start on. -/

section Start

variable {h : Host} {settings : Settings} {origin : Origin} {journal : List Occurrence}
  {warnings : List Warning}

def begun (settings : Settings) (origin : Origin) (h : Host) (journal : List Occurrence)
    (warnings : List Warning) : Crowd :=
  { traffic := Traffic.started settings origin h journal warnings }

theorem regular_begun (regular : h.Regular 0) :
    Regular (begun settings origin h journal warnings) := by
  obtain ⟨r, tracked, -⟩ := Setup.track_unstarted_listed h settings origin journal warnings
  have none_hooked : (Setup.unstarted settings origin h journal warnings).held.Layered :=
    ⟨fun _ => rfl, regular, fun _ member => absurd member List.not_mem_nil⟩
  unfold begun Traffic.started Setup.start
  rw [tracked]
  exact ⟨rfl, none_hooked.congr (fun _ => rfl) rfl rfl rfl,
    fun _ member => absurd member (Multiset.notMem_zero _),
    fun _ member => absurd member (Multiset.notMem_zero _)⟩

def closing (s : Crowd) : Crowd := { s with traffic := s.traffic.closing }

/-- When an engine has been closed, no hook waits and no probe is known, whatever the host tells of
and calls meanwhile. A hook is left only if a thread was about to install it when the closing began;
and what is told from then on, it is told by a hook that is left, by a trace that the host did not
remove, or by what a call in progress had found before. -/
theorem reached_closed (regular : h.Regular 0)
    (run : Reaches (fun job => job.Manages ∧ job.Regular 0)
      (begun settings origin h journal warnings) s)
    (listens : ∀ job ∈ s.traffic.jobs, job.Listens)
    (later : Reaches Job.Arises s.closing s₁) (done : s₁.traffic.holder = none) :
    (∀ t, ¬ s₁.traffic.Waits t) ∧ (∀ k, ¬ s₁.traffic.setup.engine.probes.Knows k) ∧
      (∀ t, s₁.traffic.Hooked t → s.traffic.Owed t) ∧
      ∀ s₂, Reaches Job.Arises s₁ s₂ →
        s₂.traffic.setup.engine.hooks = s₁.traffic.setup.engine.hooks ∧
        ∃ told, s₂.traffic.setup.journal = s₁.traffic.setup.journal ++ told ∧
          ∀ n, .notice n ∈ told → ∃ g, s₁.Sounds g ∧
            ∃ k ∈ s₁.traffic.setup.engine.probes.membersOf g, n.probeId = k.probe.id := by
  have closing := closing_reaches (Traffic.closing_closing listens) later
  have regular₁ : Regular s₁ := by
    have before := (regular_begun regular).reaches (fun _ both => both.2) run
    have begins : Regular s.closing := by
      have relayered := Job.Locks.relayered (s := s.traffic.setup) .close
      exact ⟨relayered.manager.trans before.number, relayered.layered before.layered, before.jobs,
        before.activations⟩
    exact begins.reaches (fun _ arises => arises.regular) later
  obtain ⟨installed, pending⟩ := closing.vacant done
  refine ⟨closing.idle (Or.inr done), fun k known => ?_, closing.hooked (by rw [done]; simp),
    fun s₂ rest => ?_⟩
  · rcases known with installs | awaits
    · rw [Probes.Installs, installed] at installs
      cases installs
    · rw [Probes.Awaits, pending] at awaits
      cases awaits
  · have fades := Fades.reaches done closing regular₁ rest
    exact ⟨fades.hooks, fades.journal⟩

end Start

theorem reaches_threads {opens : Job → Prop} {traffic : Traffic}
    (run : Traffic.Reaches opens s.traffic traffic) : Reaches opens s { s with traffic } := by
  induction run with
  | refl => exact .refl
  | tail _ step ih => exact ih.tail (.threads step)

theorem step_alone {opens : Job → Prop} {a : Activation} {next : Multiset Activation}
    {setup : Setup} (alone : s.activations = {a}) (part : a.Runs s.traffic.setup setup next) :
    Step opens s { traffic := { s.traffic with setup }, activations := next } := by
  have step : Step opens s
      { traffic := { s.traffic with setup }, activations := next + 0 } := .goes alone part
  rwa [Multiset.add_zero] at step

namespace Sample
open Traffic.Sample

/-- What threads may set out to do as long as the engine is open. -/
abbrev Opens (job : Job) : Prop := job.Manages ∧ job.Regular 0

theorem regular_blank : ({} : Host).Regular 0 :=
  Host.Plain.regular (fun _ _ found => by cases found) 0

def arriving (setup : Setup) (astray : HookTarget → Prop) : Crowd :=
  { traffic := { setup := define setup, jobs := {.install arrival}, astray } }

def cleared (s : Setup) : Setup :=
  ((s.hooking fun k => ((), k.stopFollowing)).2.hooking fun k => ((), k.clearHooks)).2

def forgotten (s : Setup) : Setup :=
  (s.hooking fun k => ((), k.clearPending)).2.setProbes (·.clear)

def left (s : Setup) : Setup := forgotten (install (cleared (define s))).2

theorem reaches_arriving : ∃ astray,
    Reaches Opens (begun { service := "svc" } origin {} [] [])
      (arriving pending astray) := by
  obtain ⟨astray, added⟩ : ∃ astray, Traffic.Reaches Opens start { setup := pending, astray } :=
    (Traffic.completes_add rfl probe).reaches .refl ⟨trivial, trivial⟩
  have programs : Opens (.define method.typeName [(method.name, .program [])]) :=
    ⟨trivial, fun e member => by rw [List.mem_singleton.mp member]; trivial⟩
  exact ⟨astray, reaches_threads (reaches_opened (by decide +kernel) (by decide +kernel) added programs)⟩

theorem reaches_left (setup : Setup) (astray : HookTarget → Prop) :
    Reaches Job.Arises (arriving setup astray).closing { traffic := {
      setup := left setup
      jobs := {.notify (install (cleared (define setup))).1}
      astray } } := by
  have removed : Traffic.Reaches Job.Arises (arriving setup astray).traffic.closing
      ⟨cleared (define setup), some .clearPending, {.install arrival}, astray⟩ :=
    .single (.holds rfl .clearHooks)
  have part : Job.Runs (cleared (define setup)) (.install arrival)
      (install (cleared (define setup))).2 {.notify (install (cleared (define setup))).1} :=
    .install (List.Perm.refl _)
  have installed := removed.tail (.runs (Multiset.singleton_add _ 0) part)
  rw [Multiset.add_zero] at installed
  exact reaches_threads ((installed.tail (.holds rfl .clearPending)).tail
    (.holds rfl .clearProbes))

def host : Host := ({} : Host).define method.typeName [(method.name, .program [])]

def added : Setup :=
  ((begun { service := "svc" } origin host [] []).traffic.setup.addProbe probe).2

def calling (setup : Setup) (astray : HookTarget → Prop) : Crowd where
  traffic := { setup, astray }
  activations := {.entering (.program []) [.probes 0 1]}

def carries : Body → Bool
  | .hooked 0 m 1 (.probes 0 1) (.program []) => m = method
  | _ => false

def emits : Occurrence → Bool
  | .notice (.status e) => e.status = .emitting
  | _ => false

theorem reaches_calling : ∃ astray,
    Reaches Opens (begun { service := "svc" } origin host [] [])
      (calling added astray) := by
  let start := begun { service := "svc" } origin host [] []
  obtain ⟨astray, hooked⟩ : ∃ astray, Traffic.Reaches Opens start.traffic
      { setup := added, astray } :=
    (Traffic.completes_add (s := start.traffic) rfl probe).reaches .refl ⟨trivial, trivial⟩
  obtain ⟨body, found, carried⟩ := (Option.any_eq_true carries _).mp
    (by decide +kernel : (added.host.body? method).any carries = true)
  have current : added.engine.hooks.slot method = 1 := by decide +kernel
  unfold carries at carried
  split at carried
  · cases of_decide_eq_true carried
    exact ⟨astray, ((reaches_threads hooked).tail (.calls found)).tail
      (step_alone rfl (.found fun _ => current))⟩
  · cases carried

theorem reaches_forgotten (setup : Setup) (astray : HookTarget → Prop) :
    Reaches Job.Arises (calling setup astray).closing
      (calling (forgotten (cleared setup)) astray) := by
  have removed : Traffic.Reaches Job.Arises (calling setup astray).traffic.closing
      ⟨cleared setup, some .clearPending, 0, astray⟩ := .single (.holds rfl .clearHooks)
  exact reaches_threads ((removed.tail (.holds rfl .clearPending)).tail (.holds rfl .clearProbes))

theorem reaches_told (setup : Setup) (astray : HookTarget → Prop) {w : World}
    (around : w.Around setup) (x : Execution) : ∃ s₂,
      Reaches Job.Arises (calling setup astray) s₂ ∧ s₂.traffic.setup.journal =
        (Action.fire (fun _ _ => pure .nil) x (.probes 0 1) w).2.journal := by
  obtain ⟨s', after, -⟩ := around.fired (List.mem_singleton_self (.probes 0 1)) x
  have returned : Reaches Job.Arises (calling setup astray)
      { traffic := { setup, astray }, activations := {.leaving [.probes 0 1]} } :=
    .single (step_alone rfl .returned)
  exact ⟨_, returned.tail (step_alone rfl (.fired around after)), after.journal.symm⟩

end Sample

open Traffic.Sample Sample in
/-- A hook is installed while the engine is closed, and left. -/
theorem reached_closed_late : Host.Regular 0 {} ∧ ∃ s s₁,
    Reaches (fun job => job.Manages ∧ job.Regular 0)
        (begun { service := "svc" } origin {} [] []) s ∧
      (∀ job ∈ s.traffic.jobs, job.Listens) ∧
      Traffic.Reaches (· = .close) s.traffic s.closing.traffic ∧
      Reaches Job.Arises s.closing s₁ ∧ s₁.traffic.holder = none ∧
      s₁.traffic.Hooked target ∧ s.traffic.Owed target ∧
      ∀ k, ¬ s₁.traffic.setup.engine.probes.Knows k := by
  obtain ⟨astray, run⟩ := reaches_arriving
  have later := reaches_left pending astray
  have listens : ∀ job ∈ (arriving pending astray).traffic.jobs, job.Listens := by
    intro job member
    rw [Multiset.mem_singleton.mp member]
    trivial
  have hooked : (left pending).engine.hooks.isInstalled target = true := by decide +kernel
  obtain ⟨-, vacant, owed, -⟩ := reached_closed regular_blank run listens later rfl
  exact ⟨regular_blank, _, _, run, listens, Traffic.reaches_closing rfl rfl, later, rfl, hooked,
    owed target hooked, vacant⟩

open Traffic.Sample Sample in
/-- When an engine has been closed and all threads are done, a hook may be installed; and a call
that was in progress may tell that a probe is emitting after the closing was over. -/
theorem reached_closed_alive :
    (∃ s s₁, Reaches Opens (begun { service := "svc" } origin {} [] []) s ∧
      (∀ job ∈ s.traffic.jobs, job.Listens) ∧ Reaches Job.Arises s.closing s₁ ∧
      s₁.traffic.Quiet ∧ s₁.activations = 0 ∧ s₁.traffic.Hooked target) ∧
    ∃ s s₁ s₂, Reaches Opens (begun { service := "svc" } origin host [] []) s ∧
      (∀ job ∈ s.traffic.jobs, job.Listens) ∧ Reaches Job.Arises s.closing s₁ ∧
      s₁.traffic.holder = none ∧ s₁.traffic.setup.journal.any emits = false ∧
      Reaches Job.Arises s₁ s₂ ∧ s₂.traffic.setup.journal.any emits = true := by
  constructor
  · obtain ⟨astray, run⟩ := reaches_arriving
    have later := reaches_left pending astray
    have told : (install (cleared (define pending))).1 = [target] := by decide +kernel
    rw [told] at later
    obtain ⟨lost, rest⟩ : Traffic.Completes Job.Arises
        { setup := left pending, astray } {.notify [target]}
        ((left pending).hookInstalled target) := Traffic.completes_notify [target] rfl
    rw [Multiset.add_zero] at rest
    have hooked : ((left pending).hookInstalled target).engine.hooks.isInstalled target = true := by
      decide +kernel
    refine ⟨_, _, run, fun job member => ?_, later.trans (reaches_threads rest), ⟨rfl, rfl⟩,
      rfl, hooked⟩
    rw [Multiset.mem_singleton.mp member]
    trivial
  · obtain ⟨astray, run⟩ := reaches_calling
    have later := reaches_forgotten added astray
    let shut := forgotten (cleared added)
    let w : World :=
      { host := shut.host, engines := [shut.engine], journal := shut.journal,
        warnings := shut.warnings }
    let x : Execution := .method { args := {}, returned := .nil, elapsed := ⟨0, ""⟩, stack := [] }
    have around : w.Around shut := ⟨rfl, rfl, rfl, rfl⟩
    obtain ⟨s₂, rest, journal⟩ := reaches_told shut astray around x
    have silent : shut.journal.any emits = false := by decide +kernel
    have told : s₂.traffic.setup.journal.any emits = true := by
      rw [journal]
      decide +kernel
    exact ⟨_, _, s₂, run, fun _ member => absurd member (Multiset.notMem_zero _), later, rfl,
      silent, rest, told⟩

end Crowd
end LiveProbe
