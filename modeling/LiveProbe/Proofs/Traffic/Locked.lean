import LiveProbe.Proofs.Traffic.Sections

/-!
Sections under the lock of the probes keep traffic in order: the promotion of probes, and adding and
removing them step by step. While a thread has the lock, the roster is what it left it, but the
hooks need not be.
-/
namespace LiveProbe.Traffic

variable {s s' : Traffic} {job : Job} {others next : Multiset Job} {t : HookTarget} {p : Probe}
  {hold : Hold}

def Unentered (s : Traffic) : Prop := ∀ p t installed, s.holder ≠ some (.enter p t installed)

theorem unentered_of_free (free : s.holder = none) : Unentered s := by
  intro p t installed held
  rw [free] at held
  cases held

theorem Unentered.staffed_iff (unentered : Unentered s) (t : HookTarget) :
    s.Staffed t ↔ s.setup.engine.probes.InstalledAt t :=
  or_iff_left fun entering => entering.elim fun p held => unentered p t true held

theorem Unentered.awaited_iff (unentered : Unentered s) (t : HookTarget) :
    s.Awaited t ↔ s.setup.engine.probes.PendingAt t :=
  or_iff_left fun entering => entering.elim fun p held => unentered p t false held

theorem Undisturbed.of_roster
    (hooks : s'.setup.engine.hooks = s.setup.engine.hooks)
    (staffed : s'.Staffed t ↔ s.Staffed t) (awaited : s'.Awaited t ↔ s.Awaited t)
    (inFlight : s'.InFlight t ↔ s.InFlight t) (astray : s'.astray t ↔ s.astray t)
    (granted : s'.setup.Grants t ↔ s.setup.Grants t)
    (heralded : s.Heralded t → s'.Heralded t) : Undisturbed t s s' where
  hooked := by rw [Hooked, hooks, Hooked]
  waits := by rw [Waits, hooks, Waits]
  staffed := staffed
  awaited := awaited
  inFlight := inFlight
  astray := astray
  granted := granted.mpr
  heralded _ h passes := heralded (passes (granted.mp h))

theorem Balanced.land (balanced : Balanced s t) (told : s.InFlight t)
    (hooked : s'.Hooked t ↔ s.Hooked t) (waits : s'.Waits t ↔ s.Waits t)
    (staffed : s'.Staffed t ↔ s.Staffed t ∨ s.Awaited t) (awaited : ¬ s'.Awaited t)
    (astray : s'.astray t ↔ s.astray t) (granted : s'.setup.Grants t ↔ s.setup.Grants t) :
    Balanced s' t := by
  obtain ⟨grants, idle⟩ := balanced.landed told
  have idle' : ¬ s'.Waits t := fun h => idle (waits.mp h)
  constructor
  case staffed =>
    intro h
    rw [hooked]
    rcases staffed.mp h with before | waiting
    · exact balanced.staffed before
    · exact ((balanced.awaited waiting).resolve_left idle).1
  case awaited => exact fun h => absurd h awaited
  case waits => exact fun h => absurd h idle'
  case hooked =>
    intro h
    rcases balanced.hooked (hooked.mp h) with before | ⟨waiting, -⟩ | lost
    · exact Or.inl (staffed.mpr (Or.inl before))
    · exact Or.inl (staffed.mpr (Or.inr waiting))
    · exact Or.inr (Or.inr (astray.mpr lost))
  case uniform => exact fun _ => awaited
  case apart => exact fun _ => idle'
  case astray =>
    intro h
    obtain ⟨before, nobody, nobodyWaits⟩ := balanced.astray (astray.mp h)
    refine ⟨hooked.mpr before, fun h => ?_, awaited⟩
    exact (staffed.mp h).elim nobody nobodyWaits
  case granted => exact fun _ => granted.mpr grants
  case landed => exact fun _ => ⟨granted.mpr grants, idle'⟩
  case heralded => exact fun h => absurd h idle'

theorem Orderly.notify (order : Orderly s) {target : HookTarget} {targets : List HookTarget}
    (ready : s.jobs = .notify (target :: targets) ::ₘ others) (free : s.holder = none) :
    Follows s { s with
      setup := s.setup.hookInstalled target
      holder := none
      jobs := {.notify targets} + others } := by
  have told : s.setup.hookInstalled target = s.setup.promoteAt target := by
    unfold Setup.hookInstalled
    rw [order.connected.observer]
  rw [told]
  obtain ⟨held, backdrop, ordered, installedAt, pendingAt⟩ :=
    Setup.promoteAt_landing order.ordered target
  have hooks : (s.setup.promoteAt target).engine.hooks = s.setup.engine.hooks :=
    congrArg Hooking.hooks held
  have unentered := unentered_of_free free
  refine order.advance ready (held ▸ order.anchored) ordered (order.connected.of_backdrop backdrop)
    (fun u known => backdrop.allUnits ▸ known) (fun t => (backdrop.grants_iff t).mpr)
    (admissible_of_forall_eq _ (fun _ => Multiset.mem_singleton.mp) nofun nofun) nofun fun t => ?_
  have unentered' : Unentered { s with
      setup := s.setup.promoteAt target, holder := none, jobs := {.notify targets} + others } :=
    unentered_of_free rfl
  by_cases own : t = target
  · subst own
    refine (order.balanced t).land ((inFlight_of_ready ready t).mpr (Or.inl List.mem_cons_self))
      ?_ ?_ ?_ ?_ Iff.rfl (backdrop.grants_iff t)
    · rw [Hooked, hooks, Hooked]
    · rw [Waits, hooks, Waits]
    · rw [unentered'.staffed_iff, unentered.staffed_iff, unentered.awaited_iff, installedAt]
      simp
    · rw [unentered'.awaited_iff, pendingAt]
      simp
  · refine (order.balanced t).of_undisturbed (.of_roster hooks ?_ ?_ ?_ Iff.rfl
      (backdrop.grants_iff t) ?_)
    · rw [unentered'.staffed_iff, unentered.staffed_iff, installedAt]
      simp [own]
    · rw [unentered'.awaited_iff, unentered.awaited_iff, pendingAt]
      simp [own]
    · rw [inFlight_of_ready ready]
      refine exists_mem_add.trans (or_congr_left ?_)
      simp [Job.Tells, own]
    · exact heralded_next ready fun heralds => False.elim heralds

theorem Orderly.proceed (order : Orderly s) (ready : s.jobs = job ::ₘ others)
    (free : s.holder = none) (silent : ∀ t, ¬ job.Tells t) (mute : ∀ t, ¬ job.Heralds t)
    {holder : Option Hold} (unentered : ∀ p t installed, holder ≠ some (.enter p t installed))
    (sensible : ∀ hold, holder = some hold → hold.Sensible s.setup.engine.probes) :
    Follows s { s with holder, jobs := 0 + others } := by
  refine order.advance ready order.anchored order.ordered order.connected (fun _ => id)
    (fun _ => id) (admissible_zero _) sensible fun t => ?_
  have unentered' : Unentered { s with holder, jobs := 0 + others } := unentered
  refine (order.balanced t).of_undisturbed (.of_roster rfl ?_ ?_ ?_ Iff.rfl Iff.rfl ?_)
  · rw [unentered'.staffed_iff, (unentered_of_free free).staffed_iff]
  · rw [unentered'.awaited_iff, (unentered_of_free free).awaited_iff]
  · exact inFlight_next ready (silent t) fun _ h => absurd h (Multiset.notMem_zero _)
  · exact heralded_next ready fun heralds => absurd heralds (mute t)

end LiveProbe.Traffic

namespace LiveProbe.Probes

variable {ps : Probes} {p : Probe}

theorem admission_eq_joins {group : Nat} (there : ps.admission p = .ok (.joins group)) :
    ps.isKnown p.id = false ∧
      ∃ t, p.target = .ok (some t) ∧ Table.get? t ps.groups = some group := by
  unfold admission at there
  split at there
  · cases there
  · rename_i unknown
    split at there
    · cases there
    · cases there
    · rename_i t place
      split at there
      · rename_i own
        cases there
        exact ⟨by simpa using unknown, t, place, own⟩
      · cases there

theorem admission_eq_founds {target : HookTarget} (alone : ps.admission p = .ok (.founds target)) :
    p.target = .ok (some target) ∧ ps.isKnown p.id = false ∧
      Table.get? target ps.groups = none := by
  unfold admission at alone
  split at alone
  · cases alone
  · rename_i unknown
    split at alone
    · cases alone
    · cases alone
    · rename_i t place
      split at alone
      · cases alone
      · rename_i nobody
        cases alone
        exact ⟨place, by simpa using unknown, nobody⟩

end LiveProbe.Probes

namespace LiveProbe.Traffic

variable {s s' : Traffic} {job : Job} {others next : Multiset Job} {t : HookTarget} {p : Probe}
  {hold : Hold}

theorem Orderly.join (order : Orderly s) {group : Nat} (ready : s.jobs = .add p ::ₘ others)
    (free : s.holder = none)
    (there : s.setup.engine.probes.admission p = .ok (.joins group)) :
    Follows s { s with
      setup := s.setup.enterGroup group p
      holder := none
      jobs := 0 + others } := by
  obtain ⟨unknown, target, place, own⟩ := Probes.admission_eq_joins there
  obtain ⟨restaffed, probes⟩ := Setup.restaffed_enterGroup group p s.setup
  have installed := order.ordered.groupInstalled_iff own
  have inhabited := order.ordered.inhabited target group own
  have unentered := unentered_of_free free
  have unentered' : Unentered { s with
      setup := s.setup.enterGroup group p, holder := none, jobs := 0 + others } :=
    unentered_of_free rfl
  refine order.advance ready (restaffed.held ▸ order.anchored)
    (probes ▸ order.ordered.receive own place unknown)
    (order.connected.of_backdrop restaffed.backdrop)
    (fun u known => restaffed.backdrop.allUnits ▸ known)
    (fun t => (restaffed.backdrop.grants_iff t).mpr) (admissible_zero _) nofun fun t => ?_
  refine (order.balanced t).of_undisturbed (.of_roster restaffed.hooks ?_ ?_ ?_ Iff.rfl
    (restaffed.backdrop.grants_iff t) ?_)
  · rw [unentered'.staffed_iff, unentered.staffed_iff, probes]
    refine (Probes.installedAt_receive unknown place t).trans (or_iff_left_of_imp ?_)
    rintro ⟨now, rfl⟩
    exact installed.mp now
  · rw [unentered'.awaited_iff, unentered.awaited_iff, probes]
    refine (Probes.pendingAt_receive unknown place t).trans (or_iff_left_of_imp ?_)
    rintro ⟨later, rfl⟩
    obtain ⟨k, installs | awaits, here⟩ := inhabited
    · rw [installed.mpr ⟨k, installs, here⟩] at later
      cases later
    · exact ⟨k, awaits, here⟩
  · exact inFlight_next ready id fun _ h => absurd h (Multiset.notMem_zero _)
  · exact heralded_next ready fun heralds => False.elim heralds

theorem Orderly.continue (order : Orderly s) {setup : Setup} {holder : Option Hold}
    {astray : HookTarget → Prop} (anchored : setup.held.Anchored)
    (ordered : setup.engine.probes.Ordered) (backdrop : s.setup.Backdrop setup)
    (sensible : ∀ hold, holder = some hold → hold.Sensible setup.engine.probes)
    (balanced : ∀ t, Balanced { s with setup, holder, astray } t) :
    Follows s { s with setup, holder, astray } where
  granted t := (backdrop.grants_iff t).mpr
  order := {
    anchored := anchored
    ordered := ordered
    connected := order.connected.of_backdrop backdrop
    loaded := fun u member => backdrop.allUnits ▸ order.loaded u member
    unclosed := order.unclosed
    sensible := sensible
    balanced := balanced }

section Request

variable {target : HookTarget}

theorem Orderly.request (order : Orderly s) (held : s.holder = some (.request p target)) :
    Hooking.Request s.setup.engine.code target s.setup.held
      ((s.setup.requestHook target).1, (s.setup.requestHook target).2.held) := by
  obtain ⟨-, -, nobody⟩ := order.sensible _ held
  have alone := order.ordered.nobody_at nobody
  have unentered : Unentered s := by
    intro p t installed other
    rw [held] at other
    cases other
  have idle : s.setup.engine.hooks.isPending target = false := by
    rw [Bool.eq_false_iff]
    intro waits
    obtain ⟨k, awaits, here⟩ :=
      (unentered.awaited_iff target).mp ((order.balanced target).waits waits)
    exact alone k (Or.inr awaits) here
  cases hooked : s.setup.engine.hooks.isInstalled target with
  | false => exact Hooking.hookWhenDefined_request order.anchored _ hooked idle _
  | true =>
    exact Hooking.hookWhenDefined_of_granted order.anchored order.connected.accepting
      ((order.balanced target).granted hooked) idle _

theorem Balanced.ask {installed : Bool} (balanced : Balanced s t)
    (hook : s'.setup.engine.hooks.isInstalled t = installed ∧
      s'.setup.engine.hooks.isPending t = !installed)
    (nobody : ¬ s'.setup.engine.probes.InstalledAt t ∧ ¬ s'.setup.engine.probes.PendingAt t)
    (entering : s'.holder = some (.enter p t installed)) (astray : ¬ s'.astray t)
    (inFlight : s'.InFlight t ↔ s.InFlight t) (granted : s'.setup.Grants t ↔ s.setup.Grants t)
    (answer : installed = true ↔ s.setup.Grants t) : Balanced s' t := by
  have staffed : s'.Staffed t ↔ installed = true := by
    unfold Staffed Entering
    rw [entering]
    simp [nobody.1]
  have awaited : s'.Awaited t ↔ installed = false := by
    unfold Awaited Entering
    rw [entering]
    simp [nobody.2]
  have hooked : s'.Hooked t ↔ installed = true := by rw [Hooked, hook.1]
  have waits : s'.Waits t ↔ installed = false := by rw [Waits, hook.2, Bool.not_eq_true']
  have told : s'.InFlight t → installed = true :=
    fun h => answer.mpr (balanced.landed (inFlight.mp h)).1
  constructor <;> simp only [staffed, awaited, hooked, waits, granted, ← answer]
  case landed => exact fun h => ⟨told h, by simp [told h]⟩
  case astray => exact fun h => absurd h astray
  all_goals cases installed <;> simp

theorem Orderly.requested (order : Orderly s) (held : s.holder = some (.request p target))
    {installed : Bool} (answer : (s.setup.requestHook target).1 = .ok installed) :
    Follows s { s with
      setup := (s.setup.requestHook target).2
      holder := some (.enter p target installed)
      astray := s.strayed (.request p target) } := by
  have request := order.request held
  obtain ⟨place, unknown, nobody⟩ := order.sensible _ held
  have alone := order.ordered.nobody_at nobody
  have backdrop := Setup.requestHook_backdrop request
  have unentered : Unentered s := by
    intro p t installed other
    rw [held] at other
    cases other
  refine order.continue request.anchored order.ordered backdrop ?_ fun t => ?_
  · intro hold same
    cases same
    exact ⟨place, unknown, nobody⟩
  by_cases own : t = target
  · subst own
    refine (order.balanced t).ask ?_
      ⟨fun ⟨k, installs, here⟩ => alone k (Or.inl installs) here,
        fun ⟨k, awaits, here⟩ => alone k (Or.inr awaits) here⟩ rfl (fun lost => lost.2 rfl) Iff.rfl
      (backdrop.grants_iff t) ?_
    · cases installed with
      | true => exact request.installed answer
      | false => exact request.waiting answer
    · refine Iff.trans ?_ request.granted
      simp [answer]
  · have same := request.frame.apart t own
    have elsewhere : ∀ b, ¬ Entering { s with
        setup := (s.setup.requestHook target).2
        holder := some (.enter p target installed)
        astray := s.strayed (.request p target) } t b := by
      rintro b ⟨p', other⟩
      cases other
      exact own rfl
    refine (order.balanced t).of_undisturbed ?_
    refine ⟨?_, ?_, ?_, ?_, Iff.rfl, and_iff_left own, (backdrop.grants_iff t).mpr, ?_⟩
    · exact iff_of_eq (congrArg (· = true) same.isInstalled)
    · exact iff_of_eq (congrArg (· = true) same.isPending)
    · rw [unentered.staffed_iff, Staffed, or_iff_left (elsewhere true)]
      exact Iff.rfl
    · rw [unentered.awaited_iff, Awaited, or_iff_left (elsewhere false)]
      exact Iff.rfl
    · exact fun _ granted heralded => heralded ((backdrop.grants_iff t).mp granted)

theorem Orderly.declined (order : Orderly s) (held : s.holder = some (.request p target))
    {e : Error} (answer : (s.setup.requestHook target).1 = .error e) :
    Follows s { s with
      setup := (s.setup.requestHook target).2
      holder := none
      astray := s.strayed (.request p target) } := by
  have request := order.request held
  have backdrop := Setup.requestHook_backdrop request
  have unentered : Unentered s := by
    intro p t installed other
    rw [held] at other
    cases other
  have unentered' : Unentered { s with
      setup := (s.setup.requestHook target).2
      holder := none
      astray := s.strayed (.request p target) } := unentered_of_free rfl
  have refused : ¬ s.setup.Grants target := by
    intro granted
    have accepted := request.granted.mpr granted
    rw [show (s.setup.requestHook target).1 = Except.ok true from accepted] at answer
    cases answer
  refine order.continue request.anchored order.ordered backdrop nofun fun t =>
    (order.balanced t).of_undisturbed ?_
  have same : Hooking.Same t s.setup.held (s.setup.requestHook target).2.held := by
    by_cases own : t = target
    · exact own ▸ request.refused e answer
    · exact request.frame.apart t own
  refine ⟨?_, ?_, ?_, ?_, Iff.rfl, and_iff_left_of_imp fun lost own => ?_,
    (backdrop.grants_iff t).mpr, ?_⟩
  · exact iff_of_eq (congrArg (· = true) same.isInstalled)
  · exact iff_of_eq (congrArg (· = true) same.isPending)
  · rw [unentered.staffed_iff, unentered'.staffed_iff]
    exact Iff.rfl
  · rw [unentered.awaited_iff, unentered'.awaited_iff]
    exact Iff.rfl
  · have balanced := order.balanced t
    exact refused (own ▸ balanced.granted (balanced.astray lost).1)
  · exact fun _ granted heralded => heralded ((backdrop.grants_iff t).mp granted)

end Request

theorem Orderly.enter (order : Orderly s) {target : HookTarget} {installed : Bool}
    (held : s.holder = some (.enter p target installed)) :
    Follows s { s with
      setup := s.setup.enterFirst target p installed
      holder := none
      astray := s.strayed (.enter p target installed) } := by
  obtain ⟨place, unknown, nobody⟩ := order.sensible _ held
  obtain ⟨restaffed, probes⟩ := Setup.restaffed_enterFirst target p installed s.setup
  have unentered' : Unentered { s with
      setup := s.setup.enterFirst target p installed
      holder := none
      astray := s.strayed (.enter p target installed) } := unentered_of_free rfl
  have entering : ∀ t b, s.Entering t b ↔ installed = b ∧ t = target := by
    intro t b
    unfold Entering
    rw [held]
    simp only [Option.some.injEq, Hold.enter.injEq]
    constructor
    · rintro ⟨_, -, rfl, rfl⟩
      exact ⟨rfl, rfl⟩
    · rintro ⟨rfl, rfl⟩
      exact ⟨p, rfl, rfl, rfl⟩
  have stranger : (s.setup.engine.probes.openGroup target).isKnown p.id = false := unknown
  refine order.continue (restaffed.held ▸ order.anchored)
    (probes ▸ order.ordered.receive_first nobody place unknown) restaffed.backdrop nofun fun t =>
    (order.balanced t).of_undisturbed (.of_roster restaffed.hooks ?_ ?_ Iff.rfl Iff.rfl
      (restaffed.backdrop.grants_iff t) id)
  · rw [unentered'.staffed_iff, probes, Staffed, entering]
    exact Probes.installedAt_receive stranger place t
  · rw [unentered'.awaited_iff, probes, Awaited, entering]
    exact Probes.pendingAt_receive stranger place t

end LiveProbe.Traffic

namespace LiveProbe.Setup

variable {k : KnownProbe} {t : HookTarget}

theorem removeInstalled_parts (here : k.At t) {s : Setup} (accepting : Hooking.Accepting s.host) :
    let s' := (s.removeInstalled k.probe.id k).2
    s'.engine.probes =
        (Probes.leave t k.probe.id s.engine.probes).2.dropInstalled k.probe.id ∧
      s'.held = (if s.engine.probes.sharesHook t k.probe.id then s.held else (s.held.unhook t).2) ∧
      s'.engine.code = s.engine.code ∧ s'.engine.observer = s.engine.observer ∧
      s'.engine.propagate = s.engine.propagate := by
  have place : k.probe.target = .ok (some t) := here
  have done := Hooking.unhook_of_accepting (s := s.held) accepting t
  unfold removeInstalled
  rw [place]
  dsimp only
  cases s.engine.probes.sharesHook t k.probe.id with
  | true => exact ⟨rfl, rfl, rfl, rfl, rfl⟩
  | false =>
    simp only [Bool.false_eq_true, if_false]
    unfold hooking
    rcases unhooked : Hooking.unhook t s.held with ⟨answer, h⟩
    rw [unhooked] at done
    cases done
    rw [show (⟨s.host, s.engine.hooks, s.warnings⟩ : Hooking) = s.held from rfl, unhooked]
    exact ⟨rfl, rfl, rfl, rfl, rfl⟩

end LiveProbe.Setup

namespace LiveProbe.Traffic

variable {s s' : Traffic} {job : Job} {others next : Multiset Job} {t : HookTarget} {p : Probe}
  {hold : Hold}

/-! Removal. -/

section Drop

variable {k : KnownProbe} {rest : List KnownProbe} {named : List String}

theorem Balanced.leavePending (balanced : Balanced s t) (awaited : s.Awaited t)
    (hooked : s'.Hooked t ↔ s.Hooked t) (waits : ¬ s'.Waits t) (staffed : ¬ s'.Staffed t)
    (nobody : ¬ s'.Awaited t) (inFlight : s'.InFlight t ↔ s.InFlight t)
    (astray : s'.astray t ↔ s.astray t ∨ ¬ s.Waits t)
    (granted : s'.setup.Grants t ↔ s.setup.Grants t) : Balanced s' t where
  staffed h := absurd h staffed
  awaited h := absurd h nobody
  waits h := absurd h waits
  hooked h := Or.inr (Or.inr (astray.mpr (Or.inr (balanced.apart (hooked.mp h)))))
  uniform h := absurd h staffed
  apart _ := waits
  astray h := by
    refine ⟨hooked.mpr ?_, staffed, nobody⟩
    rcases astray.mp h with lost | idle
    · exact (balanced.astray lost).1
    · exact ((balanced.awaited awaited).resolve_left idle).1
  granted h := granted.mpr (balanced.granted (hooked.mp h))
  landed h := ⟨granted.mpr (balanced.landed (inFlight.mp h)).1, waits⟩
  heralded h := absurd h waits

theorem Balanced.leaveInstalled (balanced : Balanced s t) (staffed : s.Staffed t)
    (unhooked : ¬ s'.Hooked t) (waits : s'.Waits t ↔ s.Waits t) (nobody : ¬ s'.Staffed t)
    (nobodyWaits : ¬ s'.Awaited t) (inFlight : s'.InFlight t ↔ s.InFlight t)
    (astray : s'.astray t ↔ s.astray t) (granted : s'.setup.Grants t ↔ s.setup.Grants t) :
    Balanced s' t := by
  have idle : ¬ s'.Waits t :=
    fun h => balanced.uniform staffed (balanced.waits (waits.mp h))
  exact {
    staffed := fun h => absurd h nobody
    awaited := fun h => absurd h nobodyWaits
    waits := fun h => absurd h idle
    hooked := fun h => absurd h unhooked
    uniform := fun h => absurd h nobody
    apart := fun h => absurd h unhooked
    astray := fun h => absurd staffed (balanced.astray (astray.mp h)).2.1
    granted := fun h => absurd h unhooked
    landed := fun h => ⟨granted.mpr (balanced.landed (inFlight.mp h)).1, idle⟩
    heralded := fun h => absurd h idle }

theorem unentered_of_hold (held : s.holder = some hold)
    (other : ∀ p t installed, hold ≠ .enter p t installed) : Unentered s := by
  intro p t installed same
  rw [held] at same
  exact other p t installed (Option.some.inj same)

theorem balanced_of_departure (balanced : ∀ t, Balanced s t) {left : Bool × Probes}
    (jobs : s'.jobs = s.jobs) (unentered : Unentered s) (unentered' : Unentered s')
    (here : k.At t) (departure : Probes.Departure t k s.setup.engine.probes left)
    (probes : s'.setup.engine.probes = left.2) (backdrop : s.setup.Backdrop s'.setup)
    (frame : Hooking.Frame t s.setup.held s'.setup.held)
    (astray : ∀ t', (t' = t → left.1 = false) → (s'.astray t' ↔ s.astray t'))
    (shared : left.1 = false → Hooking.Same t s.setup.held s'.setup.held)
    (last : left.1 = true → ¬ s'.Staffed t → ¬ s'.Awaited t → Balanced s' t) (t' : HookTarget) :
    Balanced s' t' := by
  have uniform : s.setup.engine.probes.InstalledAt t → ¬ s.setup.engine.probes.PendingAt t := by
    rw [← unentered.staffed_iff, ← unentered.awaited_iff]
    exact (balanced t).uniform
  have staffed : s'.Staffed t' ↔ s.Staffed t' ∧ (t' = t → left.1 = false) := by
    rw [unentered'.staffed_iff, unentered.staffed_iff, probes]
    exact departure.installedAt_iff here uniform t'
  have awaited : s'.Awaited t' ↔ s.Awaited t' ∧ (t' = t → left.1 = false) := by
    rw [unentered'.awaited_iff, unentered.awaited_iff, probes]
    exact departure.pendingAt_iff here uniform t'
  by_cases stays : t' = t → left.1 = false
  · have same : Hooking.Same t' s.setup.held s'.setup.held := by
      by_cases own : t' = t
      · exact own ▸ shared (stays own)
      · exact frame.apart t' own
    refine (balanced t').of_undisturbed ⟨?_, ?_, staffed.trans (and_iff_left stays),
      awaited.trans (and_iff_left stays), ?_, astray t' stays, (backdrop.grants_iff t').mpr, ?_⟩
    · exact iff_of_eq (congrArg (· = true) same.isInstalled)
    · exact iff_of_eq (congrArg (· = true) same.isPending)
    · rw [InFlight, jobs, InFlight]
    · intro _ granted heralded
      rw [Heralded, jobs]
      exact heralded ((backdrop.grants_iff t').mp granted)
  · push Not at stays
    obtain ⟨rfl, alone⟩ := stays
    refine last (by simpa using alone) (fun h => ?_) fun h => ?_
    · exact alone ((staffed.mp h).2 rfl)
    · exact alone ((awaited.mp h).2 rfl)

theorem sensible_rest {state state' : KnownProbe → Prop} (nodup : (k :: rest).Nodup)
    (all : ∀ k' ∈ k :: rest, state k') (stays : ∀ k', state' k' ↔ state k' ∧ k' ≠ k) :
    ∃ ks : List KnownProbe, rest.map Probes.entry = ks.map Probes.entry ∧ ks.Nodup ∧
      ∀ k' ∈ ks, state' k' := by
  obtain ⟨fresh, nodupRest⟩ := List.nodup_cons.mp nodup
  refine ⟨rest, rfl, nodupRest, fun k' member => (stays k').mpr ⟨?_, ?_⟩⟩
  · exact all k' (List.mem_cons_of_mem k member)
  · intro same
    subst same
    exact fresh member

theorem exists_of_map_eq_cons {e : String × KnownProbe} {stale : List (String × KnownProbe)}
    {ks : List KnownProbe} (listed : e :: stale = ks.map Probes.entry) :
    ∃ k rest, ks = k :: rest ∧ e = Probes.entry k ∧ stale = rest.map Probes.entry := by
  cases ks with
  | nil => cases listed
  | cons k rest =>
    obtain ⟨rfl, rfl⟩ := List.cons.inj listed
    exact ⟨k, rest, rfl, rfl, rfl⟩

theorem overtaken_iff {s : Setup} (here : k.At t) (t' : HookTarget) :
    s.Overtaken (Probes.entry k) t' ↔ t' = t ∧
      (Probes.leave t k.probe.id (s.engine.probes.dropPending k.probe.id)).1 = true ∧
      s.engine.hooks.isPending t = false := by
  constructor
  · rintro ⟨there, rest⟩
    have same : t' = t := KnownProbe.At.unique there here
    subst same
    exact ⟨rfl, rest⟩
  · rintro ⟨rfl, rest⟩
    exact ⟨here, rest⟩

theorem Orderly.dropPending (order : Orderly s) {e : String × KnownProbe}
    {stale : List (String × KnownProbe)}
    (held : s.holder = some (.dropPending (e :: stale) named)) :
    Follows s { s with
      setup := s.setup.removePending e
      holder := some (.dropPending stale named)
      astray := s.strayed (.dropPending (e :: stale) named) } := by
  obtain ⟨ks, listed, nodup, all⟩ := order.sensible _ held
  obtain ⟨k, rest, rfl, rfl, rfl⟩ := exists_of_map_eq_cons listed
  have awaits := all k List.mem_cons_self
  obtain ⟨target, g, here, -⟩ := order.ordered.placed k (Or.inr awaits)
  have unentered := unentered_of_hold held nofun
  have departure := order.ordered.departure_of_awaits awaits here
  obtain ⟨probes, kept, code, observer, propagate⟩ := Setup.removePending_parts here s.setup
  have overtaken := overtaken_iff (s := s.setup) here
  revert departure probes kept overtaken
  generalize Probes.leave target k.probe.id (s.setup.engine.probes.dropPending k.probe.id) = left
  intro departure probes kept overtaken
  have frame : Hooking.Frame target s.setup.held (s.setup.removePending (k.probe.id, k)).held := by
    rw [kept]
    split
    · exact Hooking.forget_frame target s.setup.held
    · exact Hooking.Frame.refl target s.setup.held
  have backdrop : s.setup.Backdrop (s.setup.removePending (k.probe.id, k)) :=
    ⟨frame.wiring, frame.defined, code, observer, propagate⟩
  refine order.continue ?_ ?_ backdrop ?_ (balanced_of_departure order.balanced rfl unentered
    (unentered_of_hold rfl nofun) here departure probes backdrop frame (fun t' stays => ?_)
    (fun shared => ?_) fun last nobody nobodyWaits => ?_)
  · show (s.setup.removePending (k.probe.id, k)).held.Anchored
    rw [kept]
    split
    · exact Hooking.forget_anchored order.anchored target
    · exact order.anchored
  · exact probes ▸ departure.ordered
  · intro hold same
    cases same
    exact sensible_rest nodup all (probes ▸ departure.awaits)
  · refine or_iff_left fun lost => ?_
    obtain ⟨own, last, -⟩ := (overtaken t').mp lost
    rw [stays own] at last
    cases last
  · show Hooking.Same target s.setup.held (s.setup.removePending (k.probe.id, k)).held
    rw [kept, shared]
    exact Hooking.Same.refl target s.setup.held
  · have forgotten : (s.setup.removePending (k.probe.id, k)).held = s.setup.held.forget target := by
      rw [kept, last]
      rfl
    obtain ⟨idle, installed⟩ := Hooking.forget_state target s.setup.held
    rw [← forgotten] at idle installed
    refine (order.balanced target).leavePending (Or.inl ⟨k, awaits, here⟩)
      (iff_of_eq (congrArg (· = true) installed)) (Bool.eq_false_iff.mp idle) nobody nobodyWaits
      Iff.rfl (or_congr_right ?_) (backdrop.grants_iff target)
    rw [overtaken, Waits, Bool.not_eq_true]
    simp [last]

theorem Orderly.dropInstalled (order : Orderly s) {e : String × KnownProbe}
    {stale : List (String × KnownProbe)} (held : s.holder = some (.dropInstalled (e :: stale))) :
    Follows s { s with
      setup := (s.setup.removeInstalled e.1 e.2).2
      holder := some (.dropInstalled stale)
      astray := s.strayed (.dropInstalled (e :: stale)) } := by
  obtain ⟨ks, listed, nodup, all⟩ := order.sensible _ held
  obtain ⟨k, rest, rfl, rfl, rfl⟩ := exists_of_map_eq_cons listed
  have installs := all k List.mem_cons_self
  obtain ⟨target, g, here, -⟩ := order.ordered.placed k (Or.inl installs)
  have unentered := unentered_of_hold held nofun
  have departure := order.ordered.departure_of_installs installs here
  obtain ⟨probes, kept, code, observer, propagate⟩ :=
    Setup.removeInstalled_parts here order.connected.accepting
  have removal := Hooking.unhook_removal order.anchored target
  have alone : (Probes.leave target k.probe.id s.setup.engine.probes).1 =
      !s.setup.engine.probes.sharesHook target k.probe.id := by
    rw [Bool.eq_iff_iff, departure.last, Bool.not_eq_true', ← Bool.not_eq_true,
      order.ordered.sharesHook_iff (Or.inl installs) here]
    push Not
    rfl
  rw [alone] at departure
  revert departure kept
  generalize s.setup.engine.probes.sharesHook target k.probe.id = shares
  intro departure kept
  have frame : Hooking.Frame target s.setup.held
      (s.setup.removeInstalled k.probe.id k).2.held := by
    rw [kept]
    split
    · exact Hooking.Frame.refl target s.setup.held
    · exact removal.frame
  have backdrop : s.setup.Backdrop (s.setup.removeInstalled k.probe.id k).2 :=
    ⟨frame.wiring, frame.defined, code, observer, propagate⟩
  refine order.continue ?_ ?_ backdrop ?_ (balanced_of_departure order.balanced rfl unentered
    (unentered_of_hold rfl nofun) here departure probes backdrop frame (fun _ _ => Iff.rfl)
    (fun shared => ?_) fun last nobody nobodyWaits => ?_)
  · show (s.setup.removeInstalled k.probe.id k).2.held.Anchored
    rw [kept]
    split
    · exact order.anchored
    · exact removal.anchored
  · exact probes ▸ departure.ordered
  · intro hold same
    cases same
    exact sensible_rest nodup all (probes ▸ departure.installs)
  · show Hooking.Same target s.setup.held (s.setup.removeInstalled k.probe.id k).2.held
    rw [kept, if_pos (by simpa using shared)]
    exact Hooking.Same.refl target s.setup.held
  · have unhooked : (s.setup.removeInstalled k.probe.id k).2.held =
        (s.setup.held.unhook target).2 := by
      rw [kept, if_neg (by simpa using last)]
    have gone := removal.removed (Hooking.unhook_of_accepting order.connected.accepting target)
    have idle : (s.setup.held.unhook target).2.hooks.isPending target =
        s.setup.engine.hooks.isPending target := by
      cases target with
      | method m => exact congrArg (Table.contains m) removal.pendingMethods
      | line l => exact congrArg (Table.contains l) removal.pendingLines
    rw [← unhooked] at gone idle
    exact (order.balanced target).leaveInstalled (Or.inl ⟨k, installs, here⟩)
      (Bool.eq_false_iff.mp gone) (iff_of_eq (congrArg (· = true) idle)) nobody nobodyWaits
      Iff.rfl Iff.rfl (backdrop.grants_iff target)

theorem Orderly.turn (order : Orderly s) (held : s.holder = some hold)
    (quiet : ∀ p t installed, hold ≠ .enter p t installed) {holder : Option Hold}
    (unentered : ∀ p t installed, holder ≠ some (.enter p t installed))
    (sensible : ∀ hold, holder = some hold → hold.Sensible s.setup.engine.probes)
    (astray : s.strayed hold = s.astray) :
    Follows s { s with holder, astray := s.strayed hold } := by
  have unentered' : Unentered { s with holder, astray := s.strayed hold } := unentered
  have before := unentered_of_hold held quiet
  refine order.continue order.anchored order.ordered (Setup.Backdrop.refl s.setup) sensible
    fun t => (order.balanced t).of_undisturbed (.of_roster rfl ?_ ?_ Iff.rfl ?_ Iff.rfl id)
  · rw [unentered'.staffed_iff, before.staffed_iff]
  · rw [unentered'.awaited_iff, before.awaited_iff]
  · rw [astray]

end Drop

end LiveProbe.Traffic
