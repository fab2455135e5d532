import LiveProbe.Proofs.Engine.Coherence

/-!
Adding a probe. Whatever becomes of it, the engine stays coherent, every probe that was known stays
as it is, and an error leaves nothing behind.
-/
namespace LiveProbe.Setup

variable {s s' : Setup} {p : Probe} {k : KnownProbe} {t : HookTarget}

structure Restaffed (s s' : Setup) : Prop where
  held : s'.held = s.held
  code : s'.engine.code = s.engine.code
  observer : s'.engine.observer = s.engine.observer
  propagate : s'.engine.propagate = s.engine.propagate

theorem Restaffed.backdrop (restaffed : Restaffed s s') : Backdrop s s' where
  wiring := by rw [restaffed.held]
  defined m := by
    have host := congrArg Hooking.host restaffed.held
    rw [show s'.host = s.host from host]
  code := restaffed.code
  observer := restaffed.observer
  propagate := restaffed.propagate

theorem Restaffed.same (restaffed : Restaffed s s') (t : HookTarget) :
    Hooking.Same t s.held s'.held := by
  rw [restaffed.held]
  exact Hooking.Same.refl t s.held

theorem Restaffed.hooks (restaffed : Restaffed s s') : s'.engine.hooks = s.engine.hooks :=
  congrArg Hooking.hooks restaffed.held

theorem restaffed_enterGroup (group : Nat) (p : Probe) (s : Setup) :
    Restaffed s (s.enterGroup group p) ∧ (s.enterGroup group p).engine.probes =
      s.engine.probes.receive group p (s.engine.probes.groupInstalled group) := by
  unfold enterGroup enter Probes.receive
  dsimp only
  split <;> exact ⟨⟨rfl, rfl, rfl, rfl⟩, rfl⟩

theorem restaffed_enterFirst (target : HookTarget) (p : Probe) (installed : Bool) (s : Setup) :
    Restaffed s (s.enterFirst target p installed) ∧
      (s.enterFirst target p installed).engine.probes =
        (s.engine.probes.openGroup target).receive s.engine.probes.nextGroup p installed := by
  unfold enterFirst enter Probes.receive
  dsimp only
  split <;> exact ⟨⟨rfl, rfl, rfl, rfl⟩, rfl⟩

/-- What adding a probe comes to. -/
structure Addition (p : Probe) (s : Setup) (r : Except Error Unit × Setup) : Prop
    extends Passage s r.2 where
  kept : ∀ k, s.engine.probes.Knows k → Keeps k s r.2
  newcomer : ∀ k, r.2.engine.probes.Knows k → s.engine.probes.Knows k ∨
    k.probe = p ∧ s.engine.probes.isKnown p.id = false ∧ (∃ t, p.target = .ok (some t)) ∧
      r.1 = .ok ()
  entered : s.engine.probes.isKnown p.id = false → ∀ t, p.target = .ok (some t) → r.1 = .ok () →
    ∃ k, k.probe = p ∧ r.2.engine.probes.Knows k
  refused : ∀ e, r.1 = .error e → Unmoved s r.2

theorem Addition.idle (coherent : Coherent [] s) {result : Except Error Unit}
    (nowhere : s.engine.probes.isKnown p.id = false → ∀ t, p.target ≠ .ok (some t)) :
    Addition p s (result, s) where
  toPassage := Passage.refl coherent
  kept k _ := Keeps.refl k s
  newcomer _ known := Or.inl known
  entered unknown t here := absurd here (nowhere unknown t)
  refused _ _ := Unmoved.refl s

/-- A probe has entered at a target, in the state that the hook of the target is in and that all
others at the target share. What is held for known probes does not differ. -/
structure Entry (new : KnownProbe) (t : HookTarget) (installed : Bool) (s s' : Setup) : Prop where
  backdrop : Backdrop s s'
  anchored : s'.held.Anchored
  ordered : s'.engine.probes.Ordered
  unknown : s.engine.probes.isKnown new.probe.id = false
  here : new.At t
  installs : ∀ k, s'.engine.probes.Installs k ↔
    s.engine.probes.Installs k ∨ installed = true ∧ k = new
  awaits : ∀ k, s'.engine.probes.Awaits k ↔
    s.engine.probes.Awaits k ∨ installed = false ∧ k = new
  limiters : s'.engine.probes.limiters = s.engine.probes.limiters
  hook : s'.engine.hooks.isInstalled t = installed ∧ s'.engine.hooks.isPending t = !installed
  shared : (s.engine.probes.InstalledAt t → installed = true) ∧
    (s.engine.probes.PendingAt t → installed = false)
  reason : (installed = true → s.engine.hooks.isInstalled t = true ∨ s.Grants t) ∧
    (installed = false → s.engine.hooks.isPending t = true ∨ ¬ s.Grants t)
  elsewhere : ∀ t', t' ≠ t → Hooking.Same t' s.held s'.held
  kept : ∀ k, s.engine.probes.Knows k → k.At t → Hooking.Same t s.held s'.held

section Entry

variable {new : KnownProbe} {installed : Bool}

theorem Entry.knows (entry : Entry new t installed s s') (k : KnownProbe) :
    s'.engine.probes.Knows k ↔ s.engine.probes.Knows k ∨ k = new := by
  unfold Probes.Knows
  rw [entry.installs, entry.awaits]
  cases installed <;> simp [or_assoc, or_comm, or_left_comm]

theorem Entry.ne_new (entry : Entry new t installed s s') (known : s.engine.probes.Knows k) :
    k ≠ new := by
  intro same
  have contradiction := known.isKnown
  rw [same, entry.unknown] at contradiction
  cases contradiction

theorem Entry.installedAt (entry : Entry new t installed s s') (t' : HookTarget) :
    s'.engine.probes.InstalledAt t' ↔
      s.engine.probes.InstalledAt t' ∨ installed = true ∧ t' = t :=
  Probes.at_of_entered new entry.here entry.installs t'

theorem Entry.pendingAt (entry : Entry new t installed s s') (t' : HookTarget) :
    s'.engine.probes.PendingAt t' ↔
      s.engine.probes.PendingAt t' ∨ installed = false ∧ t' = t :=
  Probes.at_of_entered new entry.here entry.awaits t'

theorem Entry.hook_elsewhere (entry : Entry new t installed s s') {t' : HookTarget}
    (other : t' ≠ t) : s'.engine.hooks.isInstalled t' = s.engine.hooks.isInstalled t' ∧
      s'.engine.hooks.isPending t' = s.engine.hooks.isPending t' :=
  ⟨(entry.elsewhere t' other).isInstalled, (entry.elsewhere t' other).isPending⟩

theorem Entry.coherent (entry : Entry new t installed s s') (coherent : Coherent [] s) :
    Coherent [] s' := by
  constructor
  case anchored => exact entry.anchored
  case ordered => exact entry.ordered
  case observer => exact entry.backdrop.observer.trans coherent.observer
  case hooked =>
    intro t'
    rw [entry.installedAt]
    by_cases same : t' = t
    · subst same
      rw [entry.hook.1]
      simp only [and_true, List.not_mem_nil, false_and, or_false]
      exact (or_iff_right_of_imp entry.shared.1).symm
    · rw [(entry.hook_elsewhere same).1]
      simpa [same] using coherent.hooked t'
  case waiting =>
    intro t'
    rw [entry.pendingAt]
    by_cases same : t' = t
    · subst same
      rw [entry.hook.2]
      simp only [and_true, List.not_mem_nil, not_false_eq_true, Bool.not_eq_true']
      exact (or_iff_right_of_imp entry.shared.2).symm
    · rw [(entry.hook_elsewhere same).2]
      simpa [same] using coherent.waiting t'
  case uniform =>
    intro t'
    rw [entry.installedAt, entry.pendingAt]
    by_cases same : t' = t
    · subst same
      rw [and_iff_left rfl, and_iff_left rfl, or_iff_right_of_imp entry.shared.1,
        or_iff_right_of_imp entry.shared.2, Bool.not_eq_false]
      exact id
    · simpa [same] using coherent.uniform t'

theorem Entry.aware (entry : Entry new t installed s s') (aware : Aware s) : Aware s' := by
  apply aware.of_backdrop entry.backdrop
  intro t'
  by_cases same : t' = t
  · subst same
    rw [entry.hook.1, entry.hook.2, Bool.not_eq_true']
    exact entry.reason
  · rw [(entry.hook_elsewhere same).1, (entry.hook_elsewhere same).2]
    exact ⟨Or.inl, Or.inl⟩

theorem Entry.keeps (entry : Entry new t installed s s') (known : s.engine.probes.Knows k) :
    Keeps k s s' where
  installs := by
    rw [entry.installs]
    exact or_iff_left fun both => entry.ne_new known both.2
  awaits := by
    rw [entry.awaits]
    exact or_iff_left fun both => entry.ne_new known both.2
  limiters := entry.limiters
  same t' there := by
    by_cases same : t' = t
    · subst same
      exact entry.kept k known there
    · exact entry.elsewhere t' same

theorem Entry.addition (entry : Entry new t installed s s') (coherent : Coherent [] s) :
    Addition new.probe s (.ok (), s') where
  backdrop := entry.backdrop
  coherent := entry.coherent coherent
  aware := entry.aware
  kept k known := entry.keeps known
  newcomer k known := by
    rcases (entry.knows k).mp known with old | same
    · exact Or.inl old
    · subst same
      exact Or.inr ⟨rfl, entry.unknown, ⟨t, entry.here⟩, rfl⟩
  entered _ _ _ _ := ⟨new, rfl, (entry.knows new).mpr (Or.inr rfl)⟩
  refused e h := by cases h

end Entry

theorem enterGroup_entry (coherent : Coherent [] s) {group : Nat}
    (own : Table.get? t s.engine.probes.groups = some group) (here : p.target = .ok (some t))
    (unknown : s.engine.probes.isKnown p.id = false) :
    Entry (s.engine.probes.join group p).1 t (s.engine.probes.groupInstalled group) s
      (s.enterGroup group p) := by
  obtain ⟨restaffed, probes⟩ := restaffed_enterGroup group p s
  have installedAt := coherent.ordered.groupInstalled_iff own
  -- a group has a member, which is installed or pending
  have state : s.engine.hooks.isInstalled t = s.engine.probes.groupInstalled group ∧
      s.engine.hooks.isPending t = !s.engine.probes.groupInstalled group := by
    constructor
    · rw [Bool.eq_iff_iff, installedAt, coherent.hooked]
      simp
    · rw [Bool.eq_iff_iff, Bool.not_eq_true', ← Bool.not_eq_true, installedAt, coherent.waiting,
        and_iff_left List.not_mem_nil]
      constructor
      · intro pending installed
        exact coherent.uniform t installed pending
      · intro notInstalled
        obtain ⟨k, installs | awaits, there⟩ := coherent.ordered.inhabited t group own
        · exact absurd ⟨k, installs, there⟩ notInstalled
        · exact ⟨k, awaits, there⟩
  constructor
  case backdrop => exact restaffed.backdrop
  case anchored =>
    rw [restaffed.held]
    exact coherent.anchored
  case ordered =>
    rw [probes]
    exact coherent.ordered.receive own here unknown
  case unknown => exact unknown
  case here => exact here
  case installs =>
    rw [probes]
    exact Probes.installs_receive unknown
  case awaits =>
    rw [probes]
    exact Probes.awaits_receive unknown
  case limiters =>
    rw [probes]
    exact Probes.limiters_receive
  case hook =>
    rw [restaffed.hooks]
    exact state
  case shared =>
    rw [installedAt, ← Bool.not_eq_true, installedAt]
    exact ⟨id, fun pending installed => coherent.uniform t installed pending⟩
  case reason =>
    rw [state.1, state.2, Bool.not_eq_true']
    exact ⟨Or.inl, Or.inl⟩
  case elsewhere => exact fun t' _ => restaffed.same t'
  case kept => exact fun _ _ _ => restaffed.same t

theorem Coherent.unhooked (coherent : Coherent [] s)
    (absent : Table.get? t s.engine.probes.groups = none) :
    s.held.hooks.isInstalled t = false ∧ s.held.hooks.isPending t = false := by
  have nobody := coherent.ordered.nobody_at absent
  constructor
  · rw [Bool.eq_false_iff]
    intro installed
    rcases (coherent.hooked t).mp installed with ⟨k, installs, here⟩ | ⟨inflight, -⟩
    · exact nobody k (Or.inl installs) here
    · cases inflight
  · rw [Bool.eq_false_iff]
    intro pending
    obtain ⟨⟨k, awaits, here⟩, -⟩ := (coherent.waiting t).mp pending
    exact nobody k (Or.inr awaits) here

theorem requestHook_request (coherent : Coherent [] s)
    (absent : Table.get? t s.engine.probes.groups = none) :
    Hooking.Request s.engine.code t s.held ((s.requestHook t).1, (s.requestHook t).2.held) := by
  obtain ⟨free, idle⟩ := coherent.unhooked absent
  exact Hooking.hookWhenDefined_request coherent.anchored s.engine.code free idle _

theorem requestHook_backdrop (request : Hooking.Request s.engine.code t s.held
    ((s.requestHook t).1, (s.requestHook t).2.held)) : Backdrop s (s.requestHook t).2 :=
  ⟨request.frame.wiring, request.frame.defined, rfl, rfl, rfl⟩

theorem enterFirst_entry (coherent : Coherent [] s)
    (absent : Table.get? t s.engine.probes.groups = none) (here : p.target = .ok (some t))
    (unknown : s.engine.probes.isKnown p.id = false) {installed : Bool}
    (answer : (s.requestHook t).1 = .ok installed) :
    Entry ((s.engine.probes.openGroup t).join s.engine.probes.nextGroup p).1 t installed s
      ((s.requestHook t).2.enterFirst t p installed) := by
  have request := requestHook_request coherent absent
  obtain ⟨restaffed, probes⟩ := restaffed_enterFirst t p installed (s.requestHook t).2
  have before : (s.requestHook t).2.engine.probes = s.engine.probes := rfl
  rw [before] at probes
  have nobody := coherent.ordered.nobody_at absent
  constructor
  case backdrop => exact (requestHook_backdrop request).trans restaffed.backdrop
  case anchored =>
    rw [restaffed.held]
    exact request.anchored
  case ordered =>
    rw [probes]
    exact coherent.ordered.receive_first absent here unknown
  case unknown => exact unknown
  case here => exact here
  case installs =>
    rw [probes]
    exact Probes.installs_receive unknown
  case awaits =>
    rw [probes]
    exact Probes.awaits_receive unknown
  case limiters =>
    rw [probes]
    exact Probes.limiters_receive
  case hook =>
    rw [restaffed.hooks]
    cases installed with
    | true => exact request.installed answer
    | false => exact request.waiting answer
  case shared =>
    constructor
    · intro ⟨k, installs, there⟩
      exact absurd there (nobody k (Or.inl installs))
    · intro ⟨k, awaits, there⟩
      exact absurd there (nobody k (Or.inr awaits))
  case reason =>
    constructor
    · intro now
      subst now
      exact Or.inr (request.granted.mp answer)
    · intro later
      subst later
      refine Or.inr fun granted => ?_
      have accepted := request.granted.mpr granted
      rw [show (s.requestHook t).1 = Except.ok true from accepted] at answer
      cases answer
  case elsewhere =>
    exact fun t' other => (request.frame.apart t' other).trans (restaffed.same t')
  case kept => exact fun k known there => absurd there (nobody k known)

theorem requestHook_refused (coherent : Coherent [] s)
    (absent : Table.get? t s.engine.probes.groups = none) {e : Error}
    (refused : (s.requestHook t).1 = .error e) : Addition p s (.error e, (s.requestHook t).2) := by
  have request := requestHook_request coherent absent
  have unmoved : Unmoved s (s.requestHook t).2 := by
    refine ⟨requestHook_backdrop request, rfl, fun t' => ?_⟩
    by_cases same : t' = t
    · subst same
      exact request.refused e refused
    · exact request.frame.apart t' same
  exact ⟨Passage.of_unmoved coherent unmoved request.anchored, fun k _ => unmoved.keeps k,
    fun k known => Or.inl known, fun _ _ _ h => by simp at h, fun _ _ => unmoved⟩

theorem addProbe_addition (coherent : Coherent [] s) (p : Probe) :
    Addition p s (s.addProbe p) := by
  cases known : s.engine.probes.isKnown p.id with
  | true =>
    rw [addProbe_of_isKnown known]
    exact Addition.idle coherent fun unknown => by simp [known] at unknown
  | false =>
    unfold addProbe Probes.admission
    simp only [known, Bool.false_eq_true, if_false]
    cases place : p.target with
    | error e => exact Addition.idle coherent fun _ t here => by simp [place] at here
    | ok target =>
      cases target with
      | none => exact Addition.idle coherent fun _ t here => by simp [place] at here
      | some t =>
        dsimp only
        cases group : Table.get? t s.engine.probes.groups with
        | some g => exact (enterGroup_entry coherent group place known).addition coherent
        | none =>
          dsimp only
          rcases requested : s.requestHook t with ⟨answer, s'⟩
          cases answer with
          | error e =>
            have refused := requestHook_refused (p := p) coherent group
              (congrArg Prod.fst requested)
            rwa [requested] at refused
          | ok installed =>
            have entry := enterFirst_entry coherent group place known
              (congrArg Prod.fst requested)
            rw [requested] at entry
            exact entry.addition coherent

end LiveProbe.Setup
