import LiveProbe.Proofs.Engine.Entering

/-!
Removing probes. A probe that goes takes its hook along only if no other probe is at its target;
all other probes stay as they are.
-/
namespace LiveProbe.Setup

variable {s s' s'' : Setup} {k : KnownProbe} {t : HookTarget}

structure Dismissal (k : KnownProbe) (s s' : Setup) : Prop extends Passage s s' where
  installs : ∀ k', s'.engine.probes.Installs k' ↔ s.engine.probes.Installs k' ∧ k' ≠ k
  awaits : ∀ k', s'.engine.probes.Awaits k' ↔ s.engine.probes.Awaits k' ∧ k' ≠ k
  kept : ∀ k', s.engine.probes.Knows k' → k' ≠ k → Keeps k' s s'

theorem Dismissal.of_departure {left : Bool × Probes} (coherent : Coherent [] s) (here : k.At t)
    (departure : Probes.Departure t k s.engine.probes left) (probes : s'.engine.probes = left.2)
    (backdrop : Backdrop s s') (anchored : s'.held.Anchored)
    (frame : Hooking.Frame t s.held s'.held)
    (shared : left.1 = false → Hooking.Same t s.held s'.held)
    (last : left.1 = true →
      s'.engine.hooks.isInstalled t = false ∧ s'.engine.hooks.isPending t = false) :
    Dismissal k s s' := by
  have same : ∀ t', (t' = t → left.1 = false) → Hooking.Same t' s.held s'.held := by
    intro t' condition
    by_cases own : t' = t
    · rw [own]
      exact shared (condition own)
    · exact frame.apart t' own
  have hooks : ∀ t', (s'.engine.hooks.isInstalled t' = true ↔
        s.engine.hooks.isInstalled t' = true ∧ (t' = t → left.1 = false)) ∧
      (s'.engine.hooks.isPending t' = true ↔
        s.engine.hooks.isPending t' = true ∧ (t' = t → left.1 = false)) := by
    intro t'
    by_cases condition : t' = t → left.1 = false
    · rw [show s'.engine.hooks.isInstalled t' = _ from (same t' condition).isInstalled,
        show s'.engine.hooks.isPending t' = _ from (same t' condition).isPending]
      exact ⟨(and_iff_left condition).symm, (and_iff_left condition).symm⟩
    · push Not at condition
      obtain ⟨own, alone⟩ := condition
      obtain ⟨notInstalled, notPending⟩ := last (Bool.not_eq_false _ |>.mp alone)
      rw [own, notInstalled, notPending]
      simp [alone]
  have uniform := coherent.uniform t
  have coherent' : Coherent [] s' := by
    constructor
    case anchored => exact anchored
    case ordered =>
      rw [probes]
      exact departure.ordered
    case observer => exact backdrop.observer.trans coherent.observer
    case hooked =>
      intro t'
      rw [(hooks t').1, probes, departure.installedAt_iff here uniform, coherent.hooked t']
      simp
    case waiting =>
      intro t'
      rw [(hooks t').2, probes, departure.pendingAt_iff here uniform, coherent.waiting t']
      simp
    case uniform =>
      intro t'
      rw [probes, departure.installedAt_iff here uniform, departure.pendingAt_iff here uniform]
      exact fun installed pending => coherent.uniform t' installed.1 pending.1
  refine ⟨⟨backdrop, coherent', fun aware => aware.of_backdrop backdrop fun t' => ?_⟩,
    fun k' => ?_, fun k' => ?_, fun k' known other => ?_⟩
  · rw [(hooks t').1, (hooks t').2]
    exact ⟨fun both => Or.inl both.1, fun both => Or.inl both.1⟩
  · rw [probes, departure.installs]
  · rw [probes, departure.awaits]
  · constructor
    case installs => rw [probes, departure.installs, and_iff_left other]
    case awaits => rw [probes, departure.awaits, and_iff_left other]
    case limiters => rw [probes, departure.limiters]
    case same =>
      intro t' there
      apply same
      intro own
      subst own
      rw [← Bool.not_eq_true, departure.last]
      exact fun only => other (only k' known there)

theorem removePending_parts (here : k.At t) (s : Setup) :
    let left := Probes.leave t k.probe.id (s.engine.probes.dropPending k.probe.id)
    let s' := s.removePending (k.probe.id, k)
    s'.engine.probes = left.2 ∧ s'.held = (if left.1 then s.held.forget t else s.held) ∧
      s'.engine.code = s.engine.code ∧ s'.engine.observer = s.engine.observer ∧
      s'.engine.propagate = s.engine.propagate := by
  have place : k.probe.target = .ok (some t) := here
  intro left s'
  have unfolded : s' = if left.1
      then (({ s with engine := { s.engine with probes := left.2 } } : Setup).onHooks
        (·.clearPending t)).2
      else { s with engine := { s.engine with probes := left.2 } } := by
    simp only [s', left, removePending, setProbes, onProbes, place]
    rcases Probes.leave t k.probe.id (s.engine.probes.dropPending k.probe.id) with ⟨last, ps⟩
    cases last <;> rfl
  rw [unfolded]
  cases left.1 <;> exact ⟨rfl, rfl, rfl, rfl, rfl⟩

theorem removePending_dismissal (coherent : Coherent [] s) (awaits : s.engine.probes.Awaits k) :
    Dismissal k s (s.removePending (k.probe.id, k)) := by
  obtain ⟨t, g, here, -⟩ := coherent.ordered.placed k (Or.inr awaits)
  have pendingAt : s.engine.probes.PendingAt t := ⟨k, awaits, here⟩
  obtain ⟨probes, held, code, observer, propagate⟩ := removePending_parts here s
  have departure := coherent.ordered.departure_of_awaits awaits here
  revert departure probes held
  generalize Probes.leave t k.probe.id (s.engine.probes.dropPending k.probe.id) = left
  intro probes held departure
  have frame : Hooking.Frame t s.held (s.removePending (k.probe.id, k)).held := by
    rw [held]
    split
    · exact Hooking.forget_frame t s.held
    · exact Hooking.Frame.refl t s.held
  refine Dismissal.of_departure coherent here departure probes
    ⟨frame.wiring, frame.defined, code, observer, propagate⟩ ?_ frame (fun shared => ?_)
    (fun last => ?_)
  · rw [held]
    split
    · exact Hooking.forget_anchored coherent.anchored t
    · exact coherent.anchored
  · rw [held, shared]
    exact Hooking.Same.refl t s.held
  · have forgotten : (s.removePending (k.probe.id, k)).held = s.held.forget t := by
      rw [held, last]
      rfl
    obtain ⟨pending, installed⟩ := Hooking.forget_state t s.held
    rw [← forgotten] at pending installed
    refine ⟨installed.trans ?_, pending⟩
    rw [Bool.eq_false_iff]
    intro hooked
    rcases (coherent.hooked t).mp hooked with installedAt | ⟨inflight, -⟩
    · exact coherent.uniform t installedAt pendingAt
    · cases inflight

structure Removal (k : KnownProbe) (s : Setup) (r : Except Error Unit × Setup) : Prop where
  done : r.1 = .ok () → Dismissal k s r.2
  failed : ∀ e, r.1 = .error e →
    Unmoved s r.2 ∧ Passage s r.2 ∧ ∃ c t, s.host.refuses c t = some e

theorem dismissal_of_shared (coherent : Coherent [] s) (installs : s.engine.probes.Installs k)
    (here : k.At t) (shares : s.engine.probes.sharesHook t k.probe.id = true) :
    Dismissal k s ((s.onProbes (Probes.leave t k.probe.id)).2.setProbes
      (·.dropInstalled k.probe.id)) := by
  have departure := coherent.ordered.departure_of_installs installs here
  refine Dismissal.of_departure coherent here departure rfl ⟨rfl, fun _ => rfl, rfl, rfl, rfl⟩
    coherent.anchored (Hooking.Frame.refl t s.held) (fun _ => Hooking.Same.refl t s.held)
    (fun last => ?_)
  obtain ⟨k', known, there, other⟩ :=
    (coherent.ordered.sharesHook_iff (Or.inl installs) here).mp shares
  exact absurd (departure.last.mp last k' known there) other

theorem removal_of_unshared (coherent : Coherent [] s) (installs : s.engine.probes.Installs k)
    (here : k.At t) (alone : s.engine.probes.sharesHook t k.probe.id = false) :
    Removal k s (match s.hooking (Hooking.unhook t) with
      | (.ok (), s) => (.ok (), (s.onProbes (Probes.leave t k.probe.id)).2.setProbes
          (·.dropInstalled k.probe.id))
      | (.error e, s) => (.error e, s.warn (.probeStays k.probe.id e))) := by
  have removal := Hooking.unhook_removal coherent.anchored t
  have departure := coherent.ordered.departure_of_installs installs here
  unfold hooking
  rcases unhooked : Hooking.unhook t s.held with ⟨answer, h⟩
  rw [unhooked] at removal
  rw [show (⟨s.host, s.engine.hooks, s.warnings⟩ : Hooking) = s.held from rfl, unhooked]
  have backdrop : ∀ probes delivery, Backdrop s ⟨h.host, { s.engine with
      hooks := h.hooks, probes, delivery }, s.journal, h.warnings⟩ :=
    fun _ _ => ⟨removal.frame.wiring, removal.frame.defined, rfl, rfl, rfl⟩
  cases answer with
  | ok _ =>
    refine ⟨fun _ => ?_, fun e h => by simp at h⟩
    refine Dismissal.of_departure coherent here departure rfl (backdrop _ _) removal.anchored
      removal.frame (fun shared => ?_) (fun _ => ⟨removal.removed rfl, ?_⟩)
    · rw [← Bool.not_eq_true, departure.last] at shared
      push Not at shared
      rw [(coherent.ordered.sharesHook_iff (Or.inl installs) here).mpr shared] at alone
      cases alone
    · have pending : h.hooks.isPending t = s.engine.hooks.isPending t := by
        cases t with
        | method m => exact congrArg (Table.contains m) removal.pendingMethods
        | line l => exact congrArg (Table.contains l) removal.pendingLines
      refine pending.trans (Bool.eq_false_iff.mpr fun waiting => ?_)
      exact coherent.uniform t ⟨k, installs, here⟩ ((coherent.waiting t).mp waiting).1
  | error e =>
    refine ⟨fun h => by simp at h, fun e' same => ?_⟩
    cases same
    obtain ⟨same, reason⟩ := removal.refused e rfl
    have unmoved : Unmoved s
        ⟨h.host, { s.engine with hooks := h.hooks }, s.journal, h.warnings⟩ := by
      refine ⟨backdrop _ _, rfl, fun t' => ?_⟩
      by_cases own : t' = t
      · rw [own]
        exact same
      · exact removal.frame.apart t' own
    refine ⟨unmoved.trans (unmoved_warn _ _), ?_, reason⟩
    exact (Passage.of_unmoved coherent unmoved removal.anchored).warn _

theorem removeInstalled_removal (coherent : Coherent [] s) (installs : s.engine.probes.Installs k) :
    Removal k s (s.removeInstalled k.probe.id k) := by
  obtain ⟨t, g, here, -⟩ := coherent.ordered.placed k (Or.inl installs)
  have place : k.probe.target = .ok (some t) := here
  unfold removeInstalled
  rw [place]
  dsimp only
  cases shares : s.engine.probes.sharesHook t k.probe.id with
  | true =>
    simp only [if_true]
    exact ⟨fun _ => dismissal_of_shared coherent installs here shares, fun e h => by simp at h⟩
  | false =>
    simp only [Bool.false_eq_true, if_false]
    have removal := removal_of_unshared coherent installs here shares
    rcases unhooked : s.hooking (Hooking.unhook t) with ⟨answer, s'⟩
    rw [unhooked] at removal
    cases answer <;> exact removal

/-- What removing some of the known probes comes to; they are all gone unless the host refuses. -/
structure Sweep (listed : List KnownProbe) (s s' : Setup) : Prop extends Passage s s' where
  fewer : ∀ k, s'.engine.probes.Knows k → s.engine.probes.Knows k
  kept : ∀ k, s.engine.probes.Knows k → k ∉ listed → Keeps k s s'
  gone : (∀ c t, s.host.refuses c t = none) → ∀ k ∈ listed, ¬ s'.engine.probes.Knows k

theorem Sweep.refl (coherent : Coherent [] s) : Sweep [] s s :=
  ⟨Passage.refl coherent, fun _ => id, fun k _ _ => Keeps.refl k s,
    fun _ k listed => by cases listed⟩

theorem Backdrop.refuses (backdrop : Backdrop s s') : s'.host.refuses = s.host.refuses :=
  congrArg Hooking.Wiring.refuses backdrop.wiring

theorem Sweep.trans {listed listed' : List KnownProbe} (first : Sweep listed s s')
    (second : Sweep listed' s' s'') : Sweep (listed ++ listed') s s'' where
  toPassage := first.toPassage.trans second.toPassage
  fewer k known := first.fewer k (second.fewer k known)
  kept k known absent := by
    simp only [List.mem_append, not_or] at absent
    have keeps := first.kept k known absent.1
    exact keeps.trans (second.kept k (keeps.knows.mpr known) absent.2)
  gone willing k listed known := by
    rcases List.mem_append.mp listed with early | late
    · exact first.gone willing k early (second.fewer k known)
    · exact second.gone (by rw [first.backdrop.refuses]; exact willing) k late known

theorem Dismissal.sweep (dismissal : Dismissal k s s') : Sweep [k] s s' where
  toPassage := dismissal.toPassage
  fewer k' known := known.imp (fun h => ((dismissal.installs k').mp h).1)
    (fun h => ((dismissal.awaits k').mp h).1)
  kept k' known absent := dismissal.kept k' known (by simpa using absent)
  gone _ k' listed known := by
    rw [List.mem_singleton] at listed
    rcases known with installs | awaits
    · exact ((dismissal.installs k').mp installs).2 listed
    · exact ((dismissal.awaits k').mp awaits).2 listed

theorem Removal.sweep {r : Except Error Unit × Setup} (removal : Removal k s r) :
    Sweep [k] s r.2 := by
  obtain ⟨answer, s'⟩ := r
  cases answer with
  | ok _ => exact (removal.done rfl).sweep
  | error e =>
    obtain ⟨unmoved, passage, c, t, refuses⟩ := removal.failed e rfl
    refine ⟨passage, fun k' known => (unmoved.keeps k').knows.mp known,
      fun k' _ _ => unmoved.keeps k', fun willing => ?_⟩
    rw [willing] at refuses
    cases refuses

theorem foldl_removePending_sweep (gone : List KnownProbe) :
    ∀ {s : Setup}, Coherent [] s → gone.Nodup → (∀ k ∈ gone, s.engine.probes.Awaits k) →
      Sweep gone s ((gone.map Probes.entry).foldl removePending s) := by
  induction gone with
  | nil =>
    intro s coherent _ _
    exact Sweep.refl coherent
  | cons k rest ih =>
    intro s coherent nodup listed
    obtain ⟨fresh, nodupRest⟩ := List.nodup_cons.mp nodup
    obtain ⟨awaits, later⟩ := List.forall_mem_cons.mp listed
    have first := removePending_dismissal coherent awaits
    refine first.sweep.trans (ih first.coherent nodupRest fun k' member => ?_)
    refine (first.awaits k').mpr ⟨later k' member, ?_⟩
    intro same
    subst same
    exact fresh member

theorem removeAllInstalled_sweep (gone : List KnownProbe) :
    ∀ {s : Setup}, Coherent [] s → gone.Nodup → (∀ k ∈ gone, s.engine.probes.Installs k) →
      Sweep gone s (s.removeAllInstalled (gone.map Probes.entry)).2 ∧
        ((∀ c t, s.host.refuses c t = none) →
          (s.removeAllInstalled (gone.map Probes.entry)).1 = .ok ()) := by
  induction gone with
  | nil =>
    intro s coherent _ _
    exact ⟨Sweep.refl coherent, fun _ => rfl⟩
  | cons k rest ih =>
    intro s coherent nodup listed
    obtain ⟨fresh, nodupRest⟩ := List.nodup_cons.mp nodup
    obtain ⟨installs, later⟩ := List.forall_mem_cons.mp listed
    have removal := removeInstalled_removal coherent installs
    have first := removal.sweep
    have still : ∀ k' ∈ rest, (s.removeInstalled k.probe.id k).2.engine.probes.Installs k' := by
      intro k' member
      have absent : k' ∉ [k] := fun same => fresh (List.mem_singleton.mp same ▸ member)
      exact (first.kept k' (Or.inl (later k' member)) absent).installs.mpr (later k' member)
    obtain ⟨second, complete⟩ := ih first.coherent nodupRest still
    refine ⟨first.trans second, fun willing => ?_⟩
    have accepted : (s.removeInstalled k.probe.id k).1 = .ok () := by
      rcases answer : (s.removeInstalled k.probe.id k).1 with e | ⟨⟩
      · obtain ⟨-, -, c, t, refuses⟩ := removal.failed e answer
        rw [willing] at refuses
        cases refuses
      · rfl
    simp only [List.map_cons, Probes.entry, removeAllInstalled, accepted]
    exact complete (by rw [first.backdrop.refuses]; exact willing)

structure Retention (named : List String) (s : Setup) (r : Except Error Unit × Setup) : Prop
    extends Passage s r.2 where
  fewer : ∀ k, r.2.engine.probes.Knows k → s.engine.probes.Knows k
  kept : ∀ k, s.engine.probes.Knows k → k.probe.id ∈ named → Keeps k s r.2
  complete : (∀ c t, s.host.refuses c t = none) →
    r.1 = .ok () ∧ ∀ k, r.2.engine.probes.Knows k → k.probe.id ∈ named

theorem keepProbes_retention (coherent : Coherent [] s) (named : List String) :
    Retention named s (s.keepProbes named) := by
  have ordered := coherent.ordered
  have mem_pending : ∀ k, k ∈ Probes.unnamed named s.engine.probes.pending ↔
      s.engine.probes.Awaits k ∧ k.probe.id ∉ named :=
    fun k => ordered.pending.mem_unnamed named
  have first := foldl_removePending_sweep (Probes.unnamed named s.engine.probes.pending) coherent
    (ordered.pending.nodup_unnamed named)
    fun k member => ((mem_pending k).mp member).1
  rw [← ordered.pending.others_eq] at first
  unfold keepProbes
  dsimp only
  generalize (Probes.others named s.engine.probes.pending).foldl removePending s = s' at first ⊢
  have ordered' := first.coherent.ordered
  have mem_installed : ∀ k, k ∈ Probes.unnamed named s'.engine.probes.installed ↔
      s'.engine.probes.Installs k ∧ k.probe.id ∉ named :=
    fun k => ordered'.installed.mem_unnamed named
  obtain ⟨second, accepted⟩ :=
    removeAllInstalled_sweep (Probes.unnamed named s'.engine.probes.installed) first.coherent
      (ordered'.installed.nodup_unnamed named)
      fun k member => ((mem_installed k).mp member).1
  rw [← ordered'.installed.others_eq] at second accepted
  rcases removed : s'.removeAllInstalled (Probes.others named s'.engine.probes.installed) with
    ⟨answer, s''⟩
  rw [removed] at second accepted
  dsimp only at second accepted ⊢
  have both := first.trans second
  refine ⟨both.toPassage, both.fewer, fun k known listed => ?_,
    fun willing => ⟨?_, fun k known => ?_⟩⟩
  · apply both.kept k known
    intro member
    rcases List.mem_append.mp member with early | late
    · exact ((mem_pending k).mp early).2 listed
    · exact ((mem_installed k).mp late).2 listed
  · have ok : answer = .ok () := accepted (by rw [first.backdrop.refuses]; exact willing)
    rw [ok]
    exact ite_self _
  · by_contra notNamed
    have still := second.fewer k known
    have before := first.fewer k still
    have notPending : k ∉ Probes.unnamed named s.engine.probes.pending :=
      fun member => first.gone willing k member still
    -- it was kept by the first pass, hence installed, hence met by the second
    have keeps := first.kept k before notPending
    have installs : s'.engine.probes.Installs k := still.resolve_right fun awaits =>
      notPending ((mem_pending k).mpr ⟨keeps.awaits.mp awaits, notNamed⟩)
    have member := (mem_installed k).mpr ⟨installs, notNamed⟩
    exact second.gone (by rw [first.backdrop.refuses]; exact willing) k member known

end LiveProbe.Setup
