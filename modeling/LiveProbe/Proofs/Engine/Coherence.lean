import LiveProbe.Engine.Component
import LiveProbe.Proofs.Hook.Waiting
import LiveProbe.Proofs.Probe.Turnover

/-!
Coherence of an engine. Its hooks and its roster are told apart by no target: hooks are installed
for the targets of installed probes and wait for those of pending ones. Between the installation of
a waiting hook and the promotion of its probes, the target is in flight.
-/
namespace LiveProbe.Setup

variable {s s' s'' : Setup} {k : KnownProbe}

def held (s : Setup) : Hooking := ⟨s.host, s.engine.hooks, s.warnings⟩

/-- Neither the wiring nor what there is to hook differs. -/
structure Backdrop (s s' : Setup) : Prop where
  wiring : s'.held.wiring = s.held.wiring
  defined : ∀ m, (s'.host.body? m).isSome = (s.host.body? m).isSome
  code : s'.engine.code = s.engine.code
  observer : s'.engine.observer = s.engine.observer
  propagate : s'.engine.propagate = s.engine.propagate

theorem Backdrop.refl (s : Setup) : Backdrop s s := ⟨rfl, fun _ => rfl, rfl, rfl, rfl⟩

theorem Backdrop.trans (first : Backdrop s s') (second : Backdrop s' s'') : Backdrop s s'' where
  wiring := second.wiring.trans first.wiring
  defined m := (second.defined m).trans (first.defined m)
  code := second.code.trans first.code
  observer := second.observer.trans first.observer
  propagate := second.propagate.trans first.propagate

def Grants (s : Setup) (t : HookTarget) : Prop := s.held.Grants s.engine.code t

theorem Backdrop.grants_iff (backdrop : Backdrop s s') (t : HookTarget) :
    s'.Grants t ↔ s.Grants t := by
  unfold Grants
  rw [backdrop.code]
  exact Hooking.grants_congr backdrop.wiring backdrop.defined

structure Keeps (k : KnownProbe) (s s' : Setup) : Prop where
  installs : s'.engine.probes.Installs k ↔ s.engine.probes.Installs k
  awaits : s'.engine.probes.Awaits k ↔ s.engine.probes.Awaits k
  limiters : s'.engine.probes.limiters = s.engine.probes.limiters
  same : ∀ t, k.At t → Hooking.Same t s.held s'.held

theorem Keeps.refl (k : KnownProbe) (s : Setup) : Keeps k s s :=
  ⟨Iff.rfl, Iff.rfl, rfl, fun t _ => Hooking.Same.refl t s.held⟩

theorem Keeps.trans (first : Keeps k s s') (second : Keeps k s' s'') : Keeps k s s'' where
  installs := second.installs.trans first.installs
  awaits := second.awaits.trans first.awaits
  limiters := second.limiters.trans first.limiters
  same t here := (first.same t here).trans (second.same t here)

theorem Keeps.knows (keeps : Keeps k s s') :
    s'.engine.probes.Knows k ↔ s.engine.probes.Knows k := or_congr keeps.installs keeps.awaits

structure Unmoved (s s' : Setup) : Prop where
  backdrop : Backdrop s s'
  probes : s'.engine.probes = s.engine.probes
  same : ∀ t, Hooking.Same t s.held s'.held

theorem Unmoved.refl (s : Setup) : Unmoved s s :=
  ⟨Backdrop.refl s, rfl, fun t => Hooking.Same.refl t s.held⟩

theorem Unmoved.trans (first : Unmoved s s') (second : Unmoved s' s'') : Unmoved s s'' where
  backdrop := first.backdrop.trans second.backdrop
  probes := second.probes.trans first.probes
  same t := (first.same t).trans (second.same t)

theorem Unmoved.keeps (unmoved : Unmoved s s') (k : KnownProbe) : Keeps k s s' := by
  refine ⟨?_, ?_, ?_, fun t _ => unmoved.same t⟩ <;> rw [unmoved.probes]

theorem unmoved_warn (w : Warning) (s : Setup) : Unmoved s (s.warn w) where
  backdrop := ⟨rfl, fun _ => rfl, rfl, rfl, rfl⟩
  probes := rfl
  same
    | .method _ => ⟨rfl, rfl, rfl, rfl⟩
    | .line _ => ⟨rfl, rfl, rfl⟩

theorem unmoved_note (o : Occurrence) (s : Setup) : Unmoved s (s.note o) where
  backdrop := ⟨rfl, fun _ => rfl, rfl, rfl, rfl⟩
  probes := rfl
  same t := Hooking.Same.refl t s.held

theorem unmoved_tellStatus (p : Probe) (status : ProbeStatus) (s : Setup) :
    Unmoved s (s.tellStatus p status) where
  backdrop := ⟨rfl, fun _ => rfl, rfl, rfl, rfl⟩
  probes := rfl
  same t := Hooking.Same.refl t s.held

theorem unmoved_tell (n : Notice) (s : Setup) : Unmoved s (s.tell n) where
  backdrop := ⟨rfl, fun _ => rfl, rfl, rfl, rfl⟩
  probes := rfl
  same t := Hooking.Same.refl t s.held

theorem unmoved_settleDelivery (s : Setup) : Unmoved s s.settleDelivery where
  backdrop := ⟨rfl, fun _ => rfl, rfl, rfl, rfl⟩
  probes := rfl
  same t := Hooking.Same.refl t s.held

structure Coherent (inflight : List HookTarget) (s : Setup) : Prop where
  anchored : s.held.Anchored
  ordered : s.engine.probes.Ordered
  observer : s.engine.observer = .probes
  hooked : ∀ t, s.engine.hooks.isInstalled t = true ↔
    s.engine.probes.InstalledAt t ∨ t ∈ inflight ∧ s.engine.probes.PendingAt t
  waiting : ∀ t, s.engine.hooks.isPending t = true ↔ s.engine.probes.PendingAt t ∧ t ∉ inflight
  uniform : ∀ t, s.engine.probes.InstalledAt t → ¬ s.engine.probes.PendingAt t

theorem Coherent.of_unmoved {inflight : List HookTarget} (coherent : Coherent inflight s)
    (unmoved : Unmoved s s') (anchored : s'.held.Anchored) : Coherent inflight s' := by
  obtain ⟨backdrop, probes, same⟩ := unmoved
  constructor
  case anchored => exact anchored
  case ordered =>
    rw [probes]
    exact coherent.ordered
  case observer =>
    rw [backdrop.observer]
    exact coherent.observer
  case hooked =>
    intro t
    rw [probes, show s'.engine.hooks.isInstalled t = _ from (same t).isInstalled]
    exact coherent.hooked t
  case waiting =>
    intro t
    rw [probes, show s'.engine.hooks.isPending t = _ from (same t).isPending]
    exact coherent.waiting t
  case uniform =>
    rw [probes]
    exact coherent.uniform

theorem Coherent.warn {inflight : List HookTarget} (coherent : Coherent inflight s)
    (w : Warning) : Coherent inflight (s.warn w) :=
  coherent.of_unmoved (unmoved_warn w s)
    (coherent.anchored.of_methods rfl rfl rfl rfl rfl coherent.anchored.home)

theorem Coherent.tellStatus {inflight : List HookTarget} (coherent : Coherent inflight s)
    (p : Probe) (status : ProbeStatus) : Coherent inflight (s.tellStatus p status) :=
  coherent.of_unmoved (unmoved_tellStatus p status s) coherent.anchored

theorem Coherent.exclusive {inflight : List HookTarget} (coherent : Coherent inflight s) :
    s.held.Exclusive := by
  intro t pending
  obtain ⟨pendingAt, landed⟩ := (coherent.waiting t).mp pending
  rw [Bool.eq_false_iff]
  intro installed
  rcases (coherent.hooked t).mp installed with installedAt | ⟨inflight, -⟩
  · exact coherent.uniform t installedAt pendingAt
  · exact landed inflight

/-- Hooks are installed where they are granted, and wait elsewhere. -/
def Aware (s : Setup) : Prop := ∀ t, (s.engine.hooks.isInstalled t = true → s.Grants t) ∧
  (s.engine.hooks.isPending t = true → ¬ s.Grants t)

theorem Aware.of_backdrop (aware : Aware s) (backdrop : Backdrop s s')
    (hooks : ∀ t, (s'.engine.hooks.isInstalled t = true →
        s.engine.hooks.isInstalled t = true ∨ s.Grants t) ∧
      (s'.engine.hooks.isPending t = true → s.engine.hooks.isPending t = true ∨ ¬ s.Grants t)) :
    Aware s' := by
  intro t
  rw [backdrop.grants_iff]
  refine ⟨fun installed => ?_, fun pending => ?_⟩
  · exact ((hooks t).1 installed).elim (aware t).1 id
  · exact ((hooks t).2 pending).elim (aware t).2 id

theorem Aware.of_unmoved (aware : Aware s) (unmoved : Unmoved s s') : Aware s' := by
  refine aware.of_backdrop unmoved.backdrop fun t => ⟨fun installed => ?_, fun pending => ?_⟩
  · rw [show s'.engine.hooks.isInstalled t = _ from (unmoved.same t).isInstalled] at installed
    exact Or.inl installed
  · rw [show s'.engine.hooks.isPending t = _ from (unmoved.same t).isPending] at pending
    exact Or.inl pending

/-- What every step of the engine keeps. -/
structure Passage (s s' : Setup) : Prop where
  backdrop : Backdrop s s'
  coherent : Coherent [] s'
  aware : Aware s → Aware s'

theorem Passage.refl (coherent : Coherent [] s) : Passage s s := ⟨Backdrop.refl s, coherent, id⟩

theorem Passage.trans (first : Passage s s') (second : Passage s' s'') : Passage s s'' where
  backdrop := first.backdrop.trans second.backdrop
  coherent := second.coherent
  aware := second.aware ∘ first.aware

theorem Passage.of_unmoved (coherent : Coherent [] s) (unmoved : Unmoved s s')
    (anchored : s'.held.Anchored) : Passage s s' where
  backdrop := unmoved.backdrop
  coherent := coherent.of_unmoved unmoved anchored
  aware aware := aware.of_unmoved unmoved

theorem Passage.warn (passage : Passage s s') (w : Warning) : Passage s (s'.warn w) where
  backdrop := passage.backdrop.trans (unmoved_warn w s').backdrop
  coherent := passage.coherent.warn w
  aware aware := (passage.aware aware).of_unmoved (unmoved_warn w s')

end LiveProbe.Setup
