import LiveProbe.Proofs.Hook.Renewal
import LiveProbe.Proofs.Traffic.Step

/-!
What holds for one target while threads are under way. Its hook is installed or waits, and the
probes at it are installed or pending, but the two need not go together: a waiting hook that has
been installed is in flight until its probes are promoted, and a probe whose hook has been asked for
is on its way into the roster.
-/
namespace LiveProbe

def Job.Tells : Job → HookTarget → Prop
  | .notify targets, t => t ∈ targets
  | _, _ => False

def Job.Heralds : Job → HookTarget → Prop
  | .announce arrival, t => arrival.covers t
  | .install arrival, t => arrival.covers t
  | _, _ => False

namespace Traffic

variable {s s' : Traffic} {t : HookTarget}

def Hooked (s : Traffic) (t : HookTarget) : Prop := s.setup.engine.hooks.isInstalled t = true

def Waits (s : Traffic) (t : HookTarget) : Prop := s.setup.engine.hooks.isPending t = true

def Entering (s : Traffic) (t : HookTarget) (installed : Bool) : Prop :=
  ∃ p, s.holder = some (.enter p t installed)

def Staffed (s : Traffic) (t : HookTarget) : Prop :=
  s.setup.engine.probes.InstalledAt t ∨ s.Entering t true

def Awaited (s : Traffic) (t : HookTarget) : Prop :=
  s.setup.engine.probes.PendingAt t ∨ s.Entering t false

/-- Somebody is still to be told that the hook has been installed. -/
def InFlight (s : Traffic) (t : HookTarget) : Prop := ∃ job ∈ s.jobs, job.Tells t

def Heralded (s : Traffic) (t : HookTarget) : Prop := ∃ job ∈ s.jobs, job.Heralds t

structure Balanced (s : Traffic) (t : HookTarget) : Prop where
  staffed : s.Staffed t → s.Hooked t
  awaited : s.Awaited t → s.Waits t ∨ s.Hooked t ∧ s.InFlight t
  waits : s.Waits t → s.Awaited t
  hooked : s.Hooked t → s.Staffed t ∨ s.Awaited t ∧ s.InFlight t ∨ s.astray t
  uniform : s.Staffed t → ¬ s.Awaited t
  apart : s.Hooked t → ¬ s.Waits t
  astray : s.astray t → s.Hooked t ∧ ¬ s.Staffed t ∧ ¬ s.Awaited t
  granted : s.Hooked t → s.setup.Grants t
  landed : s.InFlight t → s.setup.Grants t ∧ ¬ s.Waits t
  heralded : s.Waits t → s.setup.Grants t → s.Heralded t

/-- Nothing is different about a target but that it may be granted now, which is heralded. -/
structure Undisturbed (t : HookTarget) (s s' : Traffic) : Prop where
  hooked : s'.Hooked t ↔ s.Hooked t
  waits : s'.Waits t ↔ s.Waits t
  staffed : s'.Staffed t ↔ s.Staffed t
  awaited : s'.Awaited t ↔ s.Awaited t
  inFlight : s'.InFlight t ↔ s.InFlight t
  astray : s'.astray t ↔ s.astray t
  granted : s.setup.Grants t → s'.setup.Grants t
  heralded : s.Waits t → s'.setup.Grants t → (s.setup.Grants t → s.Heralded t) → s'.Heralded t

theorem Balanced.of_undisturbed (balanced : Balanced s t) (same : Undisturbed t s s') :
    Balanced s' t := by
  constructor <;> simp only [same.hooked, same.waits, same.staffed, same.awaited, same.inFlight,
    same.astray]
  case staffed => exact balanced.staffed
  case awaited => exact balanced.awaited
  case waits => exact balanced.waits
  case hooked => exact balanced.hooked
  case uniform => exact balanced.uniform
  case apart => exact balanced.apart
  case astray => exact balanced.astray
  case granted => exact fun hooked => same.granted (balanced.granted hooked)
  case landed => exact fun told => (balanced.landed told).imp_left same.granted
  case heralded =>
    exact fun waits granted => same.heralded waits granted (balanced.heralded waits)

theorem inFlight_of_ready {job : Job} {others : Multiset Job} (ready : s.jobs = job ::ₘ others)
    (t : HookTarget) : s.InFlight t ↔ job.Tells t ∨ ∃ other ∈ others, other.Tells t := by
  unfold InFlight
  rw [ready]
  simp only [Multiset.mem_cons, or_and_right, exists_or, exists_eq_left]

theorem heralded_of_ready {job : Job} {others : Multiset Job} (ready : s.jobs = job ::ₘ others)
    (t : HookTarget) : s.Heralded t ↔ job.Heralds t ∨ ∃ other ∈ others, other.Heralds t := by
  unfold Heralded
  rw [ready]
  simp only [Multiset.mem_cons, or_and_right, exists_or, exists_eq_left]

theorem exists_mem_add {next others : Multiset Job} {p : Job → Prop} :
    (∃ job ∈ next + others, p job) ↔ (∃ job ∈ next, p job) ∨ ∃ job ∈ others, p job := by
  simp only [Multiset.mem_add, or_and_right, exists_or]

end Traffic
end LiveProbe
