import LiveProbe.Proofs.World.Equipment

/-!
Hooks that stay what they are. A hook is laid on the program that its method is, and only a
definition of the method takes it away. Where no program around defines the method, neither by
itself nor by what it defines, and no event does, the hooks of the method are not stale.
-/
namespace LiveProbe

/-- Definitions that leave a method as it is, and whose programs make no others. -/
inductive Spares (m : MethodName) : String → List (String × Code) → Prop where
  | intro {typeName : String} {methods : List (String × Code)}
    (own : m.typeName = typeName → m.name ∉ methods.map (·.1))
    (programs : ∀ e ∈ methods, ∀ typeName' methods', .define typeName' methods' ∈ e.2 →
      Spares m typeName' methods') : Spares m typeName methods

namespace Setup

variable {s : Setup} {D : DefinitionKind} {fine : Code → Prop} {stale : MethodName → Prop}
  {propagate untargeted : Bool} {r : Reporter} {m : MethodName}

/-- What an engine and its host keep between them. -/
def Upheld (fine : Code → Prop) (stale : MethodName → Prop) (r : Reporter) (s : Setup) : Prop :=
  s.Equipped fine stale ∧ s.engine.probes.Serialized ∧ s.engine.reporter = r

theorem kept_upheld (given : ∀ typeName methods, D typeName methods → ∀ e ∈ methods, fine e.2)
    (anew : ∀ typeName methods, D typeName methods → ∀ m : MethodName, m.typeName = typeName →
      m.name ∈ methods.map (·.1) → stale m) (r : Reporter) : Kept D (Upheld fine stale r) :=
  (kept_equipped given anew).and
    ((kept_of_enduring Probes.enduring_serialized).and (kept_reporter r))

theorem upheld_start {h : Host} (pristine : Pristine h) (settings : Settings) (origin : Origin)
    (journal : List Occurrence) (warnings : List Warning) :
    Upheld (fun _ => True) (fun _ => True) (settings.reporter origin)
      (unstarted settings origin h journal warnings).start := by
  obtain ⟨registry, tracked, -⟩ :=
    track_unstarted pristine.lists settings origin journal warnings
  unfold start
  rw [tracked]
  refine ⟨fun t => ?_, Probes.serialized_empty _, rfl⟩
  cases t with
  | method m =>
    refine Hooking.Equipped.bare rfl rfl (fun body found => ?_) _
    obtain ⟨code, program⟩ := pristine.plain m body found
    exact ⟨code, trivial, program⟩
  | line l =>
    refine ⟨fun t member => ?_, fun callback found => by cases found⟩
    have listed : t ∈ h.traces := (List.mem_filter.mp member).1
    rw [pristine.traces] at listed
    cases listed

theorem Equipped.refine (equipped : s.Equipped (fun _ => True) fun _ => True)
    (programs : ∀ m body, s.host.body? m = some body → body.Within D)
    (fresh : ∀ m code, ¬ stale m → s.host.body? m = some (.program code) →
      s.engine.hooks.isInstalled (.method m) = false) : s.Equipped (Code.Within D) stale := by
  intro t
  cases t with
  | line l => exact equipped (.line l)
  | method m =>
    have own : s.held.Equipped (fun _ => True) True m _ := equipped (.method m)
    constructor
    case free =>
      intro free body found
      obtain ⟨code, -, rfl⟩ := own.free free body found
      exact ⟨code, programs m _ found, rfl⟩
    case hooked =>
      intro e found
      obtain ⟨i, code, positive, slot, entry, body⟩ := own.hooked e found
      refine ⟨i, code, positive, slot, entry, ?_⟩
      rcases body with ⟨-, anew, -, defined⟩ | ⟨-, g, group, laid⟩
      · refine Or.inl ⟨by_contra fun lasting => ?_, anew, programs m _ defined, defined⟩
        have installed : s.engine.hooks.isInstalled (.method m) = true :=
          Table.contains_iff.mpr ⟨e, found⟩
        rw [fresh m anew lasting defined] at installed
        cases installed
      · exact Or.inr ⟨(programs m _ laid).2, g, group, laid⟩
    case waiting => exact own.waiting

theorem Equipped.within (equipped : s.Equipped (Code.Within D) stale)
    (attuned : Attuned propagate untargeted s) : s.host.Within D where
  bodies m body found := by
    have own : s.held.Equipped (Code.Within D) (stale m) m _ := equipped (.method m)
    obtain ⟨code, fine, rfl | ⟨i, g, -, -, -, rfl⟩⟩ := own.body_cases found
    · exact fine
    · exact ⟨trivial, fine⟩
  traces t member := by
    obtain ⟨l, g, -, -, probes⟩ := equipped.trace attuned.composed.coherent.anchored member
    rw [probes]
    trivial

end Setup

namespace World

variable {propagate untargeted : Bool} {r : Reporter} {m : MethodName}

theorem history_upheld (fuel : Nat) (settings : Settings) (origin : Origin)
    (before later : List Event) (w : World) :
    (w.history fuel settings origin before later).Hosts fun s =>
      Setup.Attuned settings.propagate settings.untargetedTracing s ∧
        Setup.Upheld (fun _ => True) (fun _ => True) (settings.reporter origin) s :=
  history_hosts
    (Setup.kept_upheld (fun _ _ _ _ _ => trivial) (fun _ _ _ _ _ _ => trivial) _).stable
    settings origin
    (fun _ journal warnings pristine =>
      ⟨Setup.attuned_start pristine settings origin journal warnings,
        Setup.upheld_start pristine settings origin journal warnings⟩)
    fuel before later w

/-- No program defines a method, and it is not one while an engine has it hooked. -/
structure Intact (w : World) (m : MethodName) : Prop where
  spared : ∀ m' body, w.host.body? m' = some body → body.Within (Spares m)
  fresh : ∀ code, w.host.body? m = some (.program code) →
    ∀ e ∈ w.engines, e.hooks.isInstalled (.method m) = false

theorem Hosts.after_intact {w : World}
    (hosts : w.Hosts fun s => Setup.Attuned propagate untargeted s ∧
      Setup.Upheld (fun _ => True) (fun _ => True) r s)
    (intact : w.Intact m) (fuel : Nat) {events : List Event}
    (spare : ∀ event ∈ events, event.Within (Spares m)) :
    (w.after fuel events).Hosts fun s => Setup.Attuned propagate untargeted s ∧
      Setup.Upheld (Code.Within (Spares m)) (· ≠ m) r s := by
  have refined : w.Hosts fun s => Setup.Attuned propagate untargeted s ∧
      Setup.Upheld (Code.Within (Spares m)) (· ≠ m) r s := by
    obtain ⟨e, only, attuned, equipped, rest⟩ := hosts
    refine ⟨e, only, attuned, equipped.refine intact.spared fun m' code own defined => ?_, rest⟩
    obtain rfl := not_not.mp own
    exact intact.fresh code defined e (only ▸ List.mem_singleton_self e)
  have kept : Setup.Kept (Spares m) (Setup.Upheld (Code.Within (Spares m)) (· ≠ m) r) := by
    refine Setup.kept_upheld (fun _ _ spares => ?_) (fun _ _ spares m' own listed same => ?_) r
    · cases spares with
      | intro _ programs => exact programs
    · subst same
      cases spares with
      | intro own' _ => exact own' own listed
  have within := fun s (attuned : Setup.Attuned propagate untargeted s)
    (upheld : Setup.Upheld (Code.Within (Spares m)) (· ≠ m) r s) => upheld.1.within attuned
  exact (kept.confined within).after fuel events spare refined

end World
end LiveProbe
