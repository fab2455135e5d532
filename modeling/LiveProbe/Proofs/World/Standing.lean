import LiveProbe.Proofs.World.History
import Mathlib.Data.List.Dedup

/-!
How probes stand at any time in the history of an engine. Roster, groups, hooks and the traces of
the host tell the same; and a probe is installed as soon as there is something to hook for it.
-/
namespace LiveProbe

namespace Probes

variable {ps : Probes} {k : KnownProbe} {t : HookTarget}

def lineOf (k : KnownProbe) : Option SourceLine :=
  match k.probe.target with
  | .ok (some (.line l)) => some l
  | _ => none

def installedLines (ps : Probes) : List SourceLine := (ps.installed.map (·.2)).filterMap lineOf

theorem lineOf_eq_some_iff {l : SourceLine} : lineOf k = some l ↔ k.At (.line l) := by
  unfold lineOf KnownProbe.At
  split
  · rename_i own place
    simp [place]
  · rename_i elsewhere
    simp only [reduceCtorEq, false_iff]
    exact fun place => elsewhere l place

theorem Grouped.mem_installedLines (grouped : ps.Grouped) {l : SourceLine} :
    l ∈ ps.installedLines ↔ ps.InstalledAt (.line l) := by
  unfold installedLines
  rw [List.mem_filterMap]
  apply exists_congr
  intro k
  rw [grouped.installed.mem_probes, lineOf_eq_some_iff]
  exact Iff.rfl

end Probes

namespace Setup

variable {s : Setup} {k : KnownProbe} {t : HookTarget} {propagate untargeted : Bool}

/-- Roster, groups, hooks and traces tell the same. -/
structure Consistent (s : Setup) : Prop where
  apart : ∀ id, ¬ (s.engine.probes.isInstalled id = true ∧ s.engine.probes.isPending id = true)
  known : ∀ id, s.engine.probes.isKnown id = true ↔
    ∃ k, s.engine.probes.Knows k ∧ k.probe.id = id
  grouped : ∀ t, (∃ k, s.engine.probes.Knows k ∧ k.At t) →
    ∃ g, Table.get? t s.engine.probes.groups = some g ∧ (s.engine.probes.membersOf g).Nodup ∧
      ∀ k, k ∈ s.engine.probes.membersOf g ↔ s.engine.probes.Knows k ∧ k.At t
  inhabited : ∀ t g, Table.get? t s.engine.probes.groups = some g →
    s.engine.probes.membersOf g ≠ []
  hooked : ∀ t, s.engine.hooks.isInstalled t = true ↔ s.engine.probes.InstalledAt t
  waiting : ∀ t, s.engine.hooks.isPending t = true ↔ s.engine.probes.PendingAt t
  uniform : ∀ t, s.engine.probes.InstalledAt t → ¬ s.engine.probes.PendingAt t
  traced : s.host.traces.length = s.engine.probes.installedLines.dedup.length

theorem Coherent.hooked_iff (coherent : Coherent [] s) (t : HookTarget) :
    s.engine.hooks.isInstalled t = true ↔ s.engine.probes.InstalledAt t := by
  rw [coherent.hooked t]
  simp

theorem Coherent.waiting_iff (coherent : Coherent [] s) (t : HookTarget) :
    s.engine.hooks.isPending t = true ↔ s.engine.probes.PendingAt t := by
  rw [coherent.waiting t]
  simp

theorem Coherent.length_traces (coherent : Coherent [] s) :
    s.host.traces.length = s.engine.probes.installedLines.dedup.length := by
  have traced := congrArg List.length coherent.anchored.traced
  rw [List.length_map, List.length_map] at traced
  have same : (Table.keys s.engine.hooks.lines).Perm s.engine.probes.installedLines.dedup := by
    apply (List.perm_ext_iff_of_nodup coherent.anchored.lineKeys (List.nodup_dedup _)).mpr
    intro l
    rw [List.mem_dedup, coherent.ordered.mem_installedLines, ← coherent.hooked_iff]
    exact Table.contains_iff_mem_keys.symm
  rw [← same.length_eq, Table.keys, List.length_map]
  exact traced

theorem Coherent.consistent (coherent : Coherent [] s) : Consistent s where
  apart id both := by
    rw [coherent.ordered.apart id both.1] at both
    cases both.2
  known id := coherent.ordered.isKnown_iff
  grouped t somebody := by
    obtain ⟨k, known, here⟩ := somebody
    obtain ⟨g, own⟩ := coherent.ordered.get?_groups_of_knows known here
    exact ⟨g, own, coherent.ordered.nodup t g own, coherent.ordered.members t g own⟩
  inhabited t g own := by
    obtain ⟨k, known, here⟩ := coherent.ordered.inhabited t g own
    exact List.ne_nil_of_mem ((coherent.ordered.members t g own k).mpr ⟨known, here⟩)
  hooked := coherent.hooked_iff
  waiting := coherent.waiting_iff
  uniform := coherent.uniform
  traced := coherent.length_traces

theorem Coherent.stands (coherent : Coherent [] s) (aware : Aware s)
    (known : s.engine.probes.Knows k) (here : k.At t) :
    (s.engine.probes.Installs k ↔ s.Grants t) ∧ (s.engine.probes.Awaits k ↔ ¬ s.Grants t) := by
  have granted : s.engine.probes.Installs k → s.Grants t := fun installs =>
    (aware t).1 ((coherent.hooked_iff t).mpr ⟨k, installs, here⟩)
  have declined : s.engine.probes.Awaits k → ¬ s.Grants t := fun awaits =>
    (aware t).2 ((coherent.waiting_iff t).mpr ⟨k, awaits, here⟩)
  constructor
  · constructor
    · exact granted
    · intro grants
      exact known.resolve_right fun awaits => declined awaits grants
  · constructor
    · exact declined
    · intro refused
      exact known.resolve_left fun installs => refused (granted installs)

theorem Attuned.stands (attuned : Attuned propagate untargeted s)
    (known : s.engine.probes.Knows k) (here : k.At t) :
    (s.engine.probes.Installs k ↔ s.Grants t) ∧ (s.engine.probes.Awaits k ↔ ¬ s.Grants t) :=
  attuned.composed.coherent.stands attuned.aware known here

def HasFile (h : Host) (file : String) : Prop :=
  ∃ u ∈ h.allUnits, Text.basename u.path ≠ "" ∧ Text.basename u.path = Text.basename file

/-- Known probes are installed if there is what they are for, and wait if there is not. -/
structure Prompt (untargeted : Bool) (s : Setup) : Prop where
  method : ∀ k m, s.engine.probes.Knows k → k.probe.location = .method m →
    (s.engine.probes.Installs k ↔ (s.host.body? m).isSome = true) ∧
      (s.engine.probes.Awaits k ↔ s.host.body? m = none)
  line : ∀ k file numbers, s.engine.probes.Knows k → k.probe.location = .lines file numbers →
    (s.engine.probes.Installs k ↔ untargeted = true ∨ HasFile s.host file) ∧
      (s.engine.probes.Awaits k ↔ ¬ (untargeted = true ∨ HasFile s.host file))

theorem Attuned.grants_lineOf_iff (attuned : Attuned propagate untargeted s) (file : String)
    (line : UInt32) :
    s.Grants (.lineOf file line) ↔ untargeted = true ∨ HasFile s.host file := by
  obtain ⟨r, registered⟩ := attuned.wired.registered
  have base : Text.basename (SourceLine.ofPath file line).file =
      (SourceLine.ofPath file line).file := Text.basename_idem file
  rw [HookTarget.lineOf, registered.grants_line_iff attuned.composed.willing base,
    attuned.wired.anywhere]
  refine or_congr_right (exists_congr fun u => and_congr_right fun _ => ?_)
  show Text.basename file ≠ "" ∧ _ ↔ _
  constructor
  · intro other
    exact ⟨other.2.symm ▸ other.1, other.2⟩
  · intro other
    exact ⟨other.2 ▸ other.1, other.2⟩

theorem Attuned.prompt (attuned : Attuned propagate untargeted s) : Prompt untargeted s where
  method k m known place := by
    have stands := attuned.stands known (Probe.target_eq_method_iff.mpr place)
    rw [attuned.grants_method_iff, Bool.not_eq_true, Option.isSome_eq_false_iff,
      Option.isNone_iff_eq_none] at stands
    exact stands
  line k file numbers known place := by
    obtain ⟨t, g, here, -⟩ := attuned.composed.coherent.ordered.placed k known
    have stands := attuned.stands known here
    -- a probe on no line, or on several, is nowhere
    have single : ∃ n, t = .lineOf file n := by
      unfold KnownProbe.At Probe.target at here
      rw [place] at here
      rcases numbers with - | ⟨n, - | ⟨n', rest⟩⟩
      · simp at here
      · simp only [Except.ok.injEq, Option.some.injEq] at here
        exact ⟨n, here.symm⟩
      · simp at here
    obtain ⟨n, rfl⟩ := single
    rw [attuned.grants_lineOf_iff] at stands
    exact stands

end Setup

namespace World

variable (fuel : Nat) (settings : Settings) (origin : Origin) (before later : List Event)
  (w : World)

/-- Whatever has happened, the engine is there, and all that it holds is consistent. -/
theorem history_consistent :
    (w.history fuel settings origin before later).Hosts Setup.Consistent :=
  (history_attuned fuel settings origin before later w).mono fun _ attuned =>
    attuned.composed.coherent.consistent

/-- Whatever has happened, no probe waits for what is there already. -/
theorem history_prompt :
    (w.history fuel settings origin before later).Hosts
      (Setup.Prompt settings.untargetedTracing) :=
  (history_attuned fuel settings origin before later w).mono fun _ attuned => attuned.prompt

end World
end LiveProbe
