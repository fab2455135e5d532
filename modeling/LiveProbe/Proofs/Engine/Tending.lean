import LiveProbe.Proofs.Engine.Composition
import LiveProbe.Proofs.Engine.Culling

/-!
An engine whose hooks are left to its probes, on a host that may refuse any request and is shared
with others. Probes come and go, the host tells of types and files, the engine is closed, and
between these the host and whoever else is on it do as they please. What the engine holds stays
coherent with its own traces on the host, whatever has been refused.
-/
namespace LiveProbe.Setup

variable {s s' : Setup} {foreign : List Nat}

structure Unstaffed (s : Setup) : Prop where
  methods : s.engine.hooks.methods = []
  lines : s.engine.hooks.lines = []
  pendingMethods : s.engine.hooks.pendingMethods = []
  pendingLines : s.engine.hooks.pendingLines = []
  installed : s.engine.probes.installed = []
  pending : s.engine.probes.pending = []
  groups : s.engine.probes.groups = []
  fresh : ∀ g, s.engine.probes.lastGroup < g → s.engine.probes.membersOf g = []
  observer : s.engine.observer = .probes
  numbered : ∀ t ∈ s.host.traces, t.id ≤ s.host.lastId

theorem Unstaffed.nobody (unstaffed : Unstaffed s) (k : KnownProbe) :
    ¬ s.engine.probes.Installs k ∧ ¬ s.engine.probes.Awaits k := by
  refine ⟨fun installs => ?_, fun awaits => ?_⟩
  · rw [Probes.Installs, unstaffed.installed] at installs
    cases installs
  · rw [Probes.Awaits, unstaffed.pending] at awaits
    cases awaits

theorem Unstaffed.ordered (unstaffed : Unstaffed s) : s.engine.probes.Ordered := by
  have keyed : Probes.Keyed [] := ⟨List.nodup_nil, fun id k found => by cases found⟩
  have ungrouped : ∀ t g, Table.get? t s.engine.probes.groups ≠ some g := by
    rw [unstaffed.groups]
    exact fun t g found => by cases found
  constructor
  · constructor
    case installed => exact unstaffed.installed ▸ keyed
    case pending => exact unstaffed.pending ▸ keyed
    case apart =>
      intro id installed
      rw [Probes.isInstalled, unstaffed.installed] at installed
      cases installed
    case nodup => exact fun t g found => absurd found (ungrouped t g)
    case members => exact fun t g found => absurd found (ungrouped t g)
    case placed =>
      intro k known
      exact absurd known (not_or.mpr (unstaffed.nobody k))
    case distinct => exact fun t t' g found => absurd found (ungrouped t g)
    case numbered => exact fun t g found => absurd found (ungrouped t g)
    case fresh => exact unstaffed.fresh
  · exact fun t g found => absurd found (ungrouped t g)

theorem Unstaffed.tidy (unstaffed : Unstaffed s) : Tidy (s.host.traces.map (·.id)) s := by
  have hooks : (s.without (s.host.traces.map (·.id))).held.hooks = s.engine.hooks := rfl
  have traces : (s.without (s.host.traces.map (·.id))).held.host.traces = [] := by
    refine List.filter_eq_nil_iff.mpr fun t member => ?_
    have listed : t.id ∈ s.host.traces.map (·.id) := List.mem_map.mpr ⟨t, member, rfl⟩
    simpa using listed
  have anchored : (s.without (s.host.traces.map (·.id))).held.Anchored := by
    constructor
    case home =>
      rw [hooks, unstaffed.methods]
      exact fun m i found => by cases found
    case traced => rw [traces, hooks, unstaffed.lines, List.map_nil, List.map_nil]
    case distinct => rw [traces]; exact List.nodup_nil
    case bounded => rw [traces]; exact fun t member => absurd member List.not_mem_nil
    case lineKeys => rw [hooks, unstaffed.lines]; exact List.nodup_nil
    case pendingMethodKeys => rw [hooks, unstaffed.pendingMethods]; exact List.nodup_nil
    case pendingLineKeys => rw [hooks, unstaffed.pendingLines]; exact List.nodup_nil
  have idle : ∀ t, s.engine.hooks.isInstalled t = false ∧ s.engine.hooks.isPending t = false := by
    intro t
    unfold Hooks.isInstalled Hooks.isPending
    rw [unstaffed.methods, unstaffed.lines, unstaffed.pendingMethods, unstaffed.pendingLines]
    cases t <;> exact ⟨rfl, rfl⟩
  have nobodyInstalled : ∀ t, ¬ s.engine.probes.InstalledAt t :=
    fun t ⟨k, installs, _⟩ => (unstaffed.nobody k).1 installs
  have nobodyPending : ∀ t, ¬ s.engine.probes.PendingAt t :=
    fun t ⟨k, awaits, _⟩ => (unstaffed.nobody k).2 awaits
  refine ⟨⟨fun i listed => ?_, fun l handle found => ?_⟩, ?_⟩
  · obtain ⟨t, member, same⟩ := List.mem_map.mp listed
    exact same ▸ unstaffed.numbered t member
  · rw [show s.held.hooks.lines = [] from unstaffed.lines] at found
    cases found
  · constructor
    case anchored => exact anchored
    case ordered => exact unstaffed.ordered
    case observer => exact unstaffed.observer
    case hooked =>
      intro t
      rw [show (s.without _).engine.hooks.isInstalled t = false from (idle t).1]
      exact iff_of_false Bool.false_ne_true fun either =>
        either.elim (nobodyInstalled t) fun both => by cases both.1
    case waiting =>
      intro t
      rw [show (s.without _).engine.hooks.isPending t = false from (idle t).2]
      exact iff_of_false Bool.false_ne_true fun both => nobodyPending t both.1
    case uniform => exact fun t installedAt => absurd installedAt (nobodyInstalled t)

theorem Tidy.bounded (tidy : Tidy foreign s) : ∀ t ∈ s.host.traces, t.id ≤ s.host.lastId := by
  intro t member
  by_cases listed : t.id ∈ foreign
  · exact tidy.apart.numbered t.id listed
  · exact tidy.coherent.anchored.bounded t (List.mem_filter.mpr ⟨member, by simpa using listed⟩)

structure Wanes (h h' : Host) : Prop where
  lastId : h'.lastId = h.lastId
  traces : ∀ t ∈ h'.traces, t ∈ h.traces

theorem Wanes.dropMethod {h : Host} {k : Hooking} (wanes : Wanes h k.host)
    (e : MethodName × InstalledMethod) : Wanes h (k.dropMethod e).host := by
  have bodies := (Host.BodyFrame.removeMethod k.host e.2.handle).rest
  unfold Hooking.dropMethod
  split <;> rename_i host removed <;> rw [removed] at bodies <;> dsimp only at bodies
  all_goals
    show Wanes h host
    rw [bodies]
    exact ⟨wanes.lastId, wanes.traces⟩

theorem Wanes.dropLine {h : Host} {k : Hooking} (wanes : Wanes h k.host)
    (e : SourceLine × LineHandle) : Wanes h (k.dropLine e).host := by
  unfold Hooking.dropLine Host.removeLine
  cases k.host.refuses .removeLine (.line ⟨e.2.file, e.2.line⟩) with
  | some _ => exact wanes
  | none => exact ⟨wanes.lastId, fun t member => wanes.traces t (List.mem_of_mem_filter member)⟩

theorem wanes_close (s : Hooking) : Wanes s.host s.close.host := by
  have stopped : Wanes s.host s.stopFollowing.host := by
    unfold Hooking.stopFollowing
    split <;> exact ⟨rfl, fun t member => member⟩
  show Wanes s.host s.stopFollowing.clearHooks.host
  unfold Hooking.clearHooks
  refine List.foldlRecOn (motive := fun k : Hooking => Wanes s.host k.host) _ _
    (List.foldlRecOn (motive := fun k : Hooking => Wanes s.host k.host) _ _ stopped ?_) ?_
  · exact fun k wanes e _ => wanes.dropMethod e
  · exact fun k wanes e _ => wanes.dropLine e

theorem Tidy.closeProbes (tidy : Tidy foreign s) : Unstaffed s.closeProbes := by
  have hooks : s.closeProbes.engine.hooks = s.held.close.hooks := rfl
  have cleared : s.held.close.hooks = { s.held.stopFollowing.hooks with
      slots := s.held.stopFollowing.hooks.slots.map fun e => (e.1, 0)
      methods := [], lines := [], pendingMethods := [], pendingLines := [] } := by
    unfold Hooking.close Hooking.clearPending Hooks.clearAllPending
    rw [Hooking.hooks_clearHooks]
  have wanes := wanes_close s.held
  constructor
  case fresh => exact tidy.coherent.ordered.fresh
  case observer => exact tidy.coherent.observer
  case numbered =>
    intro t member
    rw [show s.closeProbes.host.lastId = s.host.lastId from wanes.lastId]
    exact tidy.bounded t (wanes.traces t member)
  all_goals first | rfl | rw [hooks, cleared]

/-- What happens on the host apart from the engine leaves its hooks and its probes what they are,
and the traces of its hooked lines too; only their limiters may be asked. -/
structure Elsewhere (s s' : Setup) : Prop where
  hooks : s'.engine.hooks = { s.engine.hooks with definitions := s'.engine.hooks.definitions }
  probes : s'.engine.probes = { s.engine.probes with limiters := s'.engine.probes.limiters }
  observer : s'.engine.observer = s.engine.observer
  lastId : s.host.lastId ≤ s'.host.lastId
  numbered : ∀ t ∈ s'.host.traces, t.id ≤ s'.host.lastId
  traces : (s'.host.traces.filter fun t => s.engine.hooks.lines.any (·.2.id == t.id)) =
    s.host.traces.filter fun t => s.engine.hooks.lines.any (·.2.id == t.id)

theorem anchored_of_hooks {k k' : Hooking} {definitions : Option Nat} (anchored : k.Anchored)
    (hooks : k'.hooks = { k.hooks with definitions })
    (traces : k'.host.traces = k.host.traces) (lastId : k.host.lastId ≤ k'.host.lastId) :
    k'.Anchored := by
  constructor
  case bounded =>
    rw [traces]
    exact fun t member => Nat.le_trans (anchored.bounded t member) lastId
  case traced =>
    rw [traces, hooks]
    exact anchored.traced
  case distinct =>
    rw [traces]
    exact anchored.distinct
  all_goals rw [hooks]
  case home => exact anchored.home
  case lineKeys => exact anchored.lineKeys
  case pendingMethodKeys => exact anchored.pendingMethodKeys
  case pendingLineKeys => exact anchored.pendingLineKeys

theorem Tidy.foreign_iff (tidy : Tidy foreign s) {t : LineTrace} (member : t ∈ s.host.traces) :
    t.id ∉ foreign ↔ s.engine.hooks.lines.any (·.2.id == t.id) = true := by
  have anchored := tidy.coherent.anchored
  rw [List.any_eq_true]
  constructor
  · intro apart
    have kept : t ∈ (s.without foreign).host.traces :=
      List.mem_filter.mpr ⟨member, by simpa using apart⟩
    have paired : (t.only, t.id) ∈ s.engine.hooks.lines.map fun e => (some e.1, e.2.id) :=
      anchored.traced ▸ List.mem_map.mpr ⟨t, kept, rfl⟩
    obtain ⟨e, listed, same⟩ := List.mem_map.mp paired
    exact ⟨e, listed, beq_iff_eq.mpr (Prod.mk.inj same).2⟩
  · intro ⟨e, listed, same⟩
    have found := Table.get?_of_mem anchored.lineKeys listed
    rw [← beq_iff_eq.mp same]
    exact (tidy.apart.own e.1 e.2 found).1

theorem Elsewhere.traces_without (elsewhere : Elsewhere s s') (tidy : Tidy foreign s) :
    s'.host.traces.filter (fun t => t.id ∉ (s'.host.traces.filter fun t =>
        !s.engine.hooks.lines.any (·.2.id == t.id)).map (·.id)) =
      s.host.traces.filter (·.id ∉ foreign) := by
  have before : s.host.traces.filter (·.id ∉ foreign) =
      s.host.traces.filter fun t => s.engine.hooks.lines.any (·.2.id == t.id) := by
    refine List.filter_congr fun t member => ?_
    rw [Bool.eq_iff_iff, decide_eq_true_eq]
    exact tidy.foreign_iff member
  rw [before, ← elsewhere.traces]
  refine List.filter_congr fun t member => ?_
  rw [Bool.eq_iff_iff, decide_eq_true_eq, List.mem_map, ← Bool.not_eq_false, not_iff_not]
  constructor
  · intro ⟨other, listed, same⟩
    have stray := (List.mem_filter.mp listed).2
    rw [same, Bool.not_eq_true'] at stray
    exact stray
  · intro stray
    exact ⟨t, List.mem_filter.mpr ⟨member, by rw [stray]; rfl⟩, rfl⟩

theorem Elsewhere.knows (elsewhere : Elsewhere s s') {k : KnownProbe} :
    s'.engine.probes.Knows k ↔ s.engine.probes.Knows k := by
  rw [elsewhere.probes]
  exact Iff.rfl

theorem Tidy.elsewhere (tidy : Tidy foreign s) (elsewhere : Elsewhere s s') :
    ∃ foreign', Tidy foreign' s' := by
  have traces := elsewhere.traces_without tidy
  revert traces
  generalize listed : (s'.host.traces.filter fun t =>
    !s.engine.hooks.lines.any (·.2.id == t.id)).map (·.id) = foreign'
  intro traces
  have lines : s'.engine.hooks.lines = s.engine.hooks.lines := by rw [elsewhere.hooks]
  have idle : ∀ t, s'.engine.hooks.isInstalled t = s.engine.hooks.isInstalled t ∧
      s'.engine.hooks.isPending t = s.engine.hooks.isPending t := by
    rw [elsewhere.hooks]
    intro t
    cases t <;> exact ⟨rfl, rfl⟩
  refine ⟨foreign', ⟨fun i member => ?_, fun l handle found => ?_⟩, ?_⟩
  · rw [← listed] at member
    obtain ⟨t, member, same⟩ := List.mem_map.mp member
    exact same ▸ elsewhere.numbered t (List.mem_of_mem_filter member)
  · rw [show s'.held.hooks.lines = _ from lines] at found
    refine ⟨fun member => ?_, (tidy.apart.own l handle found).2⟩
    rw [← listed] at member
    obtain ⟨t, member, same⟩ := List.mem_map.mp member
    have stray := (List.mem_filter.mp member).2
    rw [Bool.not_eq_true', same, List.any_eq_false] at stray
    exact stray _ (Table.mem_of_get? found) (by simp)
  · constructor
    case anchored =>
      have kept : (s'.without foreign').held.host.traces = (s.without foreign).held.host.traces :=
        traces
      exact anchored_of_hooks tidy.coherent.anchored elsewhere.hooks kept elsewhere.lastId
    case ordered =>
      show s'.engine.probes.Ordered
      rw [elsewhere.probes]
      exact tidy.coherent.ordered.of_limiters _
    case observer => exact elsewhere.observer.trans tidy.coherent.observer
    case hooked =>
      intro t
      show s'.engine.hooks.isInstalled t = true ↔ _
      rw [(idle t).1, show (s'.without foreign').engine.probes = _ from elsewhere.probes]
      exact tidy.coherent.hooked t
    case waiting =>
      intro t
      show s'.engine.hooks.isPending t = true ↔ _
      rw [(idle t).2, show (s'.without foreign').engine.probes = _ from elsewhere.probes]
      exact tidy.coherent.waiting t
    case uniform =>
      rw [show (s'.without foreign').engine.probes = _ from elsewhere.probes]
      exact tidy.coherent.uniform

/-- What comes of an engine whose hooks are left to its probes. -/
inductive Tended : Setup → Prop
  | begun {s : Setup} (unstaffed : Unstaffed s) : Tended s
  | addProbe {s : Setup} (tended : Tended s) (p : Probe) : Tended (s.addProbe p).2
  | prune {s : Setup} (tended : Tended s) (named : List String)
      {pending installed : List (String × KnownProbe)}
      (pendingOrder : pending.Perm (Probes.others named s.engine.probes.pending))
      (installedOrder : installed.Perm (Probes.others named s.engine.probes.installed)) :
      Tended (s.prune pending installed).2
  | typeDefined {s : Setup} (tended : Tended s) (typeName : String) :
      Tended (s.typeDefined typeName)
  | fileKnown {s : Setup} (tended : Tended s) (path : String) : Tended (s.fileKnown path)
  | closeProbes {s : Setup} (tended : Tended s) : Tended s.closeProbes
  | elsewhere {s s' : Setup} (tended : Tended s) (elsewhere : Elsewhere s s') : Tended s'

theorem Tidy.labelled (tidy : Tidy foreign s) : (s.without foreign).held.Apart [] :=
  ⟨fun _ listed => absurd listed List.not_mem_nil,
    fun l handle found => ⟨List.not_mem_nil, (tidy.apart.own l handle found).2⟩⟩

theorem Tidy.prune (tidy : Tidy foreign s) (named : List String)
    {pending installed : List (String × KnownProbe)}
    (pendingOrder : pending.Perm (Probes.others named s.engine.probes.pending))
    (installedOrder : installed.Perm (Probes.others named s.engine.probes.installed)) :
    Tidy foreign (s.prune pending installed).2 :=
  (prune_blind tidy.apart pending installed).tidy
    (prune_culled tidy.coherent tidy.labelled named pendingOrder installedOrder).1

theorem Tended.tidy (tended : Tended s) : ∃ foreign, Tidy foreign s := by
  induction tended with
  | begun unstaffed => exact ⟨_, unstaffed.tidy⟩
  | addProbe tended p ih =>
    obtain ⟨foreign, tidy⟩ := ih
    exact ⟨foreign, (addProbe_blind tidy.apart p).tidy (addProbe_addition tidy.coherent p).coherent⟩
  | prune tended named pendingOrder installedOrder ih =>
    obtain ⟨foreign, tidy⟩ := ih
    exact ⟨foreign, tidy.prune named pendingOrder installedOrder⟩
  | typeDefined tended typeName ih =>
    obtain ⟨foreign, tidy⟩ := ih
    exact ⟨foreign, (typeDefined_blind tidy.apart typeName).tidy
      (typeDefined_attended tidy.coherent typeName).coherent⟩
  | fileKnown tended path ih =>
    obtain ⟨foreign, tidy⟩ := ih
    exact ⟨foreign, (fileKnown_blind tidy.apart path).tidy
      (fileKnown_attended tidy.coherent path).coherent⟩
  | closeProbes tended ih =>
    obtain ⟨foreign, tidy⟩ := ih
    exact ⟨_, tidy.closeProbes.tidy⟩
  | elsewhere tended elsewhere ih =>
    obtain ⟨foreign, tidy⟩ := ih
    exact tidy.elsewhere elsewhere

theorem Keeps.of_without {k : KnownProbe} (keeps : Keeps k (s.without foreign) (s'.without foreign))
    (spares : Hooking.Spares foreign s.host s'.host) : Keeps k s s' :=
  ⟨keeps.installs, keeps.awaits, keeps.limiters, fun t here => (keeps.same t here).of_without spares⟩

theorem Barred.of_without {gone : KnownProbe → Prop} {t : HookTarget} {e : Error} :
    Barred gone (s.without foreign) t e ↔ Barred gone s t e :=
  ⟨fun ⟨declined, installed, all⟩ => ⟨declined, installed, all⟩,
    fun ⟨declined, installed, all⟩ => ⟨declined, installed, all⟩⟩

theorem Tidy.culled (tidy : Tidy foreign s) (named : List String)
    {pending installed : List (String × KnownProbe)}
    (pendingOrder : pending.Perm (Probes.others named s.engine.probes.pending))
    (installedOrder : installed.Perm (Probes.others named s.engine.probes.installed)) :
    Culled named s (s.prune pending installed) := by
  have culled := (prune_culled tidy.coherent tidy.labelled named pendingOrder installedOrder).2
  have spares := prune_spares tidy.apart pending installed
  rw [(prune_blind tidy.apart pending installed).same] at culled
  constructor
  case ordered => exact culled.ordered
  case kept => exact fun k known listed => (culled.kept k known listed).of_without spares
  case installs => exact culled.installs
  case awaits => exact culled.awaits
  case hooked => exact culled.hooked
  case waiting => exact culled.waiting
  case stays =>
    intro k known absent
    obtain ⟨keeps, t, e, here, barred, alone⟩ := culled.stays k known absent
    exact ⟨keeps.of_without spares, t, e, here, Barred.of_without.mp barred, alone⟩
  case held => exact fun t e barred => culled.held t e (Barred.of_without.mpr barred)
  case failed =>
    refine culled.failed.trans (and_congr_right fun _ => ?_)
    exact exists_congr fun t => exists_congr fun e => Barred.of_without
  case reason => exact fun e error => (culled.reason e error).imp fun t => Barred.of_without.mp

/-- The probes that are not named go in whatever order they are met, and those whose hook the host
has refused to remove go as soon as it does not refuse any more. -/
theorem keepProbes_culled (tended : Tended s) (named : List String) :
    s.keepProbes named = s.prune (Probes.others named s.engine.probes.pending)
        (Probes.others named s.engine.probes.installed) ∧
      ∀ pending installed : List (String × KnownProbe),
        pending.Perm (Probes.others named s.engine.probes.pending) →
        installed.Perm (Probes.others named s.engine.probes.installed) →
        Culled named s (s.prune pending installed) ∧
        ∀ s' : Setup, Elsewhere (s.prune pending installed).2 s' →
          ∀ pending' installed' : List (String × KnownProbe),
            pending'.Perm (Probes.others named s'.engine.probes.pending) →
            installed'.Perm (Probes.others named s'.engine.probes.installed) →
            ∀ k t, s'.engine.probes.Knows k → k.probe.id ∉ named → k.At t →
              s'.host.declines t = none →
              ¬ (s'.prune pending' installed').2.engine.probes.Knows k ∧
                (s'.prune pending' installed').2.engine.hooks.isInstalled t = false := by
  refine ⟨keepProbes_eq_prune named s, fun pending installed pendingOrder installedOrder => ?_⟩
  obtain ⟨foreign, tidy⟩ := tended.tidy
  have culled := tidy.culled named pendingOrder installedOrder
  refine ⟨culled, ?_⟩
  intro s' elsewhere pending' installed' pendingOrder' installedOrder' k t known absent here accepts
  obtain ⟨foreign', tidy'⟩ :=
    (Tended.elsewhere (tended.prune named pendingOrder installedOrder) elsewhere).tidy
  have again := tidy'.culled named pendingOrder' installedOrder'
  have gone : ∀ k', k'.At t → k'.probe.id ∉ named →
      ¬ (s'.prune pending' installed').2.engine.probes.Knows k' := by
    intro k' there absent' known'
    obtain ⟨-, t', e, elsewhere, barred, -⟩ := again.stays k' known' absent'
    have declined := barred.declined
    rw [elsewhere.unique there, accepts] at declined
    cases declined
  refine ⟨gone k here absent, Bool.eq_false_iff.mpr fun hooked => ?_⟩
  -- whoever has the hook was there before, together with the probe that stayed alone
  obtain ⟨k', installs, there⟩ := (again.hooked t).mp hooked
  obtain ⟨-, t', -, own, -, alone⟩ := culled.stays k (elsewhere.knows.mp known) absent
  have same := alone k' (elsewhere.knows.mp (Or.inl (again.installs k' installs)))
    (own.unique here ▸ there)
  exact gone k' there (same ▸ absent) (Or.inl installs)

/-! A host that refuses to remove a hook that two probes share, and then lets it go. -/

namespace Sample

def probe (id : String) : Probe := { id, kind := "LOG_PROBE", location := .method ⟨"T", "m"⟩ }

def begun : Setup :=
  ⟨{ types := [("T", [("m", .program [])])] },
    Engine.complete 0 { service := "svc", propagate := true }
      { runtimeId := "r", snapshotId := "s", threadId := "t" }, [], []⟩

def refusing : Setup :=
  let s := ((begun.addProbe (probe "p")).2.addProbe (probe "q")).2
  { s with host := { s.host with refuses := fun c _ =>
    if c = .removeMethod then some (.install "in use") else none } }

def visited : List (String × KnownProbe) := [("q", ⟨probe "q", 2⟩), ("p", ⟨probe "p", 1⟩)]

def accepting : Setup :=
  let s := (refusing.prune [] visited).2
  { s with host := { s.host with refuses := fun _ _ => none } }

theorem tended_refusing : Tended refusing := by
  have unstaffed : Unstaffed begun := by
    constructor
    case fresh => exact fun g _ => rfl
    case numbered => exact fun t member => absurd member List.not_mem_nil
    all_goals rfl
  refine .elsewhere (((Tended.begun unstaffed).addProbe (probe "p")).addProbe (probe "q")) ?_
  exact ⟨rfl, rfl, rfl, Nat.le_refl _, by decide +kernel, rfl⟩

end Sample

open Sample in
theorem keepProbes_culled_refused :
    Tended refusing ∧ Culled [] refusing (refusing.prune [] visited) ∧
      (refusing.prune [] visited).1 = .error (.install "in use") ∧
      (refusing.prune [] visited).2.engine.probes.installed = [("p", ⟨probe "p", 1⟩)] ∧
      ¬ (accepting.prune [] [("p", ⟨probe "p", 1⟩)]).2.engine.probes.Knows ⟨probe "p", 1⟩ := by
  have order : visited.Perm (Probes.others [] refusing.engine.probes.installed) := by
    have listed : Probes.others [] refusing.engine.probes.installed =
        [("p", ⟨probe "p", 1⟩), ("q", ⟨probe "q", 2⟩)] := by decide +kernel
    rw [listed]
    exact List.Perm.swap _ _ _
  have left : (refusing.prune [] visited).2.engine.probes.installed = [("p", ⟨probe "p", 1⟩)] := by
    decide +kernel
  have later : Elsewhere (refusing.prune [] visited).2 accepting :=
    ⟨rfl, rfl, rfl, Nat.le_refl _, by decide +kernel, rfl⟩
  obtain ⟨culled, again⟩ := (keepProbes_culled tended_refusing []).2 [] visited
    (by decide +kernel) order
  have known : accepting.engine.probes.Knows ⟨probe "p", 1⟩ := Or.inl (by
    show Table.get? "p" _ = some _
    decide +kernel)
  refine ⟨tended_refusing, culled, by rfl, left, ?_⟩
  exact (again accepting later [] [("p", ⟨probe "p", 1⟩)] (by decide +kernel) (by decide +kernel)
    ⟨probe "p", 1⟩ (.method ⟨"T", "m"⟩) known List.not_mem_nil rfl rfl).1

end LiveProbe.Setup
