import LiveProbe.Proofs.Engine.Following

/-!
Promotions. Where waiting hooks have been installed, the probes that wait for them are installed one
after the other, and it is told of each of them, in this order.
-/
namespace LiveProbe

def Reporter.welcome (r : Reporter) (k : KnownProbe) : List Notice :=
  [.status (r.status k.probe .installed)]

namespace Setup

variable {s s' s'' : Setup} {ks ks' : List KnownProbe}

/-- Some probes that waited are installed, and it is told of each of them. -/
structure Promoted (ks : List KnownProbe) (s s' : Setup) : Prop where
  ordered : s'.engine.probes.Ordered
  nodup : ks.Nodup
  waited : ∀ k ∈ ks, s.engine.probes.Awaits k
  installs : ∀ k, s'.engine.probes.Installs k ↔ s.engine.probes.Installs k ∨ k ∈ ks
  awaits : ∀ k, s'.engine.probes.Awaits k ↔ s.engine.probes.Awaits k ∧ k ∉ ks
  observer : s'.engine.observer = s.engine.observer
  reporter : s'.engine.reporter = s.engine.reporter
  journal : s'.journal = s.journal ++ (ks.flatMap s.engine.reporter.welcome).map .notice

theorem promoted_nobody (ordered : s.engine.probes.Ordered) : Promoted [] s s :=
  ⟨ordered, List.nodup_nil, fun _ member => absurd member List.not_mem_nil, fun k => by simp,
    fun k => by simp, rfl, rfl, (List.append_nil _).symm⟩

theorem Promoted.trans (first : Promoted ks s s') (second : Promoted ks' s' s'') :
    Promoted (ks ++ ks') s s'' where
  ordered := second.ordered
  nodup := List.nodup_append.mpr ⟨first.nodup, second.nodup, fun k before k' later same =>
    ((first.awaits k').mp (second.waited k' later)).2 (same ▸ before)⟩
  waited k member := (List.mem_append.mp member).elim (first.waited k)
    fun later => ((first.awaits k).mp (second.waited k later)).1
  installs k := by rw [second.installs, first.installs, List.mem_append, or_assoc]
  awaits k := by rw [second.awaits, first.awaits, List.mem_append, not_or, and_assoc]
  observer := second.observer.trans first.observer
  reporter := second.reporter.trans first.reporter
  journal := by
    rw [second.journal, first.journal, first.reporter, List.flatMap_append, List.map_append,
      List.append_assoc]

theorem Promoted.of_same (promoted : Promoted ks s' s'')
    (probes : s'.engine.probes = s.engine.probes)
    (observer : s'.engine.observer = s.engine.observer)
    (reporter : s'.engine.reporter = s.engine.reporter) (journal : s'.journal = s.journal) :
    Promoted ks s s'' where
  ordered := promoted.ordered
  nodup := promoted.nodup
  waited := probes ▸ promoted.waited
  installs := probes ▸ promoted.installs
  awaits := probes ▸ promoted.awaits
  observer := promoted.observer.trans observer
  reporter := promoted.reporter.trans reporter
  journal := by rw [promoted.journal, journal, reporter]

theorem told_foldl_promote (ks : List KnownProbe) :
    ∀ s : Setup, (ks.foldl promote s).engine.reporter = s.engine.reporter ∧
      (ks.foldl promote s).journal =
        s.journal ++ (ks.flatMap s.engine.reporter.welcome).map .notice := by
  induction ks with
  | nil => exact fun s => ⟨rfl, (List.append_nil _).symm⟩
  | cons k rest ih =>
    intro s
    obtain ⟨reporter, journal⟩ := ih (s.promote k)
    refine ⟨reporter, journal.trans ?_⟩
    show (s.journal ++ [_]) ++ _ = _
    rw [List.append_assoc]
    rfl

theorem foldl_promote_promoted (ordered : s.engine.probes.Ordered) (nodup : ks.Nodup)
    (waiting : ∀ k ∈ ks, s.engine.probes.Awaits k) : Promoted ks s (ks.foldl promote s) := by
  have promotion := foldl_promote_promotion ks ordered nodup waiting
  obtain ⟨reporter, journal⟩ := told_foldl_promote ks s
  exact ⟨promotion.ordered, nodup, waiting, promotion.installs, promotion.awaits,
    promotion.backdrop.observer, reporter, journal⟩

theorem foldl_hookInstalled_promoted (targets : List HookTarget) :
    ∀ {s : Setup}, s.engine.probes.Ordered → s.engine.observer = .probes →
      ∃ ks, Promoted ks s (targets.foldl hookInstalled s) := by
  induction targets with
  | nil => exact fun ordered _ => ⟨[], promoted_nobody ordered⟩
  | cons t rest ih =>
    intro s ordered observer
    have told : s.hookInstalled t = (s.engine.probes.waitingAt t).foldl promote s := by
      unfold hookInstalled
      rw [observer]
      rfl
    have first := foldl_promote_promoted ordered
      (ordered.nodup_waitingAt t) fun k member => ((Probes.mem_waitingAt ordered).mp member).1
    rw [← told] at first
    obtain ⟨ks, later⟩ := ih first.ordered (first.observer.trans observer)
    exact ⟨_, first.trans later⟩

theorem typeDefined_promoted (coherent : Coherent [] s) (typeName : String) :
    ∃ ks, Promoted ks s (s.typeDefined typeName) := by
  obtain ⟨ks, promoted⟩ := foldl_hookInstalled_promoted
    (s.hooking (Hooking.installPendingMethods s.engine.code typeName)).1
    (s := (s.hooking (Hooking.installPendingMethods s.engine.code typeName)).2)
    coherent.ordered coherent.observer
  exact ⟨ks, promoted.of_same rfl rfl rfl rfl⟩

theorem fileKnown_promoted (coherent : Coherent [] s) (path : String) :
    ∃ ks, Promoted ks s (s.fileKnown path) := by
  obtain ⟨ks, promoted⟩ := foldl_hookInstalled_promoted
    (s.hooking (Hooking.installPendingLines s.engine.code path)).1
    (s := (s.hooking (Hooking.installPendingLines s.engine.code path)).2)
    coherent.ordered coherent.observer
  exact ⟨ks, promoted.of_same rfl rfl rfl rfl⟩

end Setup
end LiveProbe
