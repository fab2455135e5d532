import LiveProbe.Proofs.Engine.Promotion
import LiveProbe.Proofs.Probe.Tenure
import LiveProbe.Proofs.World.History

/-!
What an engine and its host keep between them. A predicate of host, hooks and roster that is kept
whenever one probe enters or goes, and whenever the engine is told of a type or a file, is kept by
every configuration, and so throughout a history, as long as definitions are of the kind that it
admits.
-/
namespace LiveProbe.Setup

variable {s s' : Setup} {propagate untargeted : Bool} {k : KnownProbe} {t : HookTarget}
  {D : DefinitionKind} {J J' : Setup → Prop}

/-- A predicate that is kept by all that engine and host do, but for definitions of other kinds. -/
structure Kept (D : DefinitionKind) (J : Setup → Prop) : Prop where
  congr : ∀ s s' : Setup, s'.host = s.host → s'.engine.hooks = s.engine.hooks →
    s'.engine.probes = s.engine.probes → s'.engine.reporter = s.engine.reporter → J s → J s'
  refused : ∀ {propagate s t e}, Composed propagate s →
    Table.get? t s.engine.probes.groups = none → (s.requestHook t).1 = .error e →
    J s → J (s.requestHook t).2
  founded : ∀ {propagate s t p installed}, Composed propagate s →
    Table.get? t s.engine.probes.groups = none → s.engine.probes.isKnown p.id = false →
    (s.requestHook t).1 = .ok installed → J s → J ((s.requestHook t).2.enterFirst t p installed)
  joined : ∀ {propagate s t g p}, Composed propagate s →
    Table.get? t s.engine.probes.groups = some g → s.engine.probes.isKnown p.id = false →
    J s → J (s.enterGroup g p)
  dismissed : ∀ {propagate s k t}, Composed propagate s → s.engine.probes.Awaits k → k.At t →
    J s → J (s.removePending (k.probe.id, k))
  removed : ∀ {propagate s k t}, Composed propagate s → s.engine.probes.Installs k → k.At t →
    J s → J (s.removeInstalled k.probe.id k).2
  attended : ∀ {propagate s} typeName, Composed propagate s → J s → J (s.typeDefined typeName)
  discovered : ∀ {propagate s} path, Composed propagate s → J s → J (s.fileKnown path)
  turned : ∀ {propagate s} k, Composed propagate s → J s → J (s.onProbes (Probes.takeTurn k)).2
  defined : ∀ {s : Setup} typeName (methods : List (String × Code)), D typeName methods → J s →
    J { s with host := s.host.define typeName (methods.map fun e => (e.1, Body.program e.2)) }
  loaded : ∀ {s : Setup} path lines, J s → J { s with host := (s.host.load path lines).2 }

namespace Kept

theorem and (first : Kept D J) (second : Kept D J') : Kept D fun s => J s ∧ J' s where
  congr s s' host hooks probes reporter both :=
    ⟨first.congr s s' host hooks probes reporter both.1,
      second.congr s s' host hooks probes reporter both.2⟩
  refused composed absent answer both :=
    ⟨first.refused composed absent answer both.1, second.refused composed absent answer both.2⟩
  founded composed absent unknown answer both :=
    ⟨first.founded composed absent unknown answer both.1,
      second.founded composed absent unknown answer both.2⟩
  joined composed own unknown both :=
    ⟨first.joined composed own unknown both.1, second.joined composed own unknown both.2⟩
  dismissed composed awaits here both :=
    ⟨first.dismissed composed awaits here both.1, second.dismissed composed awaits here both.2⟩
  removed composed installs here both :=
    ⟨first.removed composed installs here both.1, second.removed composed installs here both.2⟩
  attended typeName composed both :=
    ⟨first.attended typeName composed both.1, second.attended typeName composed both.2⟩
  discovered path composed both :=
    ⟨first.discovered path composed both.1, second.discovered path composed both.2⟩
  turned k composed both := ⟨first.turned k composed both.1, second.turned k composed both.2⟩
  defined typeName methods given both :=
    ⟨first.defined typeName methods given both.1, second.defined typeName methods given both.2⟩
  loaded path lines both := ⟨first.loaded path lines both.1, second.loaded path lines both.2⟩

variable (kept : Kept D J)
include kept

theorem addProbe (composed : Composed propagate s) (p : Probe) (holds : J s) :
    J (s.addProbe p).2 := by
  cases known : s.engine.probes.isKnown p.id with
  | true =>
    rw [addProbe_of_isKnown known]
    exact holds
  | false =>
    unfold Setup.addProbe Probes.admission
    simp only [known, Bool.false_eq_true, if_false]
    cases p.target with
    | error e => exact holds
    | ok target =>
      cases target with
      | none => exact holds
      | some t =>
        dsimp only
        cases group : Table.get? t s.engine.probes.groups with
        | some g => exact kept.joined composed group known holds
        | none =>
          dsimp only
          rcases requested : s.requestHook t with ⟨answer, s'⟩
          have answered := congrArg Prod.fst requested
          cases answer with
          | error e =>
            have refused := kept.refused composed group answered holds
            rwa [requested] at refused
          | ok installed =>
            have founded := kept.founded composed group known answered holds
            rwa [requested] at founded

theorem applyDocument (composed : Composed propagate s) (document : Json) (holds : J s) :
    J (s.applyDocument document).2 := by
  unfold Setup.applyDocument
  split
  · exact holds
  · rename_i p built
    exact kept.addProbe (composed.tell _) p (kept.congr s _ rfl rfl rfl rfl holds)

theorem applyAll (documents : List Json) :
    ∀ {s : Setup}, Composed propagate s → J s → J (s.applyAll documents).2 := by
  induction documents with
  | nil => exact fun _ holds => holds
  | cons document rest ih =>
    intro s composed holds
    have applied := kept.applyDocument composed document holds
    have still := composed.of_passage
      (applyDocument_application composed.coherent document).toPassage
    unfold Setup.applyAll
    rcases ended : s.applyDocument document with ⟨answer, s'⟩
    rw [ended] at applied still
    cases answer with
    | ok _ => exact ih still applied
    | error e =>
      have warned : J (s'.warn (.documentRefused e)) := kept.congr s' _ rfl rfl rfl rfl applied
      dsimp only
      split
      · exact warned
      · exact ih (still.of_passage ((Passage.refl still.coherent).warn _)) warned

theorem foldl_removePending (gone : List KnownProbe) :
    ∀ {s : Setup}, Composed propagate s → gone.Nodup → (∀ k ∈ gone, s.engine.probes.Awaits k) →
      J s → J ((gone.map Probes.entry).foldl removePending s) := by
  induction gone with
  | nil => exact fun _ _ _ holds => holds
  | cons k rest ih =>
    intro s composed nodup listed holds
    obtain ⟨fresh, nodupRest⟩ := List.nodup_cons.mp nodup
    obtain ⟨awaits, later⟩ := List.forall_mem_cons.mp listed
    obtain ⟨t, -, here, -⟩ := composed.coherent.ordered.placed k (Or.inr awaits)
    have first := removePending_dismissal composed.coherent awaits
    refine ih (composed.of_passage first.toPassage) nodupRest (fun k' member => ?_)
      (kept.dismissed composed awaits here holds)
    refine (first.awaits k').mpr ⟨later k' member, ?_⟩
    rintro rfl
    exact fresh member

theorem removeAllInstalled (gone : List KnownProbe) :
    ∀ {s : Setup}, Composed propagate s → gone.Nodup → (∀ k ∈ gone, s.engine.probes.Installs k) →
      J s → J (s.removeAllInstalled (gone.map Probes.entry)).2 := by
  induction gone with
  | nil => exact fun _ _ _ holds => holds
  | cons k rest ih =>
    intro s composed nodup listed holds
    obtain ⟨fresh, nodupRest⟩ := List.nodup_cons.mp nodup
    obtain ⟨installs, later⟩ := List.forall_mem_cons.mp listed
    obtain ⟨t, -, here, -⟩ := composed.coherent.ordered.placed k (Or.inl installs)
    have first := (removeInstalled_removal composed.coherent installs).sweep
    refine ih (composed.of_passage first.toPassage) nodupRest (fun k' member => ?_)
      (kept.removed composed installs here holds)
    have absent : k' ∉ [k] := fun same => fresh (List.mem_singleton.mp same ▸ member)
    exact (first.kept k' (Or.inl (later k' member)) absent).installs.mpr (later k' member)

theorem keepProbes (composed : Composed propagate s) (named : List String) (holds : J s) :
    J (s.keepProbes named).2 := by
  have ordered := composed.coherent.ordered
  let waiting := Probes.unnamed named s.engine.probes.pending
  have nodup : waiting.Nodup := ordered.pending.nodup_unnamed named
  have awaits : ∀ k ∈ waiting, s.engine.probes.Awaits k :=
    fun k member => ((ordered.pending.mem_unnamed named).mp member).1
  have first := foldl_removePending_sweep waiting composed.coherent nodup awaits
  have dismissed := kept.foldl_removePending waiting composed nodup awaits holds
  unfold Setup.keepProbes
  rw [ordered.pending.others_eq]
  dsimp only
  generalize (waiting.map Probes.entry).foldl removePending s = s' at first dismissed ⊢
  have ordered' := first.coherent.ordered
  rw [ordered'.installed.others_eq]
  exact kept.removeAllInstalled _ (composed.of_passage first.toPassage)
    (ordered'.installed.nodup_unnamed named)
    (fun k member => ((ordered'.installed.mem_unnamed named).mp member).1) dismissed

theorem process (composed : Composed propagate s) (documents : List Json) (holds : J s) :
    J (s.process documents).2 := by
  have applied := kept.applyAll documents composed holds
  have still := composed.of_passage (applyAll_progress documents composed.coherent).toPassage
  unfold Setup.process
  rcases ended : s.applyAll documents with ⟨answer, s'⟩
  rw [ended] at applied still
  cases answer with
  | error e => exact applied
  | ok statuses =>
    have cleared := kept.keepProbes still (documentIds documents) applied
    rcases removed : s'.keepProbes (documentIds documents) with ⟨result, s''⟩
    rw [removed] at cleared
    dsimp only
    rw [removed]
    cases result with
    | ok _ => exact cleared
    | error e => exact kept.congr s'' _ rfl rfl rfl rfl cleared

theorem unitLoaded (composed : Composed propagate s) (unit : CompiledUnit) (holds : J s) :
    J (s.unitLoaded unit) := by
  cases code : s.engine.code with
  | none =>
    have same : s.unitLoaded unit = s := by simp [Setup.unitLoaded, registerUnit, code]
    rw [same]
    exact holds
  | some registry =>
    have both : Composed propagate (s.registering registry unit) ∧ J (s.registering registry unit) :=
      ⟨composed.register code unit.path unit, kept.congr s _ rfl rfl rfl rfl holds⟩
    rw [unitLoaded_eq code]
    split
    · refine (List.foldlRecOn (motive := fun s => Composed propagate s ∧ J s) _ _ both ?_).2
      rintro s ⟨composed, holds⟩ l -
      refine ⟨composed.tellListener unit l, ?_⟩
      cases l with
      | hooks => exact kept.discovered unit.path composed holds
      | watcher label => exact kept.congr s _ rfl rfl rfl rfl holds
    · exact both.2

theorem steady_of {I : Setup → Prop} (steady : Steady I)
    (composed : ∀ s, I s → Composed propagate s) : Steady fun s => I s ∧ J s where
  congr s s' host engine both :=
    ⟨steady.congr s s' host engine both.1,
      kept.congr s s' host (by rw [engine]) (by rw [engine]) (by rw [engine]) both.2⟩
  load path lines s both := by
    have reloaded := kept.loaded path lines both.2
    exact (steady.load path lines s both.1).imp
      (fun unheard => ⟨unheard.1, unheard.2, reloaded⟩)
      fun heard => ⟨heard.1, heard.2,
        kept.unitLoaded ((composed s both.1).load path lines) _ reloaded⟩
  process documents s both :=
    ⟨steady.process documents s both.1, kept.process (composed s both.1) documents both.2⟩
  turn k s both := ⟨steady.turn k s both.1, kept.turned k (composed s both.1) both.2⟩
  told n s both := ⟨steady.told n s both.1, kept.congr s _ rfl rfl rfl rfl both.2⟩
  settled s both := ⟨steady.settled s both.1, kept.congr s _ rfl rfl rfl rfl both.2⟩

theorem steady : Steady fun s => Attuned propagate untargeted s ∧ J s :=
  kept.steady_of stable_attuned.toSteady fun _ => Attuned.composed

theorem define {typeName : String} {methods : List (String × Code)} (given : D typeName methods)
    (both : Attuned propagate untargeted s ∧ J s) :
    let bodies := methods.map fun e => (e.1, Body.program e.2)
    let s' : Setup := { s with host := s.host.define typeName bodies }
    s.host.definitionObservers.map (·.2) = [] ∧ (Attuned propagate untargeted s' ∧ J s') ∨
      s.host.definitionObservers.map (·.2) = [.engine 0] ∧
        (Attuned propagate untargeted (s'.typeDefined typeName) ∧ J (s'.typeDefined typeName)) := by
  have redefined := kept.defined typeName methods given both.2
  have composed := both.1.composed.define typeName (methods.map fun e => (e.1, .program e.2))
  exact (stable_attuned.define typeName methods s both.1).imp
    (fun unheard => ⟨unheard.1, unheard.2, redefined⟩)
    fun heard => ⟨heard.1, heard.2, kept.attended typeName composed redefined⟩

omit kept in
theorem stable (kept : Kept (fun _ _ => True) J) :
    Stable fun s => Attuned propagate untargeted s ∧ J s where
  toSteady := kept.steady
  define _ _ _ both := kept.define trivial both

theorem confined
    (within : ∀ s, Attuned propagate untargeted s → J s → s.host.Within D) :
    World.Confined D (World.Hosts fun s => Attuned propagate untargeted s ∧ J s) where
  toSteady := World.steady_hosts kept.steady
  define _ _ _ given hosts := hosts.define fun _ both => kept.define given both
  within _ hosts := by
    obtain ⟨e, -, attuned, holds⟩ := hosts
    exact within _ attuned holds

end Kept

/-! What endures in the roster is kept. -/

theorem Composed.removeInstalled_parts (composed : Composed propagate s)
    (installs : s.engine.probes.Installs k) (here : k.At t) :
    (s.removeInstalled k.probe.id k).2.engine.probes =
        (Probes.leave t k.probe.id (s.engine.probes.without k.probe.id)).2 ∧
      (s.removeInstalled k.probe.id k).2.held = if s.engine.probes.sharesHook t k.probe.id
        then s.held else (Hooking.unhook t s.held).2 := by
  have place : k.probe.target = .ok (some t) := here
  have left : (Probes.leave t k.probe.id s.engine.probes).2.dropInstalled k.probe.id =
      (Probes.leave t k.probe.id (s.engine.probes.without k.probe.id)).2 := by
    rw [← composed.coherent.ordered.dropInstalled_eq installs]
    exact congrArg Prod.snd (Probes.dropInstalled_leave t k.probe.id s.engine.probes)
  unfold removeInstalled
  rw [place]
  dsimp only
  cases s.engine.probes.sharesHook t k.probe.id with
  | true =>
    simp only [if_true]
    exact ⟨left, rfl⟩
  | false =>
    have removal := Hooking.unhook_removal composed.coherent.anchored t
    simp only [Bool.false_eq_true, if_false]
    unfold hooking
    rw [show (⟨s.host, s.engine.hooks, s.warnings⟩ : Hooking) = s.held from rfl]
    rcases unhooked : Hooking.unhook t s.held with ⟨answer, h⟩
    rw [unhooked] at removal
    cases answer with
    | ok _ => exact ⟨left, rfl⟩
    | error e =>
      obtain ⟨-, c, t', refuses⟩ := removal.refused e rfl
      rw [show s.held.host.refuses c t' = none from composed.willing c t'] at refuses
      cases refuses

theorem recast_foldl_hookInstalled (targets : List HookTarget) (s : Setup) :
    Probes.Recast s.engine.probes (targets.foldl hookInstalled s).engine.probes :=
  foldl_hookInstalled_keeps (P := fun s' => Probes.Recast s.engine.probes s'.engine.probes)
    (fun s' k recast => recast.trans (Probes.recast_promote k s'.engine.probes))
    (fun _ _ recast => recast) targets s (Probes.Recast.refl _)

theorem recast_typeDefined (typeName : String) (s : Setup) :
    Probes.Recast s.engine.probes (s.typeDefined typeName).engine.probes :=
  recast_foldl_hookInstalled _
    (s.hooking (Hooking.installPendingMethods s.engine.code typeName)).2

theorem recast_fileKnown (path : String) (s : Setup) :
    Probes.Recast s.engine.probes (s.fileKnown path).engine.probes :=
  recast_foldl_hookInstalled _
    (s.hooking (Hooking.installPendingLines s.engine.code path)).2

theorem kept_of_enduring {J : Probes → Prop} (enduring : Probes.Enduring J) :
    Kept D fun s => J s.engine.probes where
  congr _ _ _ _ probes _ holds := by
    rw [probes]
    exact holds
  refused _ _ _ holds := holds
  founded {_ s t p installed} _ absent unknown _ holds := by
    rw [(restaffed_enterFirst t p installed (s.requestHook t).2).2]
    exact enduring.founded installed absent unknown holds
  joined {_ s t g p} composed own unknown holds := by
    have ordered := composed.coherent.ordered
    rw [(restaffed_enterGroup g p s).2]
    refine enduring.joined own unknown (fun alike => ?_) holds
    -- a group has a member
    obtain ⟨k, known, here⟩ := ordered.inhabited t g own
    have installs := alike k ((ordered.members t g own k).mpr ⟨known, here⟩)
    exact (ordered.groupInstalled_iff own).mpr ⟨k, installs, here⟩
  dismissed {_ s k t} composed awaits here holds := by
    have ordered := composed.coherent.ordered
    rw [(removePending_parts here s).1, ordered.dropPending_eq awaits]
    exact enduring.without ordered.toGrouped (Or.inr awaits) here holds
  removed {_ s k t} composed installs here holds := by
    rw [(composed.removeInstalled_parts installs here).1]
    exact enduring.without composed.coherent.ordered.toGrouped (Or.inl installs) here holds
  attended {_ s} typeName composed holds := by
    obtain ⟨ks, promoted⟩ := typeDefined_promoted composed.coherent typeName
    exact enduring.recast composed.coherent.ordered.toGrouped promoted.ordered.toGrouped
      (recast_typeDefined typeName s) (fun k installs => (promoted.installs k).mpr (Or.inl installs))
      holds
  discovered {_ s} path composed holds := by
    obtain ⟨ks, promoted⟩ := fileKnown_promoted composed.coherent path
    exact enduring.recast composed.coherent.ordered.toGrouped promoted.ordered.toGrouped
      (recast_fileKnown path s) (fun k installs => (promoted.installs k).mpr (Or.inl installs)) holds
  turned {_ s} k composed holds :=
    enduring.recast composed.coherent.ordered.toGrouped
      (composed.takeTurn k).coherent.ordered.toGrouped
      (Probes.recast_takeTurn k s.engine.probes)
      (fun k' => (Probes.installs_takeTurn k k' s.engine.probes).mpr) holds
  defined _ _ _ holds := holds
  loaded _ _ holds := holds

/-! An engine reports as it was set up to, and tells nothing of probes that go. -/

structure Quiet (s s' : Setup) : Prop where
  journal : s'.journal = s.journal
  reporter : s'.engine.reporter = s.engine.reporter

theorem Quiet.refl (s : Setup) : Quiet s s := ⟨rfl, rfl⟩

theorem Quiet.trans {s'' : Setup} (first : Quiet s s') (second : Quiet s' s'') : Quiet s s'' :=
  ⟨second.journal.trans first.journal, second.reporter.trans first.reporter⟩

theorem quiet_removePending (s : Setup) (e : String × KnownProbe) :
    Quiet s (s.removePending e) := by
  unfold removePending setProbes onProbes
  dsimp only
  split
  · rename_i target _
    rcases Probes.leave target e.1 (s.engine.probes.dropPending e.1) with ⟨last, ps⟩
    cases last <;> exact ⟨rfl, rfl⟩
  · exact ⟨rfl, rfl⟩

theorem quiet_removeInstalled (id : String) (k : KnownProbe) (s : Setup) :
    Quiet s (s.removeInstalled id k).2 := by
  unfold removeInstalled
  split
  · split
    rename_i answer s' left
    have kept : Quiet s s' := by
      have after := congrArg Prod.snd left
      dsimp only at after
      rw [← after]
      split <;> exact ⟨rfl, rfl⟩
    cases answer <;> exact ⟨kept.journal, kept.reporter⟩
  · exact ⟨rfl, rfl⟩

theorem quiet_removeAllInstalled (entries : List (String × KnownProbe)) :
    ∀ s : Setup, Quiet s (s.removeAllInstalled entries).2 := by
  induction entries with
  | nil => exact Quiet.refl
  | cons e rest ih => exact fun s => (quiet_removeInstalled e.1 e.2 s).trans (ih _)

theorem quiet_keepProbes (named : List String) (s : Setup) : Quiet s (s.keepProbes named).2 := by
  have pending : ∀ (entries : List (String × KnownProbe)) (s : Setup),
      Quiet s (entries.foldl removePending s) := by
    intro entries
    induction entries with
    | nil => exact Quiet.refl
    | cons e rest ih => exact fun s => (quiet_removePending s e).trans (ih _)
  exact (pending _ s).trans (quiet_removeAllInstalled _ _)

theorem kept_reporter (r : Reporter) : Kept D fun s => s.engine.reporter = r where
  congr _ _ _ _ _ reporter own := reporter.trans own
  refused _ _ _ own := own
  founded {_ s t p installed} _ _ _ _ own := by
    cases installed <;> exact own
  joined {_ s t g p} _ _ _ own := by
    unfold enterGroup enter
    dsimp only
    split <;> exact own
  dismissed _ _ _ own := (quiet_removePending _ _).reporter.trans own
  removed _ _ _ own := (quiet_removeInstalled _ _ _).reporter.trans own
  attended {_ s} typeName _ own :=
    foldl_hookInstalled_keeps (P := fun s' => s'.engine.reporter = r) (fun _ _ own => own)
      (fun _ _ own => own) _
      (s.hooking (Hooking.installPendingMethods s.engine.code typeName)).2 own
  discovered {_ s} path _ own :=
    foldl_hookInstalled_keeps (P := fun s' => s'.engine.reporter = r) (fun _ _ own => own)
      (fun _ _ own => own) _ (s.hooking (Hooking.installPendingLines s.engine.code path)).2 own
  turned k _ own := own
  defined _ _ _ own := own
  loaded _ _ own := own

end LiveProbe.Setup
