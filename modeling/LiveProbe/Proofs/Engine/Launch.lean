import LiveProbe.Proofs.Engine.Attunement

/-!
The start of an engine. On a host that nobody else observes, a complete engine is coherent before
it starts, and it knows what the host has loaded and defined once it has started.
-/
namespace LiveProbe.Setup

variable {s : Setup} {propagate : Bool}

structure Pristine (h : Host) : Prop where
  traces : h.traces = []
  definitions : h.definitionObservers = []
  compiles : h.compileObservers = []
  willing : ∀ c t, h.refuses c t = none
  lists : h.listsUnits = true
  plain : h.Plain

def unstarted (settings : Settings) (origin : Origin) (h : Host) (journal : List Occurrence)
    (warnings : List Warning) : Setup :=
  ⟨h, Engine.complete 0 settings origin, journal, warnings⟩

section Start

variable {h : Host} (settings : Settings) (origin : Origin) (journal : List Occurrence)
  (warnings : List Warning)

theorem anchored_unstarted (bare : h.traces = []) :
    (unstarted settings origin h journal warnings).held.Anchored := by
  refine ⟨?_, ?_, ?_, ?_, List.nodup_nil, List.nodup_nil, List.nodup_nil⟩
  · intro m i found
    cases found
  · show h.traces.map _ = _
    rw [bare]
    rfl
  · show (h.traces.map _).Nodup
    rw [bare]
    exact List.nodup_nil
  · show ∀ t ∈ h.traces, _
    rw [bare]
    simp

theorem idle_unstarted (t : HookTarget) :
    (unstarted settings origin h journal warnings).engine.hooks.isInstalled t = false ∧
      (unstarted settings origin h journal warnings).engine.hooks.isPending t = false := by
  cases t <;> exact ⟨rfl, rfl⟩

theorem composed_unstarted (pristine : Pristine h) :
    Composed settings.propagate (unstarted settings origin h journal warnings) := by
  refine ⟨⟨anchored_unstarted settings origin journal warnings pristine.traces,
    Probes.ordered_empty _, rfl, fun t => ?_, fun t => ?_,
    fun t installed => absurd installed (Probes.not_installedAt_empty _ t)⟩, rfl, rfl,
    pristine.willing, pristine.lists, pristine.definitions, pristine.compiles⟩
  · rw [(idle_unstarted settings origin journal warnings t).1]
    simp only [Bool.false_eq_true, List.not_mem_nil, false_and, or_false, false_iff]
    exact Probes.not_installedAt_empty _ t
  · rw [(idle_unstarted settings origin journal warnings t).2]
    simp only [Bool.false_eq_true, List.not_mem_nil, not_false_eq_true, and_true, false_iff]
    exact Probes.not_pendingAt_empty _ t

theorem composed_start (pristine : Pristine h) :
    Composed settings.propagate (unstarted settings origin h journal warnings).start :=
  (composed_unstarted settings origin journal warnings pristine).track.subscribe

end Start

theorem foldl_unitLoaded_of_unheard (units : List CompiledUnit) :
    ∀ {s : Setup} {r : CodeRegistry} {known : List CompiledUnit}, s.engine.code = some r →
      r.listeners = [] → r.Catalogs known →
      ∃ r', units.foldl unitLoaded s = { s with engine := { s.engine with code := some r' } } ∧
        r'.listeners = [] ∧ r'.subscription = r.subscription ∧ r'.Catalogs (known ++ units) := by
  induction units with
  | nil =>
    intro s r known code unheard catalogs
    refine ⟨r, ?_, unheard, rfl, by rwa [List.append_nil]⟩
    rw [← code]
    rfl
  | cons unit rest ih =>
    intro s r known code unheard catalogs
    have kept := CodeRegistry.register_eq unit.path unit r
    have unheard' : (r.register unit.path unit).2.listeners = [] := by
      rw [kept]
      exact unheard
    have entered := unitLoaded_of_unheard code unheard unit
    obtain ⟨r', done, listeners, subscription, all⟩ :=
      ih (s := s.registering r unit) rfl unheard' (catalogs.register unit)
    refine ⟨r', ?_, listeners, ?_, ?_⟩
    · rw [List.foldl_cons, entered, done]
      rfl
    · rw [subscription, kept]
    · rwa [List.append_assoc] at all

theorem track_unstarted_listed (h : Host) (settings : Settings) (origin : Origin)
    (journal : List Occurrence) (warnings : List Warning) :
    let s := unstarted settings origin h journal warnings
    ∃ r : CodeRegistry, s.track = { s with
        host := (h.subscribeCompiles (.engine 0)).2
        engine := { s.engine with code := some r } } ∧
      r.active = true ∧ r.listeners = [] ∧ r.subscription = some (h.lastId + 1) ∧
      r.Catalogs h.loadedUnits := by
  intro s
  have tracked := track_of_idle (s := s) rfl rfl rfl
  let s' := ({ s with host := (h.subscribeCompiles (.engine 0)).2 } : Setup).setCode
    fun c => { c with subscription := some (h.lastId + 1) }
  obtain ⟨r, entered, unheard, subscription, catalogs⟩ :=
    foldl_unitLoaded_of_unheard (h.subscribeCompiles (.engine 0)).2.loadedUnits
      (s := s') (r := { subscription := some (h.lastId + 1) }) rfl rfl
      ⟨CodeRegistry.Catalogs.empty.listed, CodeRegistry.Catalogs.empty.covers⟩
  refine ⟨{ r with active := true }, ?_, rfl, unheard, subscription, catalogs.listed,
    catalogs.covers⟩
  rw [tracked]
  exact (congrArg (fun x => x.setCode fun c => { c with active := true }) entered).trans rfl

theorem track_unstarted {h : Host} (lists : h.listsUnits = true) (settings : Settings)
    (origin : Origin) (journal : List Occurrence) (warnings : List Warning) :
    let s := unstarted settings origin h journal warnings
    ∃ r : CodeRegistry, s.track = { s with
        host := (h.subscribeCompiles (.engine 0)).2
        engine := { s.engine with code := some r } } ∧
      r.active = true ∧ r.listeners = [] ∧ r.subscription = some (h.lastId + 1) ∧
      r.Catalogs h.allUnits := by
  obtain ⟨r, tracked, active, unheard, subscription, catalogs⟩ :=
    track_unstarted_listed h settings origin journal warnings
  exact ⟨r, tracked, active, unheard, subscription,
    catalogs.congr fun u => (Host.mem_loadedUnits lists u).symm⟩

theorem attuned_start {h : Host} (pristine : Pristine h) (settings : Settings) (origin : Origin)
    (journal : List Occurrence) (warnings : List Warning) :
    Attuned settings.propagate settings.untargetedTracing
      (unstarted settings origin h journal warnings).start := by
  have composed := composed_start settings origin journal warnings pristine
  obtain ⟨r, tracked, active, unheard, subscription, catalogs⟩ :=
    track_unstarted pristine.lists settings origin journal warnings
  unfold start at composed ⊢
  rw [tracked] at composed ⊢
  refine ⟨composed, ⟨rfl, rfl, rfl, ?_, r.addListener .hooks, rfl, active, ?_, ?_⟩, fun t => ?_⟩
  · show (r.subscription).isSome = true
    rw [subscription]
    rfl
  · show r.listeners ++ [.hooks] = [.hooks]
    rw [unheard]
    rfl
  · exact ⟨catalogs.listed, catalogs.covers⟩
  · constructor
    · intro installed
      cases t <;> cases installed
    · intro pending
      cases t <;> cases pending

end LiveProbe.Setup
