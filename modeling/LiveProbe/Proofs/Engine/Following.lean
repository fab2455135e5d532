import LiveProbe.Proofs.Engine.Coherence

/-!
Following the host. When waiting hooks have been installed, their targets are in flight until the
probes at them have been promoted; after that the engine is coherent again, and no hook waits that
would be granted.
-/
namespace LiveProbe.Setup

variable {s s' : Setup} {t : HookTarget} {inflight : List HookTarget}

theorem held_hookInstalled (s : Setup) (t : HookTarget) : (s.hookInstalled t).held = s.held := by
  have promoted : ∀ (ks : List KnownProbe) (s : Setup), (ks.foldl promote s).held = s.held := by
    intro ks
    induction ks with
    | nil => exact fun s => rfl
    | cons k rest ih => exact fun s => ih (s.promote k)
  unfold hookInstalled
  split
  · exact promoted _ s
  · rfl
  · rfl

theorem foldl_hookInstalled_keeps {P : Setup → Prop} (promoted : ∀ s k, P s → P (s.promote k))
    (noted : ∀ s t, P s → P (s.note (.installed t))) (targets : List HookTarget) (s : Setup) (holds : P s) :
    P (targets.foldl hookInstalled s) := by
  refine List.foldlRecOn targets hookInstalled holds fun s holds t _ => ?_
  unfold hookInstalled
  split
  · exact List.foldlRecOn _ promote holds fun s holds k _ => promoted s k holds
  · exact noted s _ holds
  · exact holds

theorem held_foldl_hookInstalled (targets : List HookTarget) (s : Setup) :
    (targets.foldl hookInstalled s).held = s.held := by
  induction targets generalizing s with
  | nil => rfl
  | cons t rest ih => exact (ih (s.hookInstalled t)).trans (held_hookInstalled s t)

theorem held_typeDefined (s : Setup) (typeName : String) :
    (s.typeDefined typeName).held = (s.held.installPendingMethods s.engine.code typeName).2 :=
  held_foldl_hookInstalled _ _

theorem held_fileKnown (s : Setup) (path : String) :
    (s.fileKnown path).held = (s.held.installPendingLines s.engine.code path).2 :=
  held_foldl_hookInstalled _ _

theorem code_fileKnown (s : Setup) (path : String) :
    (s.fileKnown path).engine.code = s.engine.code :=
  foldl_hookInstalled_keeps (P := fun s' => s'.engine.code = s.engine.code) (fun _ _ same => same)
    (fun _ _ same => same) _ _ rfl

/-- Some probes that waited are installed now. -/
structure Promotion (promoted : List KnownProbe) (s s' : Setup) : Prop where
  held : s'.held = s.held
  backdrop : Backdrop s s'
  ordered : s'.engine.probes.Ordered
  installs : ∀ k, s'.engine.probes.Installs k ↔ s.engine.probes.Installs k ∨ k ∈ promoted
  awaits : ∀ k, s'.engine.probes.Awaits k ↔ s.engine.probes.Awaits k ∧ k ∉ promoted

theorem foldl_promote_promotion (ks : List KnownProbe) :
    ∀ {s : Setup}, s.engine.probes.Ordered → ks.Nodup → (∀ k ∈ ks, s.engine.probes.Awaits k) →
      Promotion ks s (ks.foldl promote s) := by
  induction ks with
  | nil =>
    intro s ordered _ _
    exact ⟨rfl, Backdrop.refl s, ordered, fun k => by simp, fun k => by simp⟩
  | cons k rest ih =>
    intro s ordered nodup waiting
    obtain ⟨fresh, nodupRest⟩ := List.nodup_cons.mp nodup
    obtain ⟨awaits, later⟩ := List.forall_mem_cons.mp waiting
    have installs' := Probes.installs_promote awaits ordered
    have awaits' := Probes.awaits_promote awaits ordered
    have still : ∀ k' ∈ rest, (s.promote k).engine.probes.Awaits k' := by
      intro k' member
      refine (awaits' k').mpr ⟨later k' member, ?_⟩
      intro same
      subst same
      exact fresh member
    have rest_ := ih (ordered.promote awaits) nodupRest still
    constructor
    case held => exact rest_.held
    case backdrop =>
      have step : Backdrop s (s.promote k) := ⟨rfl, fun _ => rfl, rfl, rfl, rfl⟩
      exact step.trans rest_.backdrop
    case ordered => exact rest_.ordered
    case installs =>
      intro k'
      rw [List.foldl_cons, rest_.installs, List.mem_cons, ← or_assoc]
      exact or_congr_left (installs' k')
    case awaits =>
      intro k'
      rw [List.foldl_cons, rest_.awaits, List.mem_cons, not_or, ← and_assoc]
      exact and_congr_left fun _ => awaits' k'

/-- The probes that wait at a target are installed, whatever else is true of the target. -/
structure Landing (t : HookTarget) (s s' : Setup) : Prop where
  held : s'.held = s.held
  backdrop : Backdrop s s'
  ordered : s'.engine.probes.Ordered
  installedAt : ∀ t', s'.engine.probes.InstalledAt t' ↔
    s.engine.probes.InstalledAt t' ∨ t' = t ∧ s.engine.probes.PendingAt t'
  pendingAt : ∀ t', s'.engine.probes.PendingAt t' ↔ s.engine.probes.PendingAt t' ∧ t' ≠ t

theorem promoteAt_landing (ordered : s.engine.probes.Ordered) (t : HookTarget) :
    Landing t s (s.promoteAt t) := by
  have mem := fun k => Probes.mem_waitingAt (k := k) (t := t) ordered
  have promotion := foldl_promote_promotion (s.engine.probes.waitingAt t) ordered
    (ordered.nodup_waitingAt t) fun k member => ((mem k).mp member).1
  refine ⟨promotion.held, promotion.backdrop, promotion.ordered, fun t' => ?_, fun t' => ?_⟩
  · constructor
    · intro both
      obtain ⟨k, installs, there⟩ := both
      rcases (promotion.installs k).mp installs with before | member
      · exact Or.inl ⟨k, before, there⟩
      · obtain ⟨awaits, here⟩ := (mem k).mp member
        exact Or.inr ⟨there.unique here, k, awaits, there⟩
    · intro either
      rcases either with ⟨k, installs, there⟩ | ⟨rfl, k, awaits, there⟩
      · exact ⟨k, (promotion.installs k).mpr (Or.inl installs), there⟩
      · exact ⟨k, (promotion.installs k).mpr (Or.inr ((mem k).mpr ⟨awaits, there⟩)), there⟩
  · constructor
    · intro both
      obtain ⟨k, awaits, there⟩ := both
      obtain ⟨before, absent⟩ := (promotion.awaits k).mp awaits
      refine ⟨⟨k, before, there⟩, ?_⟩
      intro same
      subst same
      exact absent ((mem k).mpr ⟨before, there⟩)
    · intro both
      obtain ⟨⟨k, awaits, there⟩, other⟩ := both
      refine ⟨k, (promotion.awaits k).mpr ⟨awaits, fun member => ?_⟩, there⟩
      exact other (there.unique ((mem k).mp member).2)

theorem promoteAt_coherent (coherent : Coherent (t :: inflight) s) :
    Coherent inflight (s.promoteAt t) ∧ Backdrop s (s.promoteAt t) ∧
      (s.promoteAt t).held = s.held := by
  obtain ⟨held, backdrop, ordered, installedAt, pendingAt⟩ := promoteAt_landing coherent.ordered t
  have hooks : (s.promoteAt t).engine.hooks = s.engine.hooks := congrArg Hooking.hooks held
  refine ⟨?_, backdrop, held⟩
  constructor
  case anchored =>
    rw [held]
    exact coherent.anchored
  case ordered => exact ordered
  case observer => exact backdrop.observer.trans coherent.observer
  case hooked =>
    intro t'
    rw [hooks, coherent.hooked, installedAt, pendingAt, List.mem_cons]
    by_cases own : t' = t <;> simp [own]
  case waiting =>
    intro t'
    rw [hooks, coherent.waiting, pendingAt, List.mem_cons, not_or, and_assoc]
  case uniform =>
    intro t'
    rw [installedAt, pendingAt]
    rintro (installed | ⟨same, -⟩) ⟨pending, other⟩
    · exact coherent.uniform t' installed pending
    · exact other same

theorem foldl_hookInstalled_coherent (targets : List HookTarget) :
    ∀ {s : Setup}, Coherent targets s →
      Coherent [] (targets.foldl hookInstalled s) ∧ Backdrop s (targets.foldl hookInstalled s) ∧
        (targets.foldl hookInstalled s).held = s.held := by
  induction targets with
  | nil =>
    intro s coherent
    exact ⟨coherent, Backdrop.refl s, rfl⟩
  | cons t rest ih =>
    intro s coherent
    have told : s.hookInstalled t = s.promoteAt t := by
      unfold hookInstalled
      rw [coherent.observer]
    obtain ⟨landed, backdrop, held⟩ := promoteAt_coherent coherent
    rw [List.foldl_cons, told]
    obtain ⟨settled, backdrop', held'⟩ := ih landed
    exact ⟨settled, backdrop.trans backdrop', held'.trans held⟩

def withHeld (h : Hooking) (s : Setup) : Setup :=
  { s with host := h.host, warnings := h.warnings, engine := { s.engine with hooks := h.hooks } }

variable {waiting : List HookTarget} {r : List HookTarget × Hooking}

theorem retried_coherent (coherent : Coherent [] s)
    (retried : Hooking.Retried s.engine.code waiting s.held r)
    (pending : ∀ t ∈ waiting, s.engine.hooks.isPending t = true) :
    Coherent r.1 (s.withHeld r.2) := by
  constructor
  case anchored => exact retried.anchored
  case ordered => exact coherent.ordered
  case observer => exact coherent.observer
  case uniform => exact coherent.uniform
  case hooked =>
    intro t
    show r.2.hooks.isInstalled t = true ↔ _
    by_cases landed : t ∈ r.1
    · have pendingAt := ((coherent.waiting t).mp (pending t (retried.waited t landed))).1
      exact ⟨fun _ => Or.inr ⟨landed, pendingAt⟩, fun _ => (retried.installed t landed).1⟩
    · rw [(retried.apart t landed).isInstalled]
      apply (coherent.hooked t).trans
      simp [landed, withHeld]
  case waiting =>
    intro t
    show r.2.hooks.isPending t = true ↔ _
    by_cases landed : t ∈ r.1
    · rw [(retried.installed t landed).2]
      simp [landed]
    · rw [(retried.apart t landed).isPending]
      apply (coherent.waiting t).trans
      simp [landed, withHeld]

theorem retried_backdrop (retried : Hooking.Retried s.engine.code waiting s.held r) :
    Backdrop s (s.withHeld r.2) := ⟨retried.wiring, retried.defined, rfl, rfl, rfl⟩

theorem retried_aware (retried : Hooking.Retried s.engine.code waiting s.held r)
    (installed : ∀ t, s.engine.hooks.isInstalled t = true → s.Grants t)
    (waits : ∀ t, s.engine.hooks.isPending t = true → t ∈ waiting ∨ ¬ s.Grants t) :
    Aware (s.withHeld r.2) := by
  intro t
  rw [(retried_backdrop retried).grants_iff]
  show (r.2.hooks.isInstalled t = true → _) ∧ (r.2.hooks.isPending t = true → _)
  by_cases landed : t ∈ r.1
  · rw [(retried.installed t landed).2]
    exact ⟨fun _ => (retried.granted t (retried.waited t landed)).mp landed, fun h => by cases h⟩
  · rw [(retried.apart t landed).isInstalled, (retried.apart t landed).isPending]
    refine ⟨installed t, fun pending granted => ?_⟩
    rcases waits t pending with tried | declined
    · exact landed ((retried.granted t tried).mpr granted)
    · exact declined granted

theorem Aware.of_held (aware : Aware s) (backdrop : Backdrop s s') (held : s'.held = s.held) :
    Aware s' := by
  have hooks : s'.engine.hooks = s.engine.hooks := congrArg Hooking.hooks held
  apply aware.of_backdrop backdrop
  intro t
  rw [hooks]
  exact ⟨Or.inl, Or.inl⟩

/-- Waiting hooks have been tried, and the observer of the installed ones has been told. -/
structure Attended (waiting : List HookTarget) (s s' : Setup) : Prop where
  coherent : Coherent [] s'
  backdrop : Backdrop s s'
  aware : (∀ t, s.engine.hooks.isInstalled t = true → s.Grants t) →
    (∀ t, s.engine.hooks.isPending t = true → t ∈ waiting ∨ ¬ s.Grants t) → Aware s'

theorem attended_of_retried (coherent : Coherent [] s)
    (retried : Hooking.Retried s.engine.code waiting s.held r)
    (pending : ∀ t ∈ waiting, s.engine.hooks.isPending t = true) :
    Attended waiting s (r.1.foldl hookInstalled (s.withHeld r.2)) := by
  obtain ⟨settled, backdrop, held⟩ :=
    foldl_hookInstalled_coherent r.1 (retried_coherent coherent retried pending)
  exact ⟨settled, (retried_backdrop retried).trans backdrop,
    fun installed waits => (retried_aware retried installed waits).of_held backdrop held⟩

theorem typeDefined_attended (coherent : Coherent [] s) (typeName : String) :
    Attended (if s.engine.hooks.closed then []
      else (Hooking.waitingMethods typeName s.engine.hooks).map (·.1)) s
      (s.typeDefined typeName) := by
  refine attended_of_retried coherent (Hooking.installPendingMethods_retried coherent.anchored
    coherent.exclusive s.engine.code typeName) fun t member => ?_
  split at member
  · cases member
  · obtain ⟨m, -, -, pending⟩ := Hooking.mem_waitingMethods.mp member
    exact pending

theorem fileKnown_attended (coherent : Coherent [] s) (path : String) :
    Attended (if s.engine.hooks.closed then []
      else (Hooking.waitingLines path s.engine.hooks).map (·.1)) s (s.fileKnown path) := by
  refine attended_of_retried coherent (Hooking.installPendingLines_retried coherent.anchored
    coherent.exclusive s.engine.code path) fun t member => ?_
  split at member
  · cases member
  · obtain ⟨l, -, -, pending⟩ := Hooking.mem_waitingLines.mp member
    exact pending

end LiveProbe.Setup
