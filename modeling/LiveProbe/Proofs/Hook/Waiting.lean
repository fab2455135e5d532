import LiveProbe.Proofs.Hook.Attempts

/-!
Hooks that wait. A target is hooked as soon as the host grants it: at once, or when the host tells
of it. Trying several waiting hooks in turn comes to the same as asking for each beforehand, since
a hook on one target changes nothing of what is granted for another.
-/
namespace LiveProbe.Hooking

variable {s s' : Hooking} {code : Option CodeRegistry} {target : HookTarget}

theorem grants_congr (wiring : s'.wiring = s.wiring)
    (defined : ∀ m, (s'.host.body? m).isSome = (s.host.body? m).isSome) :
    s'.Grants code target ↔ s.Grants code target := by
  have refuses : s'.host.refuses = s.host.refuses := congrArg Wiring.refuses wiring
  cases target with
  | method m =>
    simp only [Grants, refuses, defined]
  | line l =>
    have untargeted : s'.hooks.untargeted = s.hooks.untargeted := congrArg Wiring.untargeted wiring
    have units : s'.host.units = s.host.units := congrArg Wiring.units wiring
    have place : s'.traceUnit code l = s.traceUnit code l := by
      unfold traceUnit
      rw [untargeted]
    have loaded : s'.host.isLoaded = s.host.isLoaded := by
      funext u
      unfold Host.isLoaded Host.allUnits
      rw [units]
    simp only [Grants, refuses, place, loaded]

theorem Frame.grants_iff {other : HookTarget} (frame : Frame other s s') :
    s'.Grants code target ↔ s.Grants code target := grants_congr frame.wiring frame.defined

theorem lookup_mem {registry : CodeRegistry} {file : String} {unit : CompiledUnit}
    (found : registry.lookup file = some unit) : ∃ key, (key, unit) ∈ registry.units := by
  unfold CodeRegistry.lookup at found
  cases direct : Table.get? file registry.units with
  | some u =>
    rw [direct] at found
    cases found
    exact ⟨_, Table.mem_of_get? direct⟩
  | none =>
    rw [direct] at found
    exact ⟨_, Table.mem_of_get? found⟩

theorem grants_line_iff_of_loaded {l : SourceLine} {registry : CodeRegistry}
    (active : registry.active = true)
    (loaded : ∀ e ∈ registry.units, s.host.isLoaded e.2 = true) :
    s.Grants (some registry) (.line l) ↔ s.host.refuses .installLine (.line l) = none ∧
      (s.hooks.untargeted = true ∨ (registry.lookup l.file).isSome = true) := by
  unfold Grants traceUnit
  refine and_congr_right fun _ => ?_
  simp only [Option.filter, active, if_true]
  cases found : registry.lookup l.file with
  | some unit =>
    obtain ⟨key, member⟩ := lookup_mem found
    refine ⟨fun _ => Or.inr rfl, fun _ => ⟨some unit, rfl, fun u same => ?_⟩⟩
    cases same
    exact loaded _ member
  | none =>
    by_cases untargeted : s.hooks.untargeted = true
    · simp [untargeted]
    · simp [untargeted, Host.notDefined]

theorem grants_line_iff {l : SourceLine} (willing : ∀ c t, s.host.refuses c t = none)
    {registry : CodeRegistry} (active : registry.active = true)
    (loaded : ∀ e ∈ registry.units, s.host.isLoaded e.2 = true) :
    s.Grants (some registry) (.line l) ↔
      s.hooks.untargeted = true ∨ (registry.lookup l.file).isSome = true := by
  rw [grants_line_iff_of_loaded active loaded, willing, and_iff_right rfl]

section Pending

theorem addPending_frame (target : HookTarget) (callback : Callback) (s : Hooking) :
    Frame target s (s.addPending target callback) := by
  cases target with
  | method m =>
    refine Frame.of_method (.refl m _) rfl rfl rfl (fun _ _ => rfl) ?_ (fun _ _ => rfl)
    intro other ne
    exact Table.get?_insert_of_ne ne _ _
  | line l =>
    refine Frame.of_line rfl (fun _ => ⟨rfl, rfl, rfl, rfl⟩) (fun _ _ => rfl) ?_ (fun _ _ => rfl)
    intro other ne
    exact Table.get?_insert_of_ne ne _ _

theorem addPending_anchored (anchored : s.Anchored) (target : HookTarget) (callback : Callback) :
    (s.addPending target callback).Anchored := by
  cases target with
  | method m => exact { anchored with
      pendingMethodKeys := Table.nodup_keys_insert anchored.pendingMethodKeys }
  | line l => exact { anchored with
      pendingLineKeys := Table.nodup_keys_insert anchored.pendingLineKeys }

theorem addPending_state (target : HookTarget) (callback : Callback) (s : Hooking) :
    (s.addPending target callback).hooks.isPending target = true ∧
      (s.addPending target callback).hooks.isInstalled target = s.hooks.isInstalled target := by
  cases target <;> simp [addPending, Hooks.isPending, Hooks.isInstalled, Table.contains_insert]

def forget (target : HookTarget) (s : Hooking) : Hooking :=
  { s with hooks := s.hooks.forgetPending target }

theorem forget_frame (target : HookTarget) (s : Hooking) : Frame target s (s.forget target) := by
  cases target with
  | method m =>
    refine Frame.of_method (.refl m _) rfl rfl rfl (fun _ _ => rfl) ?_ (fun _ _ => rfl)
    intro other ne
    exact Table.get?_erase_of_ne ne _
  | line l =>
    refine Frame.of_line rfl (fun _ => ⟨rfl, rfl, rfl, rfl⟩) (fun _ _ => rfl) ?_ (fun _ _ => rfl)
    intro other ne
    exact Table.get?_erase_of_ne ne _

theorem forget_anchored (anchored : s.Anchored) (target : HookTarget) :
    (s.forget target).Anchored := by
  cases target with
  | method m => exact { anchored with
      pendingMethodKeys := Table.nodup_keys_erase anchored.pendingMethodKeys m }
  | line l => exact { anchored with
      pendingLineKeys := Table.nodup_keys_erase anchored.pendingLineKeys l }

theorem forget_state (target : HookTarget) (s : Hooking) :
    (s.forget target).hooks.isPending target = false ∧
      (s.forget target).hooks.isInstalled target = s.hooks.isInstalled target := by
  cases target <;>
    simp [forget, Hooks.forgetPending, Hooks.isPending, Hooks.isInstalled, Table.contains_erase]

end Pending

theorem Attempt.declined {e : Error} {t : Hooking} (attempt : Attempt code target s (.error e, t)) :
    ¬ s.Grants code target := by
  intro grants
  have accepted := attempt.granted.mpr grants
  cases accepted

theorem Attempt.isPending {r : Except Error Unit × Hooking} (attempt : Attempt code target s r)
    (other : HookTarget) : r.2.hooks.isPending other = s.hooks.isPending other := by
  cases other with
  | method m => simp only [Hooks.isPending, attempt.pendingMethods]
  | line l => simp only [Hooks.isPending, attempt.pendingLines]

structure Request (code : Option CodeRegistry) (target : HookTarget) (s : Hooking)
    (r : Except Error Bool × Hooking) : Prop where
  frame : Frame target s r.2
  anchored : r.2.Anchored
  granted : r.1 = .ok true ↔ s.Grants code target
  installed : r.1 = .ok true →
    r.2.hooks.isInstalled target = true ∧ r.2.hooks.isPending target = false
  waiting : r.1 = .ok false →
    r.2.hooks.isInstalled target = false ∧ r.2.hooks.isPending target = true
  refused : ∀ e, r.1 = .error e → Same target s r.2

theorem hookWhenDefined_request (anchored : s.Anchored) (code : Option CodeRegistry)
    (free : s.hooks.isInstalled target = false) (idle : s.hooks.isPending target = false)
    (callback : Callback) : Request code target s (s.hookWhenDefined code target callback) := by
  have attempt := hook_attempt anchored code free callback
  unfold hookWhenDefined
  rcases attempted : s.hook code target callback with ⟨result, t⟩
  rw [attempted] at attempt
  cases result with
  | ok _ =>
    refine ⟨attempt.frame, attempt.anchored, ⟨fun _ => attempt.granted.mp rfl, fun _ => rfl⟩,
      fun _ => ⟨attempt.installed rfl, ?_⟩, fun h => by simp at h, fun e h => by simp at h⟩
    rw [attempt.isPending target, idle]
  | error e =>
    have declined := attempt.declined
    have same := attempt.refused e rfl
    cases e with
    | targetNotDefined detail =>
      obtain ⟨pending, installed⟩ := addPending_state target callback t
      refine ⟨attempt.frame.trans (addPending_frame target callback t),
        addPending_anchored attempt.anchored target callback,
        ⟨fun h => by simp at h, fun h => absurd h declined⟩, fun h => by simp at h,
        fun _ => ⟨?_, pending⟩, fun e h => by simp at h⟩
      rw [installed, same.isInstalled, free]
    | _ =>
      exact ⟨attempt.frame, attempt.anchored, ⟨fun h => by simp at h, fun h => absurd h declined⟩,
        fun h => by simp at h, fun h => by simp at h, fun _ _ => same⟩

structure Retry (code : Option CodeRegistry) (target : HookTarget) (s : Hooking)
    (r : Bool × Hooking) : Prop where
  frame : Frame target s r.2
  anchored : r.2.Anchored
  granted : r.1 = true ↔ s.Grants code target
  installed : r.1 = true →
    r.2.hooks.isInstalled target = true ∧ r.2.hooks.isPending target = false
  waits : r.1 = false → Same target s r.2

theorem retry_retry (anchored : s.Anchored) (code : Option CodeRegistry)
    (free : s.hooks.isInstalled target = false) (callback : Callback) :
    Retry code target s (s.retry code target callback) := by
  have attempt := hook_attempt anchored code free callback
  unfold retry
  rcases attempted : s.hook code target callback with ⟨result, t⟩
  rw [attempted] at attempt
  cases result with
  | ok _ =>
    obtain ⟨forgotten, installed⟩ := forget_state target t
    exact ⟨attempt.frame.trans (forget_frame target t), forget_anchored attempt.anchored target,
      ⟨fun _ => attempt.granted.mp rfl, fun _ => rfl⟩,
      fun _ => ⟨installed.trans (attempt.installed rfl), forgotten⟩, fun h => by simp at h⟩
  | error e =>
    have declined := attempt.declined
    have same := attempt.refused e rfl
    cases e <;> exact ⟨⟨attempt.frame.wiring, attempt.frame.apart, attempt.frame.defined⟩,
      attempt.anchored.of_methods rfl rfl rfl rfl rfl attempt.anchored.home,
      ⟨fun h => by simp at h, fun h => absurd h declined⟩, fun h => by simp at h,
      fun _ => by cases target <;> exact same⟩

def collect (code : Option CodeRegistry) (acc : List HookTarget × Hooking)
    (e : HookTarget × Callback) : List HookTarget × Hooking :=
  let r := acc.2.retry code e.1 e.2
  (acc.1 ++ if r.1 then [e.1] else [], r.2)

theorem retryAll_eq_foldl (code : Option CodeRegistry) (waiting : List (HookTarget × Callback))
    (s : Hooking) : s.retryAll code waiting = waiting.foldl (collect code) ([], s) := by
  unfold retryAll
  congr 1
  funext acc e
  obtain ⟨collected, t⟩ := acc
  obtain ⟨target, callback⟩ := e
  unfold collect
  rcases tried : t.retry code target callback with ⟨hooked, u⟩
  cases hooked <;> simp [tried]

theorem foldl_collect (code : Option CodeRegistry) (waiting : List (HookTarget × Callback))
    (acc : List HookTarget × Hooking) :
    waiting.foldl (collect code) acc =
      (acc.1 ++ (acc.2.retryAll code waiting).1, (acc.2.retryAll code waiting).2) := by
  rw [retryAll_eq_foldl]
  induction waiting generalizing acc with
  | nil => simp
  | cons e rest ih =>
    rw [List.foldl_cons, List.foldl_cons, ih, ih (collect code ([], acc.2) e)]
    simp [collect]

theorem retryAll_cons (code : Option CodeRegistry) (e : HookTarget × Callback)
    (rest : List (HookTarget × Callback)) (s : Hooking) :
    s.retryAll code (e :: rest) =
      ((if (s.retry code e.1 e.2).1 then [e.1] else []) ++
        ((s.retry code e.1 e.2).2.retryAll code rest).1,
        ((s.retry code e.1 e.2).2.retryAll code rest).2) := by
  rw [retryAll_eq_foldl, List.foldl_cons, foldl_collect]
  simp [collect]

structure Retried (code : Option CodeRegistry) (waiting : List HookTarget) (s : Hooking)
    (r : List HookTarget × Hooking) : Prop where
  wiring : r.2.wiring = s.wiring
  defined : ∀ m, (r.2.host.body? m).isSome = (s.host.body? m).isSome
  anchored : r.2.Anchored
  waited : ∀ t ∈ r.1, t ∈ waiting
  granted : ∀ t ∈ waiting, t ∈ r.1 ↔ s.Grants code t
  installed : ∀ t ∈ r.1, r.2.hooks.isInstalled t = true ∧ r.2.hooks.isPending t = false
  apart : ∀ t, t ∉ r.1 → Same t s r.2

theorem Retried.refl (anchored : s.Anchored) : Retried code [] s ([], s) :=
  ⟨rfl, fun _ => rfl, anchored, fun _ h => h, fun _ h => by simp at h, fun _ h => by simp at h,
    fun t _ => Same.refl t s⟩

theorem retryAll_retried (code : Option CodeRegistry) (waiting : List (HookTarget × Callback)) :
    ∀ {s : Hooking}, s.Anchored → (waiting.map (·.1)).Nodup →
      (∀ t ∈ waiting.map (·.1), s.hooks.isInstalled t = false) →
      Retried code (waiting.map (·.1)) s (s.retryAll code waiting) := by
  induction waiting with
  | nil =>
    intro s anchored _ _
    exact Retried.refl anchored
  | cons e rest ih =>
    intro s anchored nodup free
    simp only [List.map_cons, List.nodup_cons] at nodup
    simp only [List.map_cons, List.forall_mem_cons] at free
    have first := retry_retry anchored code free.1 e.2
    have stillFree : ∀ t ∈ rest.map (·.1),
        (s.retry code e.1 e.2).2.hooks.isInstalled t = false := by
      intro t member
      have apart : t ≠ e.1 := fun eq => nodup.1 (eq ▸ member)
      rw [(first.frame.apart t apart).isInstalled, free.2 t member]
    have later := ih first.anchored nodup.2 stillFree
    rw [retryAll_cons]
    have fresh : e.1 ∉ ((s.retry code e.1 e.2).2.retryAll code rest).1 :=
      fun member => nodup.1 (later.waited e.1 member)
    have head := later.apart e.1 fresh
    constructor
    case wiring => exact later.wiring.trans first.frame.wiring
    case defined => exact fun m => (later.defined m).trans (first.frame.defined m)
    case anchored => exact later.anchored
    case waited =>
      intro t member
      rcases List.mem_append.mp member with now | then_
      · split at now
        · rw [List.mem_singleton.mp now]
          exact List.mem_cons_self
        · cases now
      · exact List.mem_cons_of_mem _ (later.waited t then_)
    case granted =>
      intro t member
      rcases List.mem_cons.mp member with rfl | inRest
      · rw [List.mem_append, or_iff_left fresh, ← first.granted]
        split <;> simp_all
      · have apart : t ≠ e.1 := fun eq => nodup.1 (eq ▸ inRest)
        have outside : t ∉ (if (s.retry code e.1 e.2).1 = true then [e.1] else []) := by
          split <;> simp [apart]
        rw [List.mem_append, or_iff_right outside, later.granted t inRest]
        exact first.frame.grants_iff
    case installed =>
      intro t member
      rcases List.mem_append.mp member with now | then_
      · split at now
        · rename_i hooked
          rw [List.mem_singleton.mp now, head.isInstalled, head.isPending]
          exact first.installed hooked
        · cases now
      · exact later.installed t then_
    case apart =>
      intro t absent
      simp only [List.mem_append, not_or] at absent
      refine Same.trans ?_ (later.apart t absent.2)
      by_cases same : t = e.1
      · subst same
        cases answer : (s.retry code e.1 e.2).1 with
        | true => simp [answer] at absent
        | false => exact first.waits answer
      · exact first.frame.apart t same

theorem mem_map_keys_filter {κ α : Type} [DecidableEq κ] {table : List (κ × α)}
    (target : κ → HookTarget) (p : κ → Bool) {t : HookTarget} :
    t ∈ (table.filter fun e => p e.1).map (fun e => target e.1) ↔
      ∃ key, t = target key ∧ p key = true ∧ Table.contains key table = true := by
  rw [List.mem_map]
  constructor
  · intro ⟨e, member, same⟩
    obtain ⟨listed, own⟩ := List.mem_filter.mp member
    exact ⟨e.1, same.symm, own,
      Table.contains_iff_mem_keys.mpr (List.mem_map.mpr ⟨e, listed, rfl⟩)⟩
  · intro ⟨key, same, own, known⟩
    obtain ⟨value, found⟩ := Table.contains_iff.mp known
    exact ⟨(key, value), List.mem_filter.mpr ⟨Table.mem_of_get? found, own⟩, same.symm⟩

theorem mem_waitingMethods {typeName : String} {h : Hooks} :
    target ∈ (waitingMethods typeName h).map (·.1) ↔
      ∃ m, target = .method m ∧ m.typeName = typeName ∧ h.isPending target = true := by
  unfold waitingMethods
  rw [List.map_map]
  refine (mem_map_keys_filter HookTarget.method fun m => m.typeName == typeName).trans ?_
  simp only [beq_iff_eq]
  exact exists_congr fun m => and_congr_right fun same => by rw [same]; rfl

theorem mem_waitingLines {path : String} {h : Hooks} :
    target ∈ (waitingLines path h).map (·.1) ↔
      ∃ l, target = .line l ∧ l.file = Text.basename path ∧ h.isPending target = true := by
  unfold waitingLines
  rw [List.map_map]
  refine (mem_map_keys_filter HookTarget.line fun l => l.file == Text.basename path).trans ?_
  simp only [beq_iff_eq]
  exact exists_congr fun l => and_congr_right fun same => by rw [same]; rfl

theorem nodup_waitingMethods (anchored : s.Anchored) (typeName : String) :
    ((waitingMethods typeName s.hooks).map (·.1)).Nodup := by
  have keys := Table.nodup_keys_filter anchored.pendingMethodKeys (·.1.typeName == typeName)
  have targets := List.Nodup.map (fun _ _ => HookTarget.method.inj) keys
  unfold waitingMethods
  rw [List.map_map]
  rwa [Table.keys, List.map_map] at targets

theorem nodup_waitingLines_of_keys (distinct : (Table.keys s.hooks.pendingLines).Nodup)
    (path : String) : ((waitingLines path s.hooks).map (·.1)).Nodup := by
  have keys := Table.nodup_keys_filter distinct (·.1.file == Text.basename path)
  have targets := List.Nodup.map (fun _ _ => HookTarget.line.inj) keys
  unfold waitingLines
  rw [List.map_map]
  rwa [Table.keys, List.map_map] at targets

theorem nodup_waitingLines (anchored : s.Anchored) (path : String) :
    ((waitingLines path s.hooks).map (·.1)).Nodup :=
  nodup_waitingLines_of_keys anchored.pendingLineKeys path

/-- No waiting hook is installed. -/
def Exclusive (s : Hooking) : Prop :=
  ∀ t, s.hooks.isPending t = true → s.hooks.isInstalled t = false

theorem installPendingMethods_retried (anchored : s.Anchored) (exclusive : s.Exclusive)
    (code : Option CodeRegistry) (typeName : String) :
    Retried code (if s.hooks.closed then [] else (waitingMethods typeName s.hooks).map (·.1)) s
      (s.installPendingMethods code typeName) := by
  unfold installPendingMethods
  split
  · exact Retried.refl anchored
  · apply retryAll_retried code _ anchored (nodup_waitingMethods anchored typeName)
    intro t member
    obtain ⟨m, -, -, pending⟩ := mem_waitingMethods.mp member
    exact exclusive t pending

theorem installPendingLines_retried (anchored : s.Anchored) (exclusive : s.Exclusive)
    (code : Option CodeRegistry) (path : String) :
    Retried code (if s.hooks.closed then [] else (waitingLines path s.hooks).map (·.1)) s
      (s.installPendingLines code path) := by
  unfold installPendingLines
  split
  · exact Retried.refl anchored
  · apply retryAll_retried code _ anchored (nodup_waitingLines anchored path)
    intro t member
    obtain ⟨l, -, -, pending⟩ := mem_waitingLines.mp member
    exact exclusive t pending

end LiveProbe.Hooking
