import LiveProbe.Proofs.Engine.Composition

/-!
No waiting hook is lost. An engine that follows its host has all hooks installed that are granted:
a method is hooked if it is defined, a line if lines may be traced anywhere or a unit of its file
has been loaded. Definitions and units are what changes this, and the engine is told of both.
-/
namespace LiveProbe.Setup

variable {s s' : Setup} {propagate untargeted : Bool}

structure Registered (s : Setup) (r : CodeRegistry) : Prop where
  code : s.engine.code = some r
  active : r.active = true
  listeners : r.listeners = [.hooks]
  catalogs : r.Catalogs s.host.allUnits

/-- The engine is told of definitions and of units, and listens. -/
structure Wired (untargeted : Bool) (s : Setup) : Prop where
  opened : s.engine.hooks.closed = false
  anywhere : s.engine.hooks.untargeted = untargeted
  following : s.engine.hooks.definitions.isSome = true
  subscribed : (s.engine.code.bind (·.subscription)).isSome = true
  registered : ∃ r, Registered s r

theorem Wired.of_backdrop (wired : Wired untargeted s) (backdrop : Backdrop s s') :
    Wired untargeted s' := by
  have same := fun {α : Type} (f : Hooking.Wiring → α) => congrArg f backdrop.wiring
  obtain ⟨r, code, active, listeners, catalogs⟩ := wired.registered
  refine ⟨(same (·.closed)).trans wired.opened, (same (·.untargeted)).trans wired.anywhere, ?_, ?_,
    ⟨r, backdrop.code.trans code, active, listeners, ?_⟩⟩
  · rw [show s'.engine.hooks.definitions = _ from same (·.definitions)]
    exact wired.following
  · rw [backdrop.code]
    exact wired.subscribed
  · rw [Host.allUnits, show s'.host.units = s.host.units from same (·.units)]
    exact catalogs

structure Attuned (propagate untargeted : Bool) (s : Setup) : Prop where
  composed : Composed propagate s
  wired : Wired untargeted s
  aware : Aware s

theorem Attuned.of_backdrop (attuned : Attuned propagate untargeted s) (backdrop : Backdrop s s')
    (coherent : Coherent [] s') (aware : Aware s') : Attuned propagate untargeted s' :=
  ⟨attuned.composed.of_backdrop backdrop coherent, attuned.wired.of_backdrop backdrop, aware⟩

theorem Attuned.of_passage (attuned : Attuned propagate untargeted s) (passage : Passage s s') :
    Attuned propagate untargeted s' :=
  attuned.of_backdrop passage.backdrop passage.coherent (passage.aware attuned.aware)

theorem Attuned.of_unmoved (attuned : Attuned propagate untargeted s) (unmoved : Unmoved s s')
    (anchored : s'.held.Anchored) : Attuned propagate untargeted s' :=
  attuned.of_passage (Passage.of_unmoved attuned.composed.coherent unmoved anchored)

theorem Attuned.process (attuned : Attuned propagate untargeted s) (documents : List Json) :
    Attuned propagate untargeted (s.process documents).2 :=
  attuned.of_passage (process_passage attuned.composed.coherent documents)

theorem Attuned.tell (attuned : Attuned propagate untargeted s) (n : Notice) :
    Attuned propagate untargeted (s.tell n) :=
  attuned.of_unmoved (unmoved_tell n s) attuned.composed.coherent.anchored

theorem Attuned.settleDelivery (attuned : Attuned propagate untargeted s) :
    Attuned propagate untargeted s.settleDelivery :=
  attuned.of_unmoved (unmoved_settleDelivery s) attuned.composed.coherent.anchored

theorem Attuned.takeTurn (attuned : Attuned propagate untargeted s) (k : KnownProbe) :
    Attuned propagate untargeted (s.onProbes (Probes.takeTurn k)).2 := by
  have composed := attuned.composed.takeTurn k
  refine attuned.of_backdrop ⟨rfl, fun _ => rfl, rfl, rfl, rfl⟩ composed.coherent ?_
  exact attuned.aware.of_held ⟨rfl, fun _ => rfl, rfl, rfl, rfl⟩ rfl

theorem Attuned.definitionObservers (attuned : Attuned propagate untargeted s) :
    s.host.definitionObservers.map (·.2) = [.engine 0] := by
  obtain ⟨id, following⟩ := Option.isSome_iff_exists.mp attuned.wired.following
  rw [attuned.composed.definitions, following]
  rfl

theorem Attuned.compileObservers (attuned : Attuned propagate untargeted s) :
    s.host.compileObservers.map (·.2) = [.engine 0] := by
  obtain ⟨id, subscribed⟩ := Option.isSome_iff_exists.mp attuned.wired.subscribed
  rw [attuned.composed.compiles, subscribed]
  rfl

theorem Attuned.grants_method_iff (attuned : Attuned propagate untargeted s) (m : MethodName) :
    s.Grants (.method m) ↔ (s.host.body? m).isSome = true :=
  and_iff_right (attuned.composed.willing _ _)

theorem Registered.grants_line_iff_lookup {r : CodeRegistry} (registered : Registered s r)
    (willing : ∀ c t, s.host.refuses c t = none) (l : SourceLine) :
    s.Grants (.line l) ↔
      s.engine.hooks.untargeted = true ∨ (r.lookup l.file).isSome = true := by
  unfold Setup.Grants
  rw [registered.code]
  exact Hooking.grants_line_iff willing registered.active fun e member =>
    Host.isLoaded_of_mem (registered.catalogs.listed e member).1

theorem Registered.grants_line_iff {r : CodeRegistry} (registered : Registered s r)
    (willing : ∀ c t, s.host.refuses c t = none) {l : SourceLine}
    (base : Text.basename l.file = l.file) :
    s.Grants (.line l) ↔ s.engine.hooks.untargeted = true ∨
      ∃ u ∈ s.host.allUnits, l.file ≠ "" ∧ Text.basename u.path = l.file := by
  rw [registered.grants_line_iff_lookup willing, registered.catalogs.lookup_isSome_iff base]

theorem Coherent.base {inflight : List HookTarget} (coherent : Coherent inflight s) {l : SourceLine}
    (held : s.engine.hooks.isInstalled (.line l) = true ∨
      s.engine.hooks.isPending (.line l) = true) : Text.basename l.file = l.file := by
  have somewhere : ∃ k, s.engine.probes.Knows k ∧ k.At (.line l) := by
    rcases held with installed | pending
    · rcases (coherent.hooked _).mp installed with ⟨k, installs, here⟩ | ⟨-, k, awaits, here⟩
      · exact ⟨k, Or.inl installs, here⟩
      · exact ⟨k, Or.inr awaits, here⟩
    · obtain ⟨⟨k, awaits, here⟩, -⟩ := (coherent.waiting _).mp pending
      exact ⟨k, Or.inr awaits, here⟩
  obtain ⟨k, -, here⟩ := somewhere
  unfold KnownProbe.At Probe.target at here
  split at here
  · simp at here
  · simp only [Except.ok.injEq, Option.some.injEq, HookTarget.lineOf, HookTarget.line.injEq] at here
    rw [← here]
    exact Text.basename_idem _
  · cases here
  · simp at here

theorem Attuned.define (attuned : Attuned propagate untargeted s) (typeName : String)
    (bodies : List (String × Body)) :
    Attuned propagate untargeted
      (({ s with host := s.host.define typeName bodies } : Setup).typeDefined typeName) := by
  have defined := attuned.composed.define typeName bodies
  have wired : Wired untargeted { s with host := s.host.define typeName bodies } := by
    obtain ⟨opened, anywhere, following, subscribed, r, code, active, listeners, catalogs⟩ :=
      attuned.wired
    exact ⟨opened, anywhere, following, subscribed, r, code, active, listeners, catalogs⟩
  have attended := typeDefined_attended defined.coherent typeName
  rw [wired.opened] at attended
  refine ⟨defined.of_backdrop attended.backdrop attended.coherent,
    wired.of_backdrop attended.backdrop, attended.aware (fun t installed => ?_)
    (fun t pending => ?_)⟩
  · have granted := (attuned.aware t).1 installed
    cases t with
    | line l => exact granted
    | method m =>
      refine ⟨granted.1, ?_⟩
      show ((s.host.define typeName bodies).body? m).isSome = true
      have before : (s.host.body? m).isSome = true := granted.2
      rw [Host.body?_define]
      split
      · rw [Option.isSome_or, before, Bool.or_true]
      · exact before
  · have declined := (attuned.aware t).2 pending
    cases t with
    | line l => exact Or.inr declined
    | method m =>
      by_cases own : m.typeName = typeName
      · exact Or.inl (Hooking.mem_waitingMethods.mpr ⟨m, rfl, own, pending⟩)
      · refine Or.inr fun granted => declined ⟨granted.1, ?_⟩
        have defined : ((s.host.define typeName bodies).body? m).isSome = true := granted.2
        rwa [Host.body?_define, if_neg own] at defined

theorem lookup_register {r : CodeRegistry} {file : String} (base : Text.basename file = file)
    (path : String) (unit : CompiledUnit) :
    ((r.register path unit).2.lookup file).isSome = true ↔
      (r.lookup file).isSome = true ∨ file ∈ CodeRegistry.keysOf path := by
  rw [CodeRegistry.lookup_of_base base, CodeRegistry.lookup_of_base base]
  exact CodeRegistry.contains_register path unit r

def registering (r : CodeRegistry) (unit : CompiledUnit) (s : Setup) : Setup :=
  { s with engine := { s.engine with code := some (r.register unit.path unit).2 } }

theorem unitLoaded_eq {r : CodeRegistry} (code : s.engine.code = some r) (unit : CompiledUnit) :
    s.unitLoaded unit = if (r.register unit.path unit).1
      then r.listeners.foldl (tellListener unit) (s.registering r unit)
      else s.registering r unit := by
  have listeners : (r.register unit.path unit).2.listeners = r.listeners := by
    rw [CodeRegistry.register_eq]
  unfold unitLoaded registerUnit
  rw [code]
  dsimp only
  rw [listeners]
  rfl

theorem unitLoaded_of_unheard {r : CodeRegistry} (code : s.engine.code = some r)
    (unheard : r.listeners = []) (unit : CompiledUnit) :
    s.unitLoaded unit = s.registering r unit := by
  rw [unitLoaded_eq code, unheard]
  exact ite_self _

def loading (r : CodeRegistry) (path : String) (lines : List UInt32) (s : Setup) : Setup :=
  ({ s with host := (s.host.load path lines).2 } : Setup).registering r (s.host.load path lines).1

section Load

variable {r : CodeRegistry} {l : SourceLine}

theorem Registered.loading (registered : Registered s r) (path : String) (lines : List UInt32) :
    Registered (s.loading r path lines) (r.register path (s.host.load path lines).1).2 := by
  obtain ⟨code, active, listeners, catalogs⟩ := registered
  refine ⟨rfl, ?_, ?_, ?_⟩
  · rw [CodeRegistry.register_eq]
    exact active
  · rw [CodeRegistry.register_eq]
    exact listeners
  · apply (catalogs.register (s.host.load path lines).1).congr
    intro u
    rw [List.mem_append, List.mem_singleton]
    exact Host.mem_allUnits_load s.host path lines u

theorem unitLoaded_of_registered {r : CodeRegistry} {unit : CompiledUnit}
    (code : s.engine.code = some r) (listeners : r.listeners = [.hooks]) :
    s.unitLoaded unit = if (r.register unit.path unit).1
      then (s.registering r unit).fileKnown unit.path else s.registering r unit := by
  rw [unitLoaded_eq code, listeners]
  rfl

theorem Attuned.grants_loading_iff (attuned : Attuned propagate untargeted s)
    (registered : Registered s r) (path : String) (lines : List UInt32)
    (base : Text.basename l.file = l.file) :
    (s.loading r path lines).Grants (.line l) ↔
      s.Grants (.line l) ∨ l.file ∈ CodeRegistry.keysOf path := by
  rw [(registered.loading path lines).grants_line_iff_lookup attuned.composed.willing,
    registered.grants_line_iff_lookup attuned.composed.willing, lookup_register base, or_assoc]
  exact Iff.rfl

theorem Attuned.installed_loading (attuned : Attuned propagate untargeted s)
    (registered : Registered s r) (path : String) (lines : List UInt32) (t : HookTarget)
    (installed : s.engine.hooks.isInstalled t = true) : (s.loading r path lines).Grants t := by
  have granted := (attuned.aware t).1 installed
  cases t with
  | method m => exact granted
  | line l =>
    have base := attuned.composed.coherent.base (Or.inl installed)
    exact (attuned.grants_loading_iff registered path lines base).mpr (Or.inl granted)

theorem Attuned.pending_loading (attuned : Attuned propagate untargeted s)
    (registered : Registered s r) (path : String) (lines : List UInt32) (t : HookTarget)
    (pending : s.engine.hooks.isPending t = true) (granted : (s.loading r path lines).Grants t) :
    (r.register path (s.host.load path lines).1).1 = true ∧
      ∃ l, t = .line l ∧ l.file = Text.basename path := by
  have refused := (attuned.aware t).2 pending
  cases t with
  | method m => exact absurd granted refused
  | line l =>
    have base := attuned.composed.coherent.base (Or.inr pending)
    have own := ((attuned.grants_loading_iff registered path lines base).mp granted).resolve_left
      refused
    refine ⟨?_, l, rfl, ((CodeRegistry.mem_keysOf base).mp own).2.symm⟩
    -- a registry that had all keys of the unit would have granted the line before
    rw [← Bool.not_eq_false]
    intro known
    have found := (lookup_register (r := r) base path (s.host.load path lines).1).mpr (Or.inr own)
    rw [CodeRegistry.register_of_known known] at found
    exact refused ((registered.grants_line_iff_lookup attuned.composed.willing l).mpr
      (Or.inr found))

theorem Attuned.load (attuned : Attuned propagate untargeted s) (path : String)
    (lines : List UInt32) :
    Attuned propagate untargeted (({ s with host := (s.host.load path lines).2 } : Setup).unitLoaded
      (s.host.load path lines).1) := by
  obtain ⟨opened, anywhere, following, subscribed, r, registered⟩ := attuned.wired
  have told := registered.loading path lines
  have subscription :
      (r.register path (s.host.load path lines).1).2.subscription = r.subscription := by
    rw [CodeRegistry.register_eq]
  have composed : Composed propagate (s.loading r path lines) :=
    (attuned.composed.load path lines).register registered.code path _
  have wired : Wired untargeted (s.loading r path lines) := by
    refine ⟨opened, anywhere, following, ?_, _, told⟩
    rw [registered.code] at subscribed
    rw [told.code, Option.bind_some, subscription]
    exact subscribed
  have installed := attuned.installed_loading registered path lines
  have pending := attuned.pending_loading registered path lines
  have code : ({ s with host := (s.host.load path lines).2 } : Setup).engine.code = some r :=
    registered.code
  rw [unitLoaded_of_registered code registered.listeners]
  show Attuned propagate untargeted (if (r.register path (s.host.load path lines).1).1
    then (s.loading r path lines).fileKnown path else s.loading r path lines)
  cases added : (r.register path (s.host.load path lines).1).1 with
  | false =>
    refine ⟨composed, wired, fun t => ⟨installed t, fun waiting granted => ?_⟩⟩
    have new := (pending t waiting granted).1
    rw [added] at new
    cases new
  | true =>
    have attended := fileKnown_attended composed.coherent path
    rw [wired.opened] at attended
    refine ⟨composed.of_backdrop attended.backdrop attended.coherent,
      wired.of_backdrop attended.backdrop, attended.aware installed fun t waiting => ?_⟩
    by_cases granted : (s.loading r path lines).Grants t
    · obtain ⟨-, l, same, own⟩ := pending t waiting granted
      exact Or.inl (Hooking.mem_waitingLines.mpr ⟨l, same, own, waiting⟩)
    · exact Or.inr granted

end Load

end LiveProbe.Setup
