import LiveProbe.Proofs.Engine.Following
import LiveProbe.Proofs.Hook.Holding
import LiveProbe.Proofs.Line.Stock

/-!
A manager in the service of its host: what it holds for targets, as the host defines types and loads
units, and as its registry starts and stops. Of all that, only the telling of a type or a file
touches what is held, and it does no more than install what has waited.
-/
namespace LiveProbe

theorem CodeRegistry.lookup_register_mono {r : CodeRegistry} {location : String} (path : String)
    (unit : CompiledUnit) (known : (r.lookup location).isSome = true) :
    ((r.register path unit).2.lookup location).isSome = true := by
  have keeps := (extends_register path unit r).keeps
  have found : ∀ r : CodeRegistry, (r.lookup location).isSome =
      (Table.contains location r.units || Table.contains (Text.basename location) r.units) := by
    intro r
    unfold lookup Table.contains
    cases Table.get? location r.units <;> simp
  rw [found, Bool.or_eq_true] at known ⊢
  exact known.imp (keeps _) (keeps _)

namespace Hooking

variable {s : Hooking} {code code' : Option CodeRegistry}

theorem Steadfast.load (steadfast : s.Steadfast code) (path : String) (lines : List UInt32) :
    Steadfast code { s with host := (s.host.load path lines).2 } := by
  have later := fun t member => Nat.le_succ_of_le (steadfast.anchored.bounded t member)
  refine { steadfast with
    anchored := { steadfast.anchored with bounded := later }
    loaded := fun r same e member => ?_ }
  obtain ⟨u, listed, own⟩ := List.any_eq_true.mp (steadfast.loaded r same e member)
  exact List.any_eq_true.mpr
    ⟨u, (s.host.mem_allUnits_load path lines u).mpr (Or.inl listed), own⟩

theorem define_cases (s : Hooking) (typeName : String) (methods : List (String × Code))
    (t : HookTarget) :
    let s' : Hooking :=
      { s with host := s.host.define typeName (methods.map fun e => (e.1, .program e.2)) }
    Same t s s' ∨ ∃ m program, t = .method m ∧ s'.host.body? m = some (.program program) := by
  intro s'
  cases t with
  | line l => exact Or.inl ⟨rfl, rfl, rfl⟩
  | method m =>
    rcases s.host.body?_define_cases typeName methods m with ⟨program, -, -, anew⟩ | same
    · exact Or.inr ⟨m, program, rfl, anew⟩
    · exact Or.inl ⟨rfl, rfl, rfl, same⟩

theorem calls_of_program {m : MethodName} {program : Code}
    (body : s.host.body? m = some (.program program)) : s.calls? (.method m) = none := by
  have layerless : ∀ n i, s.host.layer? m n i = none := fun n i => by
    unfold Host.layer?
    rw [body]
    rfl
  unfold calls?
  simp only [layerless, Option.map_none, ite_self]
  cases Table.get? m s.hooks.methods <;> rfl

theorem holding_define (s : Hooking) (typeName : String) (methods : List (String × Code))
    (t : HookTarget) :
    let s' : Hooking :=
      { s with host := s.host.define typeName (methods.map fun e => (e.1, .program e.2)) }
    s'.holding t = s.holding t ∨ s'.holding t = { s.holding t with calls := none } := by
  intro s'
  rcases s.define_cases typeName methods t with same | ⟨m, program, rfl, anew⟩
  · exact Or.inl (same.holding rfl)
  · exact Or.inr (congrArg (fun c => Holding.mk _ c _) (calls_of_program anew))

theorem Steadfast.define (steadfast : s.Steadfast code) (typeName : String)
    (methods : List (String × Code)) : Steadfast code
      { s with host := s.host.define typeName (methods.map fun e => (e.1, .program e.2)) } := by
  have cases := fun m => s.define_cases typeName methods (.method m)
  refine { steadfast with
    anchored := { steadfast.anchored with }
    defined := fun m installed => ?_
    bare := fun m installed none => ?_ }
  · rcases cases m with ⟨-, -, -, same⟩ | ⟨_, program, ⟨⟩, anew⟩
    · exact (congrArg Option.isSome same).trans (steadfast.defined m installed)
    · exact (congrArg Option.isSome anew).trans rfl
  · rcases cases m with same | ⟨_, program, ⟨⟩, anew⟩
    · obtain ⟨program, body⟩ := steadfast.bare m installed
        ((congrArg Holding.calls (same.holding rfl)).symm.trans none)
      exact ⟨program, same.2.2.2.trans body⟩
    · exact ⟨program, anew⟩

theorem Steadfast.of_code (steadfast : s.Steadfast code)
    (loaded : ∀ r, code' = some r → ∀ e ∈ r.units, s.host.isLoaded e.2 = true)
    (keeps : ∀ r, code = some r → ∃ r', code' = some r' ∧
      ∀ file, (r.lookup file).isSome = true → (r'.lookup file).isSome = true) :
    s.Steadfast code' := by
  refine { steadfast with loaded, known := fun l installed => ?_ }
  rcases steadfast.known l installed with untargeted | ⟨r, same, found⟩
  · exact Or.inl untargeted
  · obtain ⟨r', same', kept⟩ := keeps r same
    exact Or.inr ⟨r', same', kept l.file found⟩

theorem Steadfast.of_units (steadfast : s.Steadfast code)
    {f : CodeRegistry → CodeRegistry} (units : ∀ r, (f r).units = r.units) :
    s.Steadfast (code.map f) := by
  refine steadfast.of_code (fun r same => ?_) fun r same => ?_
  · obtain ⟨r', before, rfl⟩ := Option.map_eq_some_iff.mp same
    rw [units]
    exact steadfast.loaded r' before
  · refine ⟨f r, by rw [same]; rfl, fun file found => ?_⟩
    unfold CodeRegistry.lookup at found ⊢
    rwa [units]

end Hooking

namespace Setup

variable {s s' : Setup}

/-- The engine, whose number is zero, is the only one that observes its host; and what its hooks
hold of targets stands. -/
structure InService (s : Setup) : Prop where
  steadfast : s.held.Steadfast s.engine.code
  number : s.engine.hooks.manager = 0
  definitions : s.host.definitionObservers =
    s.engine.hooks.definitions.toList.map fun id => (id, Observer.engine 0)
  compiles : s.host.compileObservers =
    (s.engine.code.bind (·.subscription)).toList.map fun id => (id, Observer.engine 0)

theorem InService.of_held (service : s.InService) {code : Option CodeRegistry}
    (same : s'.engine.code = code) (steadfast : s'.held.Steadfast code)
    (wiring : s'.held.wiring = s.held.wiring)
    (subscription : code.bind (·.subscription) = s.engine.code.bind (·.subscription)) :
    s'.InService where
  steadfast := same ▸ steadfast
  number := (congrArg Hooking.Wiring.manager wiring).trans service.number
  definitions := by
    have observers : s'.host.definitionObservers = s.host.definitionObservers :=
      congrArg Hooking.Wiring.definitionObservers wiring
    have definitions : s'.engine.hooks.definitions = s.engine.hooks.definitions :=
      congrArg Hooking.Wiring.definitions wiring
    rw [observers, definitions]
    exact service.definitions
  compiles := by
    have observers : s'.host.compileObservers = s.host.compileObservers :=
      congrArg Hooking.Wiring.compileObservers wiring
    rw [observers, same, subscription]
    exact service.compiles

/-- The engine has attended to something that its host told it, and no more than that. -/
structure Attends (s s' : Setup) : Prop where
  service : s'.InService
  wiring : s'.held.wiring = s.held.wiring
  tried : ∀ t, (s.held.holding t).Tried (s'.held.holding t)

theorem Attends.refl (service : s.InService) : s.Attends s := ⟨service, rfl, fun _ => Or.inl rfl⟩

theorem Attends.trans {s'' : Setup} (first : s.Attends s') (second : s'.Attends s'') :
    s.Attends s'' :=
  ⟨second.service, second.wiring.trans first.wiring,
    fun t => (first.tried t).trans (second.tried t)⟩

theorem InService.attends (service : s.InService) (code : s'.engine.code = s.engine.code)
    (tries : Hooking.Tries s.engine.code s.held s'.held) : s.Attends s' :=
  ⟨service.of_held code tries.steadfast tries.wiring rfl, tries.wiring, tries.tried⟩

theorem InService.fileKnown (service : s.InService) (path : String) : s.Attends (s.fileKnown path) := by
  refine service.attends (code_fileKnown s path) ?_
  rw [held_fileKnown]
  exact service.steadfast.installPendingLines path

theorem code_typeDefined (s : Setup) (typeName : String) :
    (s.typeDefined typeName).engine.code = s.engine.code :=
  foldl_hookInstalled_keeps (P := fun s' => s'.engine.code = s.engine.code) (fun _ _ same => same)
    (fun _ _ same => same) _ _ rfl

theorem InService.typeDefined (service : s.InService) (typeName : String) :
    s.Attends (s.typeDefined typeName) := by
  refine service.attends (code_typeDefined s typeName) ?_
  rw [held_typeDefined]
  exact service.steadfast.installPendingMethods typeName

theorem InService.foldl_tellListener (unit : CompiledUnit) (ls : List CodeListener) :
    ∀ {s : Setup}, s.InService → s.Attends (ls.foldl (tellListener unit) s) := by
  induction ls with
  | nil => exact Attends.refl
  | cons l rest ih =>
    intro s service
    cases l with
    | hooks =>
      have told := service.fileKnown unit.path
      exact told.trans (ih told.service)
    | watcher label =>
      have noted : (s.note (.compiled label unit)).InService := { service with
        steadfast := { service.steadfast with
          anchored := { service.steadfast.anchored with } } }
      have told := ih noted
      exact ⟨told.service, told.wiring, told.tried⟩

theorem InService.registerUnit (service : s.InService) (path : String) {unit : CompiledUnit}
    (loaded : s.host.isLoaded unit = true) : s.Attends (s.registerUnit path unit).2 := by
  unfold Setup.registerUnit
  cases code : s.engine.code with
  | none => exact Attends.refl service
  | some registry =>
    have kept := CodeRegistry.register_eq path unit registry
    have entered : Setup.InService
        { s with engine := { s.engine with code := some (registry.register path unit).2 } } := by
      refine service.of_held rfl (service.steadfast.of_code ?_ ?_) rfl (by rw [code, kept]; rfl)
      · intro r same e member
        cases same
        rcases CodeRegistry.mem_foldl_registerUnder _ (false, registry) member with old | ⟨-, new⟩
        · exact service.steadfast.loaded registry code e old
        · rw [new]
          exact loaded
      · intro r same
        cases code.symm.trans same
        exact ⟨_, rfl, fun file known => CodeRegistry.lookup_register_mono path unit known⟩
    dsimp only
    split
    · have told := entered.foldl_tellListener unit (registry.register path unit).2.listeners
      exact ⟨told.service, told.wiring, told.tried⟩
    · exact ⟨entered, rfl, fun _ => Or.inl rfl⟩

theorem InService.foldl_unitLoaded (units : List CompiledUnit) :
    ∀ {s : Setup}, s.InService → (∀ u ∈ units, s.host.isLoaded u = true) →
      s.Attends (units.foldl unitLoaded s) := by
  induction units with
  | nil => exact fun service _ => Attends.refl service
  | cons unit rest ih =>
    intro s service loaded
    obtain ⟨first, later⟩ := List.forall_mem_cons.mp loaded
    have told := service.registerUnit unit.path first
    have units : (s.unitLoaded unit).host.units = s.host.units :=
      congrArg Hooking.Wiring.units told.wiring
    refine told.trans (ih told.service fun u member => ?_)
    have before := later u member
    unfold Host.isLoaded Host.allUnits at before ⊢
    exact units ▸ before

theorem InService.reconnect (service : s.InService) (f : CodeRegistry → CodeRegistry)
    (compileObservers : List (Nat × Observer)) {lastId : Nat} (later : s.host.lastId ≤ lastId)
    (units : ∀ r, (f r).units = r.units)
    (compiles : compileObservers =
      ((s.engine.code.map f).bind (·.subscription)).toList.map fun id => (id, Observer.engine 0)) :
    ({ s with host := { s.host with lastId, compileObservers } }.setCode f).InService where
  steadfast :=
    have bounded := fun t member => (service.steadfast.anchored.bounded t member).trans later
    { service.steadfast.of_units units with
      anchored := { service.steadfast.anchored with bounded } }
  number := service.number
  definitions := service.definitions
  compiles := compiles

theorem InService.track (service : s.InService) :
    s.track.InService ∧ ∀ t, (s.held.holding t).Tried (s.track.held.holding t) := by
  cases code : s.engine.code with
  | none =>
    have same : s.track = s := by simp [Setup.track, code]
    rw [same]
    exact ⟨service, fun _ => Or.inl rfl⟩
  | some registry =>
    cases subscription : registry.subscription with
    | some id =>
      rw [track_of_subscribed code subscription]
      exact ⟨service, fun _ => Or.inl rfl⟩
    | none =>
      have unheard : s.host.compileObservers = [] := by
        rw [service.compiles, code, Option.bind_some, subscription]
        rfl
      have subscribed := service.reconnect
        (fun c => { c with subscription := some (s.host.lastId + 1) })
        (s.host.compileObservers ++ [(s.host.lastId + 1, .engine 0)]) (Nat.le_succ s.host.lastId)
        (fun _ => rfl) (by rw [unheard, code]; rfl)
      have told := subscribed.foldl_unitLoaded
        (s.host.subscribeCompiles (.engine 0)).2.loadedUnits fun u listed =>
          Host.isLoaded_of_mem (Host.mem_allUnits_of_mem_loadedUnits listed)
      have used := told.service.reconnect (fun c => { c with active := true }) _ (Nat.le_refl _)
        (fun _ => rfl) (told.service.compiles.trans (by
          cases (List.foldl _ _ _ : Setup).engine.code <;> rfl))
      rw [track_of_idle code subscription service.number]
      exact ⟨used, told.tried⟩

theorem InService.untrack (service : s.InService) :
    s.untrack.InService ∧ ∀ t, s.untrack.held.holding t = s.held.holding t := by
  unfold Setup.untrack
  split
  · rename_i units active id listeners code
    refine ⟨service.reconnect (fun c => { c with subscription := none, active := false }) _
      (Nat.le_refl _) (fun _ => rfl) ?_, fun _ => rfl⟩
    show (s.host.unsubscribeCompiles id).compileObservers = _
    unfold Host.unsubscribeCompiles
    rw [service.compiles, code]
    simp
  · exact ⟨service, fun _ => rfl⟩

theorem InService.subscribe (service : s.InService) :
    s.subscribe.InService ∧ ∀ t, s.subscribe.held.holding t = s.held.holding t := by
  have listens : ∀ {s : Setup}, s.InService → (s.setCode (·.addListener .hooks)).InService := by
    intro s service
    refine service.reconnect (·.addListener .hooks) _ (Nat.le_refl _) (fun _ => rfl) ?_
    rw [service.compiles]
    cases s.engine.code <;> rfl
  unfold Setup.subscribe
  cases definitions : s.engine.hooks.definitions with
  | some id => exact ⟨listens service, fun _ => rfl⟩
  | none =>
    have later := fun t member => Nat.le_succ_of_le (service.steadfast.anchored.bounded t member)
    have unheard : s.host.definitionObservers = [] := by
      rw [service.definitions, definitions]
      rfl
    refine ⟨listens ?_, fun _ => rfl⟩
    refine { service with
      steadfast := { service.steadfast with
        anchored := { service.steadfast.anchored with bounded := later } }
      definitions := ?_ }
    show s.host.definitionObservers ++ [(s.host.lastId + 1, Observer.engine s.engine.number)] = _
    rw [unheard]
    exact congrArg (fun n => [(s.host.lastId + 1, Observer.engine n)]) service.number

theorem InService.load (service : s.InService) (path : String) (lines : List UInt32) :
    Setup.InService { s with host := (s.host.load path lines).2 } :=
  { service with steadfast := service.steadfast.load path lines }

theorem InService.define (service : s.InService) (typeName : String)
    (methods : List (String × Code)) : Setup.InService
      { s with host := s.host.define typeName (methods.map fun e => (e.1, .program e.2)) } :=
  { service with steadfast := service.steadfast.define typeName methods }

theorem InService.hooking {α : Type} (service : s.InService) (f : Hooking → α × Hooking)
    {t : HookTarget} {h : Holding}
    (turns : Hooking.Turns s.engine.code t h s.held (f s.held).2) : (s.hooking f).2.InService :=
  service.of_held rfl turns.steadfast turns.wiring rfl

end Setup
end LiveProbe
