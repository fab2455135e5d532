import LiveProbe.Proofs.Line.Agreement

/-!
A registry that knows only units that its host has loaded. While it is used, what it knows can be
traced; so when a file becomes known, and what waits for it is tried, nothing goes on waiting.
-/
namespace LiveProbe

namespace CodeRegistry

structure Extends (r r' : CodeRegistry) : Prop where
  keeps : ∀ key, Table.contains key r.units = true → Table.contains key r'.units = true
  listens : ∀ x ∈ r.listeners, x ∈ r'.listeners

theorem Extends.refl (r : CodeRegistry) : r.Extends r := ⟨fun _ known => known, fun _ h => h⟩

theorem Extends.trans {r r' r'' : CodeRegistry} (first : r.Extends r') (second : r'.Extends r'') :
    r.Extends r'' :=
  ⟨fun key known => second.keeps key (first.keeps key known),
    fun x h => second.listens x (first.listens x h)⟩

theorem extends_register (path : String) (unit : CompiledUnit) (r : CodeRegistry) :
    r.Extends (r.register path unit).2 := by
  refine ⟨fun key known => (contains_register path unit r).mpr (Or.inl known), fun x listens => ?_⟩
  rw [register_eq]
  exact listens

end CodeRegistry

namespace Lineup

variable {b : Lineup} {l : SourceLine} {c : Callback} {prospect : SourceLine → Prospect}

theorem waiting_attend {path : String} (waits : (b.attend prospect path).waiting l = some c) :
    b.waiting l = some c := by
  unfold attend at waits
  split at waits
  · exact waits
  · dsimp only [tryWaiting] at waits
    split at waits
    · cases waits
    · exact waits

theorem closed_attend (path : String) : (b.attend prospect path).closed = b.closed := by
  unfold attend
  split <;> rfl

theorem attend_traced {path : String} (unclosed : b.closed = false)
    (own : l.file = Text.basename path) (traced : (prospect l).isTraced = true) :
    (b.attend prospect path).waiting l = none := by
  unfold attend
  simp [unclosed, tryWaiting, own, traced]

end Lineup

namespace Setup

variable {s s' : Setup} {b : Lineup} {r : CodeRegistry}

theorem code_tellListener (unit : CompiledUnit) (s : Setup) (l : CodeListener) :
    (s.tellListener unit l).engine.code = s.engine.code := by
  cases l with
  | hooks => exact code_fileKnown s unit.path
  | watcher label => rfl

theorem code_foldl_tellListener (unit : CompiledUnit) (ls : List CodeListener) (s : Setup) :
    (ls.foldl (tellListener unit) s).engine.code = s.engine.code := by
  induction ls generalizing s with
  | nil => rfl
  | cons l rest ih => exact (ih _).trans (code_tellListener unit s l)

theorem code_registerUnit (code : s.engine.code = some r) (path : String) (unit : CompiledUnit) :
    (s.registerUnit path unit).2.engine.code = some (r.register path unit).2 := by
  unfold registerUnit
  rw [code]
  dsimp only
  split
  · exact code_foldl_tellListener unit _ _
  · rfl

/-- The registry of a manager that traces lines in units only, and knows units only that the host
has loaded. -/
structure Stocked (r : CodeRegistry) (s : Setup) : Prop where
  code : s.engine.code = some r
  loaded : ∀ e ∈ r.units, e.2 ∈ s.host.allUnits
  targeted : s.engine.hooks.untargeted = false

theorem Stocked.of_wiring (stocked : Stocked r s) (wiring : s'.held.wiring = s.held.wiring)
    (code : s'.engine.code = s.engine.code) : Stocked r s' where
  code := code.trans stocked.code
  loaded := by
    have units : s'.host.units = s.host.units := congrArg Hooking.Wiring.units wiring
    unfold Host.allUnits
    rw [units]
    exact stocked.loaded
  targeted := (congrArg Hooking.Wiring.untargeted wiring).trans stocked.targeted

theorem Stocked.load (stocked : Stocked r s) (path : String) (lines : List UInt32) :
    Stocked r { s with host := (s.host.load path lines).2 } where
  code := stocked.code
  loaded e member := (s.host.mem_allUnits_load path lines e.2).mpr (Or.inl (stocked.loaded e member))
  targeted := stocked.targeted

theorem Stocked.of_code (stocked : Stocked r s) (code : Option CodeRegistry) {r' : CodeRegistry}
    (new : code = some r') (units : r'.units = r.units) :
    Stocked r' { s with engine := { s.engine with code } } where
  code := new
  loaded := by
    rw [units]
    exact stocked.loaded
  targeted := stocked.targeted

theorem Stocked.registerUnit (stocked : Stocked r s) (manages : Manages b s) (path : String)
    {unit : CompiledUnit} (loaded : unit ∈ s.host.allUnits) :
    Stocked (r.register path unit).2 (s.registerUnit path unit).2 := by
  obtain ⟨-, wiring, -⟩ := manages.registerUnit path unit
  have units : (s.registerUnit path unit).2.host.units = s.host.units :=
    congrArg Hooking.Wiring.units wiring
  have all : (s.registerUnit path unit).2.host.allUnits = s.host.allUnits := by
    unfold Host.allUnits
    rw [units]
  refine ⟨code_registerUnit stocked.code path unit, fun e member => ?_,
    (congrArg Hooking.Wiring.untargeted wiring).trans stocked.targeted⟩
  rw [all]
  rcases CodeRegistry.mem_foldl_registerUnder _ (false, r) member with old | ⟨-, new⟩
  · exact stocked.loaded e old
  · rw [new]
    exact loaded

theorem Stocked.isTracking (stocked : Stocked r s) : s.isTracking = r.active := by
  unfold Setup.isTracking
  rw [stocked.code]
  rfl

theorem Stocked.traced (stocked : Stocked r s) (used : s.isTracking = true) {l : SourceLine}
    (base : Text.basename l.file = l.file) (known : Table.contains l.file r.units = true) :
    (s.prospect l).isTraced = true := by
  obtain ⟨unit, found⟩ := Table.contains_iff.mp known
  have active : r.active = true := stocked.isTracking.symm.trans used
  have loaded : s.held.host.isLoaded unit = true :=
    Host.isLoaded_of_mem (stocked.loaded _ (Table.mem_of_get? found))
  unfold Setup.prospect Hooking.prospect
  rw [stocked.code]
  simp [Option.filter, active, CodeRegistry.lookup_of_base base, found, loaded, Prospect.isTraced]

theorem Stocked.known_of_unknown (stocked : Stocked r s) {l : SourceLine}
    (base : Text.basename l.file = l.file) (unknown : s.prospect l = .unknown) :
    Table.contains l.file r.units = false := by
  cases known : Table.contains l.file r.units with
  | false => rfl
  | true =>
    cases used : s.isTracking with
    | true =>
      have traced := stocked.traced used base known
      rw [unknown] at traced
      cases traced
    | false =>
      have targeted : s.held.hooks.untargeted = false := stocked.targeted
      have unused : r.active = false := stocked.isTracking.symm.trans used
      unfold Setup.prospect Hooking.prospect at unknown
      rw [stocked.code] at unknown
      simp [Option.filter, unused, targeted] at unknown

theorem Stocked.foldl_unitLoaded (units : List CompiledUnit) :
    ∀ {r : CodeRegistry} {s : Setup}, Stocked r s → Manages b s → s.isTracking = false →
      (∀ u ∈ units, u ∈ s.host.allUnits) →
      ∃ r', r.Extends r' ∧ Stocked r' (units.foldl Setup.unitLoaded s) := by
  induction units with
  | nil => exact fun stocked _ _ _ => ⟨_, CodeRegistry.Extends.refl _, stocked⟩
  | cons unit rest ih =>
    intro r s stocked manages unused listed
    obtain ⟨later, tracking⟩ := manages.foldl_unitLoaded [unit] unused
    obtain ⟨-, wiring, -⟩ := manages.registerUnit unit.path unit
    have units : (s.unitLoaded unit).host.units = s.host.units :=
      congrArg Hooking.Wiring.units wiring
    obtain ⟨r', more, all⟩ := ih
      (stocked.registerUnit manages unit.path (listed unit List.mem_cons_self)) later
      ((used_of_tracking tracking).trans unused) fun u member => by
        have before := listed u (List.mem_cons_of_mem _ member)
        unfold Host.allUnits at before ⊢
        exact units ▸ before
    exact ⟨r', (CodeRegistry.extends_register unit.path unit r).trans more, all⟩

theorem Stocked.track (stocked : Stocked r s) (manages : Manages b s) (alert : Alert s) :
    ∃ r', r.Extends r' ∧ Stocked r' s.track ∧ (s.isTracking = true → r' = r) := by
  have used := alert.isTracking
  rw [stocked.code, Option.bind_some] at used
  cases subscription : r.subscription with
  | some id =>
    rw [track_of_subscribed stocked.code subscription]
    exact ⟨r, CodeRegistry.Extends.refl r, stocked, fun _ => rfl⟩
  | none =>
    rw [subscription] at used
    let subscribed := { s with host := (s.host.subscribeCompiles (.engine 0)).2 }.setCode
      fun c => { c with subscription := some (s.host.lastId + 1) }
    have code : subscribed.engine.code =
        some { r with subscription := some (s.host.lastId + 1) } :=
      congrArg (Option.map _) stocked.code
    have stocked' : Stocked { r with subscription := some (s.host.lastId + 1) } subscribed :=
      ⟨code, stocked.loaded, stocked.targeted⟩
    have unused : subscribed.isTracking = false := by
      unfold Setup.isTracking
      rw [code]
      have idle := alert r stocked.code
      rw [subscription] at idle
      exact idle
    obtain ⟨r', more, all⟩ := stocked'.foldl_unitLoaded
      (s.host.subscribeCompiles (.engine 0)).2.loadedUnits
      (manages.subscribeCompiles stocked.code subscription) unused
      fun u listed => Host.mem_allUnits_of_mem_loadedUnits listed
    rw [track_of_idle stocked.code subscription manages.number]
    refine ⟨{ r' with active := true }, ⟨more.keeps, more.listens⟩,
      all.of_code _ (by rw [all.code]; rfl) rfl, fun tracking => ?_⟩
    rw [used] at tracking
    cases tracking

theorem Stocked.untrack (stocked : Stocked r s) :
    ∃ r', r'.units = r.units ∧ r'.listeners = r.listeners ∧ Stocked r' s.untrack := by
  unfold Setup.untrack
  split
  · rename_i units active id listeners code
    have same := Option.some.inj (stocked.code.symm.trans code)
    subst same
    exact ⟨{ units, active := false, subscription := none, listeners }, rfl, rfl,
      congrArg (Option.map _) code, stocked.loaded, stocked.targeted⟩
  · exact ⟨r, rfl, rfl, stocked⟩

theorem Stocked.subscribe (stocked : Stocked r s) :
    Stocked { r with listeners := r.listeners ++ [.hooks] } s.subscribe := by
  unfold Setup.subscribe
  cases s.engine.hooks.definitions <;>
    exact ⟨congrArg (Option.map _) stocked.code, stocked.loaded, stocked.targeted⟩

theorem Stocked.attended (stocked : Stocked r s) {r' : CodeRegistry} (stocked' : Stocked r' s')
    (used : s.isTracking = true) (unclosed : b.closed = false)
    (listens : CodeListener.hooks ∈ r.listeners) {path : String} {unit : CompiledUnit}
    (new : r' = (r.register path unit).2) {l : SourceLine} (base : Text.basename l.file = l.file)
    (unknown : Table.contains l.file r.units = false)
    (known : Table.contains l.file r'.units = true) (own : l.file = Text.basename unit.path) :
    s.reports path unit = true ∧ (b.attend s'.prospect unit.path).waiting l = none := by
  have used' : s'.isTracking = true := by
    rw [stocked'.isTracking, new, CodeRegistry.register_eq]
    exact stocked.isTracking.symm.trans used
  refine ⟨?_, Lineup.attend_traced unclosed own (stocked'.traced used' base known)⟩
  unfold Setup.reports
  rw [stocked.code, Option.any_some, Bool.and_eq_true]
  refine ⟨?_, List.contains_iff_mem.mpr listens⟩
  cases added : (r.register path unit).1 with
  | true => rfl
  | false =>
    rw [new, CodeRegistry.register_of_known added, unknown] at known
    cases known

end Setup

end LiveProbe
