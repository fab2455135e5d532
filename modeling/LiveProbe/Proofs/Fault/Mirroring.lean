import LiveProbe.Proofs.Engine.Heedless
import LiveProbe.Proofs.Fault.Lapses

/-!
Two runs of the same code, one beside the other, on worlds that differ at most in what has been
told, delivered and warned of. As long as the same probes panic in both, or a panic does not reach
the host, they come to the same, and tell the same but for the probes that panic in one of them.
-/
namespace LiveProbe

variable {c : Contrast} {flags : List Bool}

namespace World

/-- Two worlds that differ at most in what has been told, delivered and warned of. Their engines
have the flags. -/
structure Spared (c : Contrast) (flags : List Bool) (w v : World) : Prop where
  host : w.host = v.host
  heap : w.heap = v.heap
  stack : w.stack = v.stack
  poisoned : w.poisoned = v.poisoned
  elapsed : w.elapsed = v.elapsed
  told : c.Told w.journal v.journal
  engines : w.engines.map Engine.undelivered = v.engines.map Engine.undelivered
  delivers : w.engines.map (·.delivery.isSome) = v.engines.map (·.delivery.isSome)
  propagates : w.engines.map (·.propagate) = flags

structure Paired (flag : Bool) (e f : Engine) : Prop where
  engine : e.undelivered = f.undelivered
  delivers : e.delivery.isSome = f.delivery.isSome
  propagate : e.propagate = flag

namespace Spared

variable {w v : World} {n : Nat}

theorem refl (c : Contrast) (told : c.Told w.journal w.journal) :
    Spared c (w.engines.map (·.propagate)) w w :=
  ⟨rfl, rfl, rfl, rfl, rfl, told, rfl, rfl, rfl⟩

section Engines

variable (both : Spared c flags w v)
include both

theorem getElem_engines (n : Nat) : w.engines[n]? = none ∧ v.engines[n]? = none ∨
    ∃ e f flag, w.engines[n]? = some e ∧ v.engines[n]? = some f ∧ flags[n]? = some flag ∧
      Paired flag e f := by
  have engines := congrArg (·[n]?) both.engines
  have delivers := congrArg (·[n]?) both.delivers
  have propagates := congrArg (·[n]?) both.propagates
  simp only [List.getElem?_map] at engines delivers propagates
  cases left : w.engines[n]? with
  | none =>
    rw [left] at engines
    exact Or.inl ⟨rfl, Option.map_eq_none_iff.mp engines.symm⟩
  | some e =>
    cases right : v.engines[n]? with
    | none => simp [left, right] at engines
    | some f =>
      rw [left, right] at engines delivers
      rw [left] at propagates
      exact Or.inr ⟨e, f, e.propagate, rfl, rfl, propagates.symm,
        Option.some.inj engines, Option.some.inj delivers, rfl⟩

theorem replace {flag : Bool} {e f : Engine} (known : flags[n]? = some flag)
    (paired : Paired flag e f) {host host' : Host} (hosts : host = host')
    {journal journal' : List Occurrence} (told : c.Told journal journal')
    (warnings warnings' : List Warning) :
    Spared c flags { w with host, engines := w.engines.set n e, journal, warnings }
      { v with
        host := host', engines := v.engines.set n f, journal := journal', warnings := warnings' } :=
  { both with
    host := hosts
    told
    engines := by rw [List.map_set, List.map_set, both.engines, paired.engine]
    delivers := by rw [List.map_set, List.map_set, both.delivers, paired.delivers]
    propagates := by
      obtain ⟨inside, own⟩ := List.getElem?_eq_some_iff.mp known
      rw [List.map_set, both.propagates, paired.propagate, ← own, List.set_getElem_self] }

theorem inSetup {α : Type} (n : Nat) {f g : Setup → α × Setup}
    (alike : ∀ {p s t}, Setup.Spared c p s t → Setup.Yields c p (f s) (g t)) :
    (w.inSetup n f).1 = (v.inSetup n g).1 ∧
      Spared c flags (w.inSetup n f).2 (v.inSetup n g).2 := by
  unfold World.inSetup
  rcases both.getElem_engines n with ⟨left, right⟩ | ⟨e, e', flag, left, right, known, paired⟩
  · rw [left, right]
    exact ⟨rfl, both⟩
  · rw [left, right]
    have inside : Setup.Spared c flag ⟨w.host, e, w.journal, w.warnings⟩
        ⟨v.host, e', v.journal, v.warnings⟩ :=
      ⟨both.host, paired.engine, paired.delivers, both.told, paired.propagate⟩
    obtain ⟨answer, after⟩ := alike inside
    exact ⟨congrArg some answer, both.replace known
      ⟨after.engine, after.delivers, after.propagate⟩ after.host after.told _ _⟩

theorem updateSetup (n : Nat) {f g : Setup → Setup}
    (alike : ∀ {p s t}, Setup.Spared c p s t → Setup.Spared c p (f s) (g t)) :
    Spared c flags (w.updateSetup n f) (v.updateSetup n g) := by
  have after := both.inSetup n (f := fun s => ((), f s)) (g := fun s => ((), g s))
    fun both => ⟨rfl, alike both⟩
  exact after.2

theorem note (o : Occurrence) : Spared c flags (w.note o) (v.note o) :=
  { both with told := both.told.append rfl }

theorem tellDefined (typeName : String) (o : Observer) :
    Spared c flags (w.tellDefined typeName o) (v.tellDefined typeName o) := by
  cases o with
  | engine n => exact both.updateSetup n fun both => both.typeDefined typeName
  | watcher label => exact both.note _

theorem tellLoaded (unit : CompiledUnit) (o : Observer) :
    Spared c flags (w.tellLoaded unit o) (v.tellLoaded unit o) := by
  cases o with
  | engine n => exact both.updateSetup n fun both => both.unitLoaded unit
  | watcher label => exact both.note _

theorem define (typeName : String) (methods : List (String × Code)) :
    Spared c flags (w.define typeName methods) (v.define typeName methods) := by
  rw [define_eq, define_eq, both.host]
  have defined : ∀ host, Spared c flags { w with host } { v with host } :=
    fun _ => { both with host := rfl }
  exact List.foldl_rel (defined _) fun o _ _ _ both => both.tellDefined typeName o

theorem load (path : String) (lines : List UInt32) :
    (w.load path lines).1 = (v.load path lines).1 ∧
      Spared c flags (w.load path lines).2 (v.load path lines).2 := by
  constructor
  · show (w.host.load path lines).1 = (v.host.load path lines).1
    rw [both.host]
  · rw [load_eq, load_eq, both.host]
    have loaded : ∀ host, Spared c flags { w with host } { v with host } :=
      fun _ => { both with host := rfl }
    exact List.foldl_rel (loaded _) fun o _ _ _ both => both.tellLoaded _ o

theorem slot (n : Nat) (m : MethodName) : w.slot n m = v.slot n m := by
  unfold World.slot
  rcases both.getElem_engines n with ⟨left, right⟩ | ⟨e, f, flag, left, right, -, paired⟩
  · rw [left, right]
  · rw [left, right]
    exact Engine.part paired.engine (fun e => e.hooks.slot m) fun _ => rfl

theorem reported {flag : Bool} {e f : Engine} (known : flags[n]? = some flag)
    (paired : Paired flag e f) {told told' : List Notice} {ps : Probes} {w' v' : World}
    (left : Reported n e told ps w w') (right : Reported n f told' ps v v')
    (same : (told.map Occurrence.notice).filter c.shows =
      (told'.map Occurrence.notice).filter c.shows) : Spared c flags w' v' := by
  obtain ⟨-, delivery, warnings, kept, rfl⟩ := left
  obtain ⟨-, delivery', warnings', kept', rfl⟩ := right
  have after : Paired flag { e with probes := ps, delivery }
      { f with probes := ps, delivery := delivery' } :=
    ⟨congrArg (fun e : Engine => { e with probes := ps }) paired.engine,
      kept.trans (paired.delivers.trans kept'.symm), paired.propagate⟩
  exact both.replace known after both.host (both.told.append same) _ _

end Engines
end Spared
end World

namespace Action

variable {α β : Type}

/-- Two actions that come to the same on worlds that differ in nothing that matters. -/
def Mirrors (c : Contrast) (flags : List Bool) (x y : Action α) : Prop :=
  ∀ w v, World.Spared c flags w v →
    (x w).1 = (y v).1 ∧ World.Spared c flags (x w).2 (y v).2

theorem mirrors_pure (a : α) : Mirrors c flags (pure a : Action α) (pure a) :=
  fun _ _ both => ⟨rfl, both⟩

theorem mirrors_throw (e : Fault) : Mirrors c flags (throw e : Action α) (throw e) :=
  fun _ _ both => ⟨rfl, both⟩

theorem mirrors_bind {x y : Action α} {f g : α → Action β} (first : Mirrors c flags x y)
    (later : ∀ a, Mirrors c flags (f a) (g a)) : Mirrors c flags (x >>= f) (y >>= g) := by
  intro w v both
  obtain ⟨answer, after⟩ := first w v both
  rw [bind_apply, bind_apply]
  rcases left : x w with ⟨result, w'⟩
  rcases right : y v with ⟨result', v'⟩
  rw [left, right] at answer after
  obtain rfl : result = result' := answer
  cases result with
  | ok a => exact later a w' v' after
  | error e => exact ⟨rfl, after⟩

theorem mirrors_get {f g : World → Action α}
    (later : ∀ w v, World.Spared c flags w v → Mirrors c flags (f w) (g v)) :
    Mirrors c flags (get >>= f) (get >>= g) := fun w v both => later w v both w v both

theorem mirrors_set {w' v' : World} {x y : PUnit → Action α} (there : World.Spared c flags w' v')
    (later : Mirrors c flags (x ⟨⟩) (y ⟨⟩)) :
    Mirrors c flags ((set w' : Action PUnit) >>= x) ((set v' : Action PUnit) >>= y) :=
  fun _ _ _ => later w' v' there

theorem mirrors_update {f g : World → World}
    (later : ∀ {w v}, World.Spared c flags w v → World.Spared c flags (f w) (g v)) :
    Mirrors c flags (update f) (update g) := fun _ _ both => ⟨rfl, later both⟩

theorem mirrors_forM {γ : Type} (l : List γ) {f g : γ → Action PUnit}
    (each : ∀ a ∈ l, Mirrors c flags (f a) (g a)) : Mirrors c flags (l.forM f) (l.forM g) := by
  induction l with
  | nil => exact mirrors_pure _
  | cons a rest ih =>
    obtain ⟨first, later⟩ := List.forall_mem_cons.mp each
    exact mirrors_bind first fun _ => ih later

theorem mirrors_foldlM {γ : Type} (l : List γ) {f g : α → γ → Action α}
    (each : ∀ a i, Mirrors c flags (f a i) (g a i)) :
    ∀ a, Mirrors c flags (l.foldlM f a) (l.foldlM g a) := by
  induction l with
  | nil => exact fun a => mirrors_pure a
  | cons i rest ih => exact fun a => mirrors_bind (each a i) ih

theorem mirrors_building (make : StateM Workshop α) :
    Mirrors c flags (building make) (building make) := by
  intro w v both
  have answer := congrArg (fun heap => (make.run ⟨heap, []⟩).1) both.heap
  have heap := congrArg (fun heap => (make.run ⟨heap, []⟩).2.heap) both.heap
  exact ⟨congrArg Except.ok answer, { both with heap }⟩

theorem mirrors_inFrame (frame : StackFrame) {x y : Action α} (inside : Mirrors c flags x y) :
    Mirrors c flags (inFrame frame x) (inFrame frame y) := by
  intro w v both
  obtain ⟨answer, after⟩ := inside { w with stack := frame :: w.stack }
    { v with stack := frame :: v.stack }
    { both with stack := congrArg (frame :: ·) both.stack }
  exact ⟨answer, { after with stack := congrArg List.tail after.stack }⟩

section Runner

variable {acts acts' : Acts} {run run' : Runner}
  (mirror : ∀ n g e, Mirrors c flags (acts n g e) (acts' n g e))
  (runs : ∀ args code, Mirrors c flags (run args code) (run' args code))
include mirror runs

theorem mirrors_fireWith (e : Execution) (callback : Callback) :
    Mirrors c flags (fireWith acts run e callback) (fireWith acts' run' e callback) := by
  cases callback with
  | record label => exact mirrors_update fun both => both.note _
  | probes engine group => exact mirror engine group e
  | script code => exact mirrors_bind (runs _ code) fun _ => mirrors_pure _

theorem mirrors_performWith (args : CallArgs) (body : Body) :
    Mirrors c flags (performWith acts run args body) (performWith acts' run' args body) := by
  have noted : ∀ label, Mirrors c flags (update fun w => w.note (.intercepted label w.stack))
      (update fun w => w.note (.intercepted label w.stack)) := by
    intro label
    refine mirrors_update fun {w v} both => ?_
    rw [both.stack]
    exact both.note _
  induction body with
  | program code => exact runs args code
  | hooked manager method installation callback saved ih =>
    refine mirrors_get fun w v both => mirrors_bind ih fun returned => ?_
    rw [both.slot]
    split
    · refine mirrors_get fun w v both => ?_
      rw [both.elapsed, both.stack]
      exact mirrors_bind (mirrors_fireWith mirror runs _ callback) fun _ => mirrors_pure _
    · exact mirrors_pure _
  | wrapped serial label saved ih =>
    exact mirrors_bind (noted label) fun _ => mirrors_bind ih fun _ => mirrors_pure _
  | replaced serial label => exact mirrors_bind (noted label) fun _ => mirrors_pure _

theorem mirrors_callWith (m : MethodName) (args : CallArgs) :
    Mirrors c flags (callWith acts run m args) (callWith acts' run' m args) := by
  refine mirrors_get fun w v both => ?_
  rw [both.host]
  split
  · exact mirrors_pure _
  · exact mirrors_bind (mirrors_inFrame _ (mirrors_performWith mirror runs args _)) fun _ =>
      mirrors_pure _

theorem mirrors_traceLineWith (traces : List LineTrace) (path : String) (line : UInt32)
    (locals : Vars) :
    Mirrors c flags (traceLineWith acts run traces path line locals)
      (traceLineWith acts' run' traces path line locals) := by
  refine mirrors_forM traces fun t _ => ?_
  split
  · refine mirrors_get fun w v both => ?_
    rw [both.stack]
    exact mirrors_fireWith mirror runs _ t.callback
  · exact mirrors_pure _

theorem mirrors_executeLineWith (path : String) (line : UInt32) (locals : Vars) :
    Mirrors c flags (executeLineWith acts run path line locals)
      (executeLineWith acts' run' path line locals) := by
  refine mirrors_get fun w v both => ?_
  rw [both.host]
  split
  · have traced := mirrors_traceLineWith mirror runs (v.host.tracesOf path line) path line locals
    rw [both.stack]
    dsimp only
    split
    · exact mirrors_set { both with host := rfl, stack := rfl } traced
    · exact mirrors_inFrame _ traced
  · exact mirrors_pure _

theorem mirrors_instructWith (args : CallArgs) (i : Instruction) :
    Mirrors c flags (instructWith acts run args i) (instructWith acts' run' args i) := by
  cases i with
  | ret value => exact mirrors_building _
  | arg n => exact mirrors_pure _
  | named name => exact mirrors_pure _
  | double n =>
    simp only [instructWith, instruct]
    split <;> exact mirrors_pure _
  | set n field value =>
    refine mirrors_bind (mirrors_building _) fun v => ?_
    split
    · refine mirrors_bind (mirrors_update fun both => ?_) fun _ => mirrors_pure _
      exact { both with heap := by rw [both.heap] }
    · exact mirrors_pure _
  | call method positional named =>
    refine mirrors_bind (mirrors_building _) fun callArgs => ?_
    refine mirrors_bind (mirrors_callWith mirror runs method callArgs) fun answer => ?_
    split <;> exact mirrors_pure _
  | recurse method =>
    simp only [instructWith]
    split
    · split
      · exact mirrors_bind (mirrors_callWith mirror runs method _) fun _ => mirrors_pure _
      · exact mirrors_pure _
    · exact mirrors_pure _
  | line path line locals =>
    refine mirrors_bind (mirrors_building _) fun locals => ?_
    exact mirrors_bind (mirrors_executeLineWith mirror runs path line locals) fun _ =>
      mirrors_pure _
  | load path lines =>
    refine mirrors_get fun w v both => ?_
    obtain ⟨unit, loaded⟩ := both.load path lines
    dsimp only
    rw [unit]
    exact mirrors_set loaded (mirrors_pure _)
  | define typeName methods =>
    exact mirrors_bind (mirrors_update fun both => both.define typeName methods) fun _ =>
      mirrors_pure _
  | process engine documents =>
    refine mirrors_bind (mirrors_update fun both => ?_) fun _ => mirrors_pure _
    exact (both.inSetup engine fun both => both.process documents).2
  | panic text => exact mirrors_throw _

end Runner

def Compatible (c : Contrast) (flags : List Bool) (lapses lapses' : Lapses) : Prop :=
  ∀ w v, World.Spared c flags w v → ∀ n x k, lapses w n x k = lapses' v n x k ∨
    c.apart k.probe.id = true ∧ flags[n]? ≠ some true

theorem filter_granted {k : KnownProbe} (apart : c.apart k.probe.id = true) (r : Reporter)
    (heap : Heap) (x : Execution) (lapse : Option Lapse) (ps : Probes) :
    (((Probes.granted [k] ps).flatMap fun k => r.told heap x lapse k).map
      Occurrence.notice).filter c.shows = [] := by
  rw [List.filter_eq_nil_iff]
  intro o listed
  obtain ⟨n, told, rfl⟩ := List.mem_map.mp listed
  have own : n.probeId = k.probe.id := by
    obtain ⟨k', granted, told⟩ := List.mem_flatMap.mp told
    simp only [Probes.granted, List.append_nil, List.mem_ite_nil_right, List.mem_singleton]
      at granted
    exact granted.2 ▸ Reporter.probeId_told told
  simp [Contrast.shows, own, apart]

theorem mirrors_guarded {n : Nat} {x : Execution} {k : KnownProbe} {lapse lapse' : Option Lapse}
    (alike : lapse = lapse' ∨ c.apart k.probe.id = true ∧ flags[n]? ≠ some true) :
    Mirrors c flags (guarded n k (reportWith lapse n x k))
      (guarded n k (reportWith lapse' n x k)) := by
  intro w v both
  rcases both.getElem_engines n with ⟨left, right⟩ | ⟨e, f, flag, left, right, known, paired⟩
  · rw [guarded_reportWith_of_absent left, guarded_reportWith_of_absent right]
    exact ⟨rfl, both⟩
  · obtain ⟨w', run, reported⟩ := guarded_reportWith left x (fun _ => lapse) k
    obtain ⟨v', run', reported'⟩ := guarded_reportWith right x (fun _ => lapse') k
    have probes : e.probes = f.probes := Engine.part paired.engine _ fun _ => rfl
    have reporter : e.reporter = f.reporter := Engine.part paired.engine _ fun _ => rfl
    have propagate : e.propagate = f.propagate := Engine.part paired.engine _ fun _ => rfl
    rw [probes, propagate] at run
    rw [probes, reporter, both.heap] at reported
    rw [run, run']
    rcases alike with rfl | ⟨apart, contained⟩
    · exact ⟨rfl, both.reported known paired reported reported' rfl⟩
    · have off : f.propagate = false := by
        rw [← propagate, paired.propagate]
        rw [known] at contained
        simpa using contained
      have same := (filter_granted apart f.reporter v.heap x lapse f.probes).trans
        (filter_granted apart f.reporter v.heap x lapse' f.probes).symm
      refine ⟨?_, both.reported known paired reported reported' same⟩
      simp [off]

theorem mirrors_reportAllWith {lapses lapses' : Lapses}
    (compatible : Compatible c flags lapses lapses') (n g : Nat) (x : Execution) :
    Mirrors c flags (reportAllWith lapses n g x) (reportAllWith lapses' n g x) := by
  refine mirrors_get fun w v both => ?_
  have members : w.engines[n]?.map (fun e => e.probes.membersOf g) =
      v.engines[n]?.map fun e => e.probes.membersOf g := by
    rcases both.getElem_engines n with ⟨left, right⟩ | ⟨e, f, flag, left, right, -, paired⟩
    · rw [left, right]
    · rw [left, right]
      exact congrArg some (Engine.part paired.engine (fun e => e.probes.membersOf g) fun _ => rfl)
  rw [members]
  exact mirrors_forM _ fun k _ => mirrors_guarded (compatible w v both n x k)

theorem mirrors_runCodeWith {acts acts' : Acts}
    (mirror : ∀ n g e, Mirrors c flags (acts n g e) (acts' n g e)) (fuel : Nat) :
    ∀ args code, Mirrors c flags (runCodeWith acts fuel args code)
      (runCodeWith acts' fuel args code) := by
  induction fuel with
  | zero => exact fun _ _ => mirrors_throw _
  | succ fuel ih =>
    exact fun args code => mirrors_foldlM code (fun _ i => mirrors_instructWith mirror ih args i) _

/-! The code that runs, where the receiver alone panics. -/

theorem compatible_poisoned (c : Contrast) (flags : List Bool) :
    Compatible c flags Lapses.poisoned Lapses.poisoned := by
  intro w v both n x k
  unfold Lapses.poisoned
  rw [both.poisoned]
  exact Or.inl rfl

theorem mirrors_call (fuel : Nat) (m : MethodName) (args : CallArgs) :
    Mirrors c flags (call (runCode fuel) m args) (call (runCode fuel) m args) := by
  have acts := mirrors_reportAllWith (compatible_poisoned c flags)
  have calls := mirrors_callWith acts (mirrors_runCodeWith acts fuel) m args
  rwa [reportAllWith_poisoned, runCodeWith_reportAll, callWith_reportAll] at calls

theorem mirrors_executeLine (fuel : Nat) (path : String) (line : UInt32) (locals : Vars) :
    Mirrors c flags (executeLine (runCode fuel) path line locals)
      (executeLine (runCode fuel) path line locals) := by
  have acts := mirrors_reportAllWith (compatible_poisoned c flags)
  have lines := mirrors_executeLineWith acts (mirrors_runCodeWith acts fuel) path line locals
  rwa [reportAllWith_poisoned, runCodeWith_reportAll, executeLineWith_reportAll] at lines

end Action
end LiveProbe
