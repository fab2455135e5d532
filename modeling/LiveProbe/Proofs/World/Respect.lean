import LiveProbe.Engine.Component
import LiveProbe.World.Run

/-!
What code of the host can do to the world. Whatever it runs, and however it ends, code changes the
host and the engines only by defining types, loading units, handing over configurations and
reporting executions; a predicate of host and engines that these respect holds afterwards. Where the
programs around define nothing but what is of a kind, it need not respect other definitions.
-/
namespace LiveProbe

/-- A kind of definitions, of types by their methods. -/
abbrev DefinitionKind := String → List (String × Code) → Prop

def Code.Within (D : DefinitionKind) (code : Code) : Prop :=
  ∀ typeName methods, .define typeName methods ∈ code → D typeName methods

def Callback.Within (D : DefinitionKind) : Callback → Prop
  | .script code => Code.Within D code
  | _ => True

def Body.Within (D : DefinitionKind) : Body → Prop
  | .program code => Code.Within D code
  | .hooked _ _ _ callback saved => callback.Within D ∧ saved.Within D
  | .wrapped _ _ saved => saved.Within D
  | .replaced _ _ => True

structure Host.Within (D : DefinitionKind) (h : Host) : Prop where
  bodies : ∀ m body, h.body? m = some body → body.Within D
  traces : ∀ t ∈ h.traces, t.callback.Within D

/-- A predicate that holds on whatever instructions do, but for definitions and for the code that
they run. -/
structure World.Tolerant (P : World → Prop) : Prop where
  congr : ∀ w w' : World, w'.host = w.host → w'.engines = w.engines → w'.journal = w.journal →
    w'.poisoned = w.poisoned → P w → P w'
  load : ∀ path lines w, P w → P (w.load path lines).2
  process : ∀ n documents w, P w → P (w.inSetup n (·.process documents)).2

/-- A predicate that depends on host, engines and poisoned probes only, and holds on whatever
happens to the host and the engines but definitions. -/
structure World.Steady (P : World → Prop) : Prop where
  congr : ∀ w w' : World, w'.host = w.host → w'.engines = w.engines → w'.poisoned = w.poisoned →
    P w → P w'
  load : ∀ path lines w, P w → P (w.load path lines).2
  process : ∀ n documents w, P w → P (w.inSetup n (·.process documents)).2
  turn : ∀ n k w, P w → P (w.inSetup n fun s => s.onProbes (Probes.takeTurn k)).2
  told : ∀ n (f : Setup → Notice) w, P w → P (w.updateSetup n fun s => s.tell (f s))
  settled : ∀ n w, P w → P (w.updateSetup n Setup.settleDelivery)

/-- A steady predicate that holds on whatever is defined. -/
structure World.Lasting (P : World → Prop) : Prop extends Steady P where
  define : ∀ typeName methods w, P w → P (w.define typeName methods)

/-- A steady predicate that holds on as long as definitions are of a kind, and that says they are,
whatever is run. -/
structure World.Confined (D : DefinitionKind) (P : World → Prop) : Prop extends Steady P where
  define : ∀ typeName methods w, D typeName methods → P w → P (w.define typeName methods)
  within : ∀ w, P w → w.host.Within D

theorem Host.mem_traces_of_mem_tracesOf (h : Host) {path : String} {line : UInt32} {t : LineTrace}
    (member : t ∈ h.tracesOf path line) : t ∈ h.traces := by
  unfold tracesOf at member
  split at member
  · exact (List.mem_filter.mp member).1
  · cases member

theorem Callback.within_any (callback : Callback) : callback.Within fun _ _ => True := by
  cases callback with
  | script code => exact fun _ _ _ => trivial
  | _ => trivial

theorem Body.within_any (body : Body) : body.Within fun _ _ => True := by
  induction body with
  | program code => exact fun _ _ _ => trivial
  | hooked _ _ _ callback saved ih => exact ⟨callback.within_any, ih⟩
  | wrapped _ _ saved ih => exact ih
  | replaced _ _ => trivial

theorem World.Steady.tolerant {P : World → Prop} (steady : Steady P) : Tolerant P where
  congr w w' host engines _ poisoned := steady.congr w w' host engines poisoned
  load := steady.load
  process := steady.process

theorem World.Lasting.confined {P : World → Prop} (lasting : Lasting P) :
    Confined (fun _ _ => True) P where
  toSteady := lasting.toSteady
  define typeName methods w _ := lasting.define typeName methods w
  within _ _ := ⟨fun _ body _ => body.within_any, fun t _ => t.callback.within_any⟩

namespace Action

variable {P : World → Prop} {α β : Type}

/-- An action keeps a predicate, whatever comes of it. -/
def Respects (P : World → Prop) (x : Action α) : Prop := ∀ w, P w → P (x w).2

theorem bind_apply (x : Action α) (f : α → Action β) (w : World) :
    (x >>= f) w = match x w with
      | (.ok a, w') => f a w'
      | (.error e, w') => (.error e, w') := by
  show ExceptT.bindCont f (x w).1 (x w).2 = _
  rcases x w with ⟨r, w'⟩
  cases r <;> rfl

theorem bind_pure_apply (x : Action α) (f : α → β) (w : World) :
    ((x >>= fun a => pure (f a)) w).2 = (x w).2 := by
  rw [bind_apply]
  rcases x w with ⟨result, w'⟩
  cases result <;> rfl

theorem get_bind_apply (f : World → Action β) (w : World) : (get >>= f) w = f w w := rfl

theorem tryCatch_apply (x : Action α) (f : Fault → Action α) (w : World) :
    (tryCatch x f) w = match x w with
      | (.ok a, w') => (.ok a, w')
      | (.error e, w') => f e w' := by
  rcases ended : x w with ⟨r, w'⟩
  cases r with
  | ok a =>
    simp only [tryCatch, tryCatchThe, MonadExceptOf.tryCatch, ExceptT.tryCatch, ExceptT.mk, bind,
      StateT.bind, ended]
    rfl
  | error e =>
    simp only [tryCatch, tryCatchThe, MonadExceptOf.tryCatch, ExceptT.tryCatch, ExceptT.mk, bind,
      StateT.bind, ended]

theorem respects_pure (a : α) : Respects P (pure a : Action α) := fun _ holds => holds

theorem respects_throw (e : Fault) : Respects P (throw e : Action α) := fun _ holds => holds

theorem respects_bind {x : Action α} {f : α → Action β} (first : Respects P x)
    (later : ∀ a, Respects P (f a)) : Respects P (x >>= f) := by
  intro w holds
  rw [bind_apply]
  have after := first w holds
  rcases ended : x w with ⟨r, w'⟩
  rw [ended] at after
  cases r with
  | ok a => exact later a w' after
  | error e => exact after

theorem respects_get {f : World → Action β} (later : ∀ w, P w → Respects P (f w)) :
    Respects P (get >>= f) := fun w holds => later w holds w holds

theorem respects_set {w' : World} {x : PUnit → Action β} (holds' : P w')
    (later : Respects P (x ⟨⟩)) : Respects P ((set w' : Action PUnit) >>= x) :=
  fun _ _ => later w' holds'

theorem respects_update {f : World → World} (kept : ∀ w, P w → P (f w)) : Respects P (update f) :=
  kept

theorem respects_tryCatch {x : Action α} {f : Fault → Action α} (first : Respects P x)
    (later : ∀ e, Respects P (f e)) : Respects P (tryCatch x f) := by
  intro w holds
  rw [tryCatch_apply]
  have after := first w holds
  rcases ended : x w with ⟨r, w'⟩
  rw [ended] at after
  cases r with
  | ok a => exact after
  | error e => exact later e w' after

theorem respects_ite {c : Prop} [Decidable c] {x y : Action α} (yes : Respects P x)
    (no : Respects P y) : Respects P (if c then x else y) := by
  split
  · exact yes
  · exact no

theorem respects_forM {γ : Type} (l : List γ) {f : γ → Action PUnit}
    (each : ∀ a ∈ l, Respects P (f a)) : Respects P (l.forM f) := by
  induction l with
  | nil => exact respects_pure _
  | cons a rest ih =>
    obtain ⟨first, later⟩ := List.forall_mem_cons.mp each
    exact respects_bind first fun _ => ih later

theorem respects_foldlM {γ : Type} (l : List γ) {f : α → γ → Action α}
    (each : ∀ c ∈ l, ∀ a, Respects P (f a c)) : ∀ a, Respects P (l.foldlM f a) := by
  induction l with
  | nil => exact fun a => respects_pure a
  | cons c rest ih =>
    obtain ⟨first, later⟩ := List.forall_mem_cons.mp each
    exact fun a => respects_bind (first a) (ih later)

theorem respects_report_of {engine : Nat} {k : KnownProbe} (e : Execution)
    (turn : ∀ w, P w → P (w.inSetup engine fun s => s.onProbes (Probes.takeTurn k)).2)
    (told : ∀ (f : Setup → Notice) w, (∀ s, (f s).probeId = k.probe.id) → P w →
      P (w.updateSetup engine fun s => s.tell (f s))) :
    Respects P (report engine e k) := by
  apply respects_get
  intro w holds
  apply respects_set (turn w holds)
  refine respects_ite ?_ (respects_pure _)
  refine respects_bind (respects_update fun w holds => ?_) fun _ => ?_
  · exact told (fun s => .status (s.engine.reporter.status k.probe .emitting)) w (fun _ => rfl)
      holds
  · apply respects_get
    intro w holds
    refine respects_ite (respects_bind (respects_throw _) fun _ => ?_) ?_
    all_goals
      apply respects_update
      intro w holds
      exact told (fun s => .snapshot (s.engine.reporter.snapshot w.heap k.probe e)) w
        (fun _ => rfl) holds

theorem respects_guarded_of {engine : Nat} {k : KnownProbe} {x : Action Unit}
    (inside : Respects P x) (warned : ∀ w, P w → P (w.warn (.probeFailed k.probe.id))) :
    Respects P (guarded engine k x) := by
  apply respects_tryCatch inside
  intro e
  cases e with
  | exhausted => exact respects_throw _
  | panicked text =>
    apply respects_get
    intro w holds
    exact respects_ite (respects_throw _) fun _ _ => warned w holds

section Tolerant

variable (tolerant : World.Tolerant P)
include tolerant

theorem respects_building (make : StateM Workshop α) : Respects P (building make) :=
  fun w holds => tolerant.congr w _ rfl rfl rfl rfl holds

theorem respects_inFrame (frame : StackFrame) {x : Action α} (inside : Respects P x) :
    Respects P (inFrame frame x) := by
  intro w holds
  have after :=
    inside _ (tolerant.congr w { w with stack := frame :: w.stack } rfl rfl rfl rfl holds)
  unfold inFrame
  rcases ended : x { w with stack := frame :: w.stack } with ⟨r, w'⟩
  rw [ended] at after
  exact tolerant.congr w' _ rfl rfl rfl rfl after

theorem respects_instruct_of {run : Runner} (args : CallArgs)
    (calls : ∀ m args, Respects P (call run m args))
    (lines : ∀ path line locals, Respects P (executeLine run path line locals)) (i : Instruction)
    (defines : ∀ typeName methods, i = .define typeName methods →
      ∀ w, P w → P (w.define typeName methods)) : Respects P (instruct run args i) := by
  cases i with
  | ret value => exact respects_building tolerant _
  | arg n => exact respects_pure _
  | named name => exact respects_pure _
  | double n =>
    simp only [instruct]
    split <;> exact respects_pure _
  | set n field value =>
    apply respects_bind (respects_building tolerant _)
    intro v
    split
    · refine respects_bind (respects_update fun w holds => ?_) fun _ => respects_pure _
      exact tolerant.congr w _ rfl rfl rfl rfl holds
    · exact respects_pure _
  | call method positional named =>
    apply respects_bind (respects_building tolerant _)
    intro callArgs
    apply respects_bind (calls method callArgs)
    intro r
    split <;> exact respects_pure _
  | recurse method =>
    simp only [instruct]
    split
    · refine respects_ite ?_ (respects_pure _)
      exact respects_bind (calls method _) fun _ => respects_pure _
    · exact respects_pure _
  | line path line locals =>
    apply respects_bind (respects_building tolerant _)
    intro locals
    exact respects_bind (lines path line locals) fun _ => respects_pure _
  | load path lines =>
    apply respects_get
    intro w holds
    exact respects_set (tolerant.load path lines w holds) (respects_pure _)
  | define typeName methods =>
    refine respects_bind (respects_update fun w holds => ?_) fun _ => respects_pure _
    exact defines typeName methods rfl w holds
  | process engine documents =>
    refine respects_bind (respects_update fun w holds => ?_) fun _ => respects_pure _
    exact tolerant.process engine documents w holds
  | panic text => exact respects_throw _

end Tolerant

variable {D : DefinitionKind} (confined : World.Confined D P)
include confined

theorem respects_note (o : World → Occurrence) : Respects P (update fun w => w.note (o w)) :=
  respects_update fun w holds => confined.congr w _ rfl rfl rfl holds

theorem respects_report (engine : Nat) (e : Execution) (k : KnownProbe) :
    Respects P (report engine e k) :=
  respects_report_of e (confined.turn engine k) fun f w _ => confined.told engine f w

theorem respects_guarded (engine : Nat) (k : KnownProbe) {x : Action Unit}
    (inside : Respects P x) : Respects P (guarded engine k x) :=
  respects_guarded_of inside fun w => confined.congr w _ rfl rfl rfl

theorem respects_reportAll (engine group : Nat) (e : Execution) :
    Respects P (reportAll engine group e) := by
  apply respects_get
  intro w holds
  exact respects_forM _ fun k _ => respects_guarded confined engine k
    (respects_report confined engine e k)

section Runner

variable {run : Runner} (runs : ∀ args code, Code.Within D code → Respects P (run args code))
include runs

theorem respects_fire (e : Execution) {callback : Callback} (within : callback.Within D) :
    Respects P (fire run e callback) := by
  cases callback with
  | record label => exact respects_note confined fun _ => recordOf label e
  | probes engine group => exact respects_reportAll confined engine group e
  | script code => exact respects_bind (runs _ code within) fun _ => respects_pure _

theorem respects_perform (args : CallArgs) {body : Body} (within : body.Within D) :
    Respects P (perform run args body) := by
  induction body with
  | program code => exact runs args code within
  | hooked manager method installation callback saved ih =>
    refine respects_get fun w holds => respects_bind (ih within.2) fun returned => ?_
    refine respects_ite (respects_get fun w holds => ?_) (respects_pure _)
    exact respects_bind (respects_fire confined runs _ within.1) fun _ => respects_pure _
  | wrapped serial label saved ih =>
    refine respects_bind (respects_note confined fun w => .intercepted label w.stack) fun _ => ?_
    exact respects_bind (ih within) fun _ => respects_pure _
  | replaced serial label =>
    refine respects_bind (respects_note confined fun w => .intercepted label w.stack) fun _ => ?_
    exact respects_pure _

theorem respects_call (m : MethodName) (args : CallArgs) : Respects P (call run m args) := by
  apply respects_get
  intro w holds
  split
  · exact respects_pure _
  · rename_i body found
    refine respects_bind (respects_inFrame confined.tolerant _ ?_) fun _ => respects_pure _
    exact respects_perform confined runs args ((confined.within w holds).bodies m body found)

theorem respects_traceLine {traces : List LineTrace} (within : ∀ t ∈ traces, t.callback.Within D)
    (path : String) (line : UInt32) (locals : Vars) :
    Respects P (traceLine run traces path line locals) := by
  refine respects_forM traces fun t member => ?_
  refine respects_ite ?_ (respects_pure _)
  exact respects_get fun w holds => respects_fire confined runs _ (within t member)

theorem respects_executeLine (path : String) (line : UInt32) (locals : Vars) :
    Respects P (executeLine run path line locals) := by
  refine respects_get fun w holds => respects_ite ?_ (respects_pure _)
  have within : ∀ t ∈ w.host.tracesOf path line, t.callback.Within D := fun t member =>
    (confined.within w holds).traces t (w.host.mem_traces_of_mem_tracesOf member)
  split
  · refine respects_set ?_ (respects_traceLine confined runs within path line locals)
    exact confined.congr w _ rfl rfl rfl holds
  · exact respects_inFrame confined.tolerant _ (respects_traceLine confined runs within path line locals)

theorem respects_instruct (args : CallArgs) {code : Code} (within : Code.Within D code)
    {i : Instruction} (member : i ∈ code) : Respects P (instruct run args i) :=
  respects_instruct_of confined.tolerant args (respects_call confined runs)
    (respects_executeLine confined runs) i fun typeName methods same w =>
      confined.define typeName methods w (within typeName methods (same ▸ member))

theorem respects_instructAll (args : CallArgs) (code : Code) (within : Code.Within D code) :
    Respects P (instructAll run args code) :=
  respects_foldlM code (fun _ member _ => respects_instruct confined runs args within member) _

end Runner

theorem respects_runCode (fuel : Nat) :
    ∀ args code, Code.Within D code → Respects P (runCode fuel args code) := by
  induction fuel with
  | zero => exact fun _ _ _ => respects_throw _
  | succ fuel ih => exact fun args code => respects_instructAll confined ih args code

end Action
end LiveProbe
