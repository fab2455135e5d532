import LiveProbe.Proofs.Dispatch.Transparency
import LiveProbe.Proofs.Line.Firing
import LiveProbe.Proofs.World.History

/-!
What runs on a host that nobody traces and observes. As long as no code hands a configuration over,
all goes as if there were no engine: with any others in the place of the engines, also with none,
the host does the same, and they are left as they are.
-/
namespace LiveProbe

/-- Code that hands no configuration over, calls methods of a circle only, and defines these by such
code only. -/
inductive Code.Aloof (circle : MethodName → Prop) : Code → Prop
  | intro {code : Code} (silent : ∀ n documents, .process n documents ∉ code)
    (calls : ∀ m args named, .call m args named ∈ code → circle m)
    (recurs : ∀ m, .recurse m ∈ code → circle m)
    (defines : ∀ typeName methods, .define typeName methods ∈ code → ∀ e ∈ methods,
      circle ⟨typeName, e.1⟩ → Aloof circle e.2) : Aloof circle code

/-- What the world does without its engines: it is defined, loaded, called and run. -/
def Event.Aloof (circle : MethodName → Prop) : Event → Prop
  | .define typeName methods => ∀ e ∈ methods, circle ⟨typeName, e.1⟩ → Code.Aloof circle e.2
  | .load _ _ | .line _ _ _ | .store _ => True
  | .call m _ => circle m
  | .process _ | .deliver => False

/-- Nobody traces and observes the host, and the methods of a circle keep to it. -/
structure Host.Aloof (circle : MethodName → Prop) (h : Host) : Prop where
  pristine : Setup.Pristine h
  programs : ∀ m code, circle m → h.body? m = some (.program code) → code.Aloof circle

def World.beside (v w : World) : World :=
  { w with
    engines := v.engines, journal := v.journal, warnings := v.warnings, poisoned := v.poisoned }

theorem World.beside_self (w : World) : w.beside w = w := rfl

namespace Host.Aloof

variable {circle : MethodName → Prop} {h : Host}

theorem define (aloof : h.Aloof circle) {typeName : String} {methods : List (String × Code)}
    (given : ∀ e ∈ methods, circle ⟨typeName, e.1⟩ → Code.Aloof circle e.2) :
    (h.define typeName (methods.map fun e => (e.1, .program e.2))).Aloof circle where
  pristine := { aloof.pristine with plain := aloof.pristine.plain.define typeName methods }
  programs m code inside found := by
    rcases h.body?_define_cases typeName methods m with ⟨given', rfl, listed, defined⟩ | same
    · rw [defined] at found
      cases found
      exact given _ listed inside
    · exact aloof.programs m code inside (same.symm.trans found)

theorem load (aloof : h.Aloof circle) (path : String) (lines : List UInt32) :
    (h.load path lines).2.Aloof circle where
  pristine := { aloof.pristine with }
  programs := aloof.programs

end Host.Aloof

namespace World

variable {circle : MethodName → Prop} {w : World}

def moveTo (path : String) (line : UInt32) (w : World) : World :=
  match w.stack with
  | frame :: rest => { w with stack := { frame with file := path, line } :: rest }
  | [] => w

theorem host_moveTo (path : String) (line : UInt32) (w : World) :
    (w.moveTo path line).host = w.host := by
  unfold moveTo
  split <;> rfl

theorem beside_moveTo (path : String) (line : UInt32) (v w : World) :
    (v.beside w).moveTo path line = v.beside (w.moveTo path line) := by
  obtain ⟨host, heap, engines, stack, journal, warnings, poisoned, elapsed⟩ := w
  cases stack <;> rfl

theorem define_of_aloof (aloof : w.host.Aloof circle) (typeName : String)
    (methods : List (String × Code)) : w.define typeName methods =
      { w with host := w.host.define typeName (methods.map fun e => (e.1, .program e.2)) } := by
  rw [define_eq, aloof.pristine.definitions]
  rfl

theorem load_of_aloof (aloof : w.host.Aloof circle) (path : String) (lines : List UInt32) :
    w.load path lines =
      ((w.host.load path lines).1, { w with host := (w.host.load path lines).2 }) := by
  refine Prod.ext rfl ?_
  rw [load_eq, aloof.pristine.compiles]
  rfl

end World

namespace Action

variable {circle : MethodName → Prop} {α β : Type}

/-- An action that leaves an aloof host so, and does the same beside any engines, which it does not
touch. -/
def Aloof (circle : MethodName → Prop) (x : Action α) : Prop :=
  ∀ w : World, w.host.Aloof circle →
    (x w).2.host.Aloof circle ∧ ∀ v : World, x (v.beside w) = ((x w).1, v.beside (x w).2)

theorem aloof_pure (a : α) : Aloof circle (pure a : Action α) := fun _ host => ⟨host, fun _ => rfl⟩

theorem aloof_throw (e : Fault) : Aloof circle (throw e : Action α) :=
  fun _ host => ⟨host, fun _ => rfl⟩

theorem aloof_bind {x : Action α} {f : α → Action β} (first : Aloof circle x)
    (later : ∀ a, Aloof circle (f a)) : Aloof circle (x >>= f) := by
  intro w host
  obtain ⟨host', beside⟩ := first w host
  rw [bind_apply]
  rcases ended : x w with ⟨e | a, w'⟩
  · rw [ended] at host' beside
    refine ⟨host', fun v => ?_⟩
    rw [bind_apply, beside]
  · rw [ended] at host' beside
    obtain ⟨host'', beside'⟩ := later a w' host'
    refine ⟨host'', fun v => ?_⟩
    rw [bind_apply, beside]
    exact beside' v

theorem aloof_update {f : World → World} (host : ∀ w, (f w).host = w.host)
    (beside : ∀ v w : World, f (v.beside w) = v.beside (f w)) : Aloof circle (update f) := by
  intro w aloof
  refine ⟨?_, fun v => ?_⟩
  · show (f w).host.Aloof circle
    rw [host]
    exact aloof
  · show (Except.ok (), f (v.beside w)) = _
    rw [beside]
    rfl

theorem aloof_building (make : StateM Workshop α) : Aloof circle (building make) :=
  fun _ host => ⟨host, fun _ => rfl⟩

theorem aloof_inFrame (frame : StackFrame) {x : Action α} (inside : Aloof circle x) :
    Aloof circle (inFrame frame x) := by
  intro w host
  obtain ⟨host', beside⟩ := inside { w with stack := frame :: w.stack } host
  refine ⟨host', fun v => ?_⟩
  have entered := beside v
  unfold inFrame
  rw [show ({ v.beside w with stack := frame :: (v.beside w).stack } : World) =
    v.beside { w with stack := frame :: w.stack } from rfl, entered]
  rfl

theorem aloof_foldlM {γ : Type} (l : List γ) {f : α → γ → Action α}
    (each : ∀ c ∈ l, ∀ a, Aloof circle (f a c)) : ∀ a, Aloof circle (l.foldlM f a) := by
  induction l with
  | nil => exact fun a => aloof_pure a
  | cons c rest ih =>
    obtain ⟨first, later⟩ := List.forall_mem_cons.mp each
    exact fun a => aloof_bind (first a) (ih later)

theorem aloof_define {typeName : String} {methods : List (String × Code)}
    (given : ∀ e ∈ methods, circle ⟨typeName, e.1⟩ → Code.Aloof circle e.2) :
    Aloof circle (update (·.define typeName methods)) := by
  intro w host
  have defined := World.define_of_aloof host typeName methods
  refine ⟨?_, fun v => ?_⟩
  · show (w.define typeName methods).host.Aloof circle
    rw [defined]
    exact host.define given
  · have defined' : (v.beside w).define typeName methods = _ :=
      World.define_of_aloof (w := v.beside w) host typeName methods
    show (Except.ok (), (v.beside w).define typeName methods) =
      (Except.ok (), v.beside (w.define typeName methods))
    rw [defined, defined']
    rfl

section Runner

variable {run : Runner}

theorem executeLine_of_untraced (path : String) (line : UInt32) (locals : Vars) {w : World}
    (untraced : w.host.traces = []) : executeLine run path line locals w =
      (.ok (), if w.host.executes path line then w.moveTo path line else w) := by
  have nothing : w.host.callbacksAt path line = [] := by
    unfold Host.callbacksAt Host.tracesOf
    simp [untraced]
  rw [executeLine_eq, nothing]
  split
  · unfold runLine World.moveTo
    rw [get_bind_apply]
    obtain ⟨types, heap, engines, stack, journal, warnings, poisoned, elapsed⟩ := w
    cases stack <;> rfl
  · rfl

theorem aloof_executeLine (path : String) (line : UInt32) (locals : Vars) :
    Aloof circle (executeLine run path line locals) := by
  intro w host
  refine ⟨?_, fun v => ?_⟩
  · rw [executeLine_of_untraced path line locals host.pristine.traces]
    dsimp only
    split
    · rw [World.host_moveTo]
      exact host
    · exact host
  · rw [executeLine_of_untraced path line locals host.pristine.traces,
      executeLine_of_untraced (w := v.beside w) path line locals host.pristine.traces,
      World.beside_moveTo]
    show (Except.ok (), if w.host.executes path line then _ else _) = _
    split <;> rfl

variable (runs : ∀ args code, Code.Aloof circle code → Aloof circle (run args code))
include runs

theorem aloof_call {m : MethodName} (inside : circle m) (args : CallArgs) :
    Aloof circle (call run m args) := by
  intro w host
  cases found : w.host.body? m with
  | none =>
    refine ⟨?_, fun v => ?_⟩
    · rw [call_of_undefined run args found]
      exact host
    · rw [call_of_undefined run args found, call_of_undefined run args (w := v.beside w) found]
      rfl
  | some body =>
    obtain ⟨code, rfl⟩ := host.pristine.plain m body found
    have ran : Aloof circle (inFrame (frameOf m) (perform run args (.program code)) >>=
        fun returned => (pure (.ok returned) : Action (Except Error Value))) :=
      aloof_bind (aloof_inFrame _ (runs args code (host.programs m code inside found)))
        fun _ => aloof_pure _
    obtain ⟨host', beside⟩ := ran w host
    refine ⟨?_, fun v => ?_⟩
    · rw [call_of_found run args found]
      exact host'
    · rw [call_of_found run args found, call_of_found run args (w := v.beside w) found]
      exact beside v

theorem aloof_instruct (args : CallArgs) {code : Code} (aloof : code.Aloof circle)
    {i : Instruction} (member : i ∈ code) : Aloof circle (instruct run args i) := by
  obtain ⟨silent, calls, recurs, defines⟩ := aloof
  cases i with
  | ret value => exact aloof_building _
  | arg n => exact aloof_pure _
  | named name => exact aloof_pure _
  | double n =>
    simp only [instruct]
    split <;> exact aloof_pure _
  | set n field value =>
    apply aloof_bind (aloof_building _)
    intro v
    split
    · exact aloof_bind (aloof_update (fun _ => rfl) fun _ _ => rfl) fun _ => aloof_pure _
    · exact aloof_pure _
  | call m positional named =>
    apply aloof_bind (aloof_building _)
    intro callArgs
    apply aloof_bind (aloof_call runs (calls m positional named member) callArgs)
    intro r
    split <;> exact aloof_pure _
  | recurse m =>
    simp only [instruct]
    split
    · split
      · exact aloof_bind (aloof_call runs (recurs m member) _) fun _ => aloof_pure _
      · exact aloof_pure _
    · exact aloof_pure _
  | line path line locals =>
    apply aloof_bind (aloof_building _)
    intro locals
    exact aloof_bind (aloof_executeLine path line locals) fun _ => aloof_pure _
  | load path lines =>
    intro w host
    have loads : ∀ w : World, instruct run args (.load path lines) w =
      (.ok (.integer (.ofNat (w.load path lines).1.id)), (w.load path lines).2) := fun _ => rfl
    refine ⟨?_, fun v => ?_⟩
    · rw [loads, World.load_of_aloof host]
      exact host.load path lines
    · rw [loads, loads, World.load_of_aloof host, World.load_of_aloof (w := v.beside w) host]
      rfl
  | define typeName methods =>
    exact aloof_bind (aloof_define (defines typeName methods member)) fun _ => aloof_pure _
  | process n documents => exact absurd member (silent n documents)
  | panic text => exact aloof_throw _

end Runner

theorem aloof_runCode (fuel : Nat) :
    ∀ args code, Code.Aloof circle code → Aloof circle (runCode fuel args code) := by
  induction fuel with
  | zero => exact fun _ _ _ => aloof_throw _
  | succ fuel ih =>
    exact fun args code aloof =>
      aloof_foldlM code (fun _ member _ => aloof_instruct ih args aloof member) _

end Action

namespace World

variable {circle : MethodName → Prop}

theorem aloof_take (fuel : Nat) {w : World} (host : w.host.Aloof circle) {event : Event}
    (aloof : event.Aloof circle) :
    (w.take fuel event).host.Aloof circle ∧
      ∀ v : World, (v.beside w).take fuel event = v.beside (w.take fuel event) := by
  have of_action : ∀ {α : Type} {x : Action α}, Action.Aloof circle x →
      (x w).2.host.Aloof circle ∧ ∀ v : World, (x (v.beside w)).2 = v.beside (x w).2 :=
    fun alike => ⟨(alike w host).1, fun v => congrArg Prod.snd ((alike w host).2 v)⟩
  cases event with
  | define typeName methods => exact of_action (Action.aloof_define aloof)
  | load path lines =>
    refine ⟨?_, fun v => ?_⟩
    · show (w.load path lines).2.host.Aloof circle
      rw [load_of_aloof host]
      exact host.load path lines
    · show ((v.beside w).load path lines).2 = v.beside (w.load path lines).2
      rw [load_of_aloof host, load_of_aloof (w := v.beside w) host]
      rfl
  | call m args => exact of_action (Action.aloof_call (Action.aloof_runCode fuel) aloof args)
  | line path line locals => exact of_action (Action.aloof_executeLine path line locals)
  | store heap => exact ⟨host, fun _ => rfl⟩
  | process documents => exact aloof.elim
  | deliver => exact aloof.elim

theorem aloof_after (fuel : Nat) (events : List Event) :
    ∀ {w : World}, w.host.Aloof circle → (∀ event ∈ events, event.Aloof circle) →
      (w.after fuel events).host.Aloof circle ∧
        ∀ v : World, (v.beside w).after fuel events = v.beside (w.after fuel events) := by
  induction events with
  | nil => exact fun host _ => ⟨host, fun _ => rfl⟩
  | cons event rest ih =>
    intro w host aloof
    obtain ⟨first, later⟩ := List.forall_mem_cons.mp aloof
    obtain ⟨host', beside⟩ := aloof_take fuel host first
    obtain ⟨host'', beside'⟩ := ih host' later
    refine ⟨host'', fun v => ?_⟩
    show ((v.beside w).take fuel event).after fuel rest = _
    rw [beside, beside']
    rfl

end World
end LiveProbe
