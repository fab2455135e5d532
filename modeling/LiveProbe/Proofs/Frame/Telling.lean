import LiveProbe.Proofs.World.Acting
import LiveProbe.Proofs.World.History

/-!
Code of the host that runs and tells of it: which calls are made and which lines are executed, what
comes to pass while each of them is in progress, and the stacks that are handed to hooks. But for
the tale, it is the code that runs, however probes act in it.
-/
namespace LiveProbe

/-- What comes to pass while code runs. A call and a line tell of what comes to pass until they end,
in whatever way they do. -/
inductive Tale where
  | done
  | handed (stack : List StackFrame) (rest : Tale)
  | called (m : MethodName) (inside rest : Tale)
  | executed (path : String) (line : UInt32) (inside rest : Tale)
  deriving DecidableEq, Repr

namespace Tale

def append : Tale → Tale → Tale
  | .done, later => later
  | .handed stack rest, later => .handed stack (rest.append later)
  | .called m inside rest, later => .called m inside (rest.append later)
  | .executed path line inside rest, later => .executed path line inside (rest.append later)

end Tale

/-- An action that tells what comes to pass. -/
def Telling (α : Type) : Type := World → (Except Fault α × World) × Tale

abbrev Teller := CallArgs → Code → Telling Value

namespace Telling

variable {α β : Type}

def action (x : Telling α) : Action α := fun w => (x w).1

def silent (x : Action α) : Telling α := fun w => (x w, .done)

def bind (x : Telling α) (f : α → Telling β) : Telling β := fun w =>
  match x w with
  | ((.ok a, w'), tale) => ((f a w').1, tale.append (f a w').2)
  | ((.error e, w'), tale) => ((.error e, w'), tale)

instance : Monad Telling where
  pure a := silent (Pure.pure a)
  bind := bind

def within (tell : Tale → Tale) (x : Telling α) : Telling α := fun w => ((x w).1, tell (x w).2)

def look : Telling World := silent get

def hand (stack : List StackFrame) : Telling Unit := fun w => ((.ok (), w), .handed stack .done)

def inFrame (frame : StackFrame) (x : Telling α) : Telling α := fun w =>
  let ((result, w), tale) := x { w with stack := frame :: w.stack }
  ((result, { w with stack := w.stack.tail }), tale)

/-! The code of the host, which tells of calls and lines, and of what it hands to hooks. -/

section Acts

variable (acts : Acts)

def fire (run : Teller) (e : Execution) (callback : Callback) : Telling Unit := do
  hand (Reporter.stackOf e)
  match callback with
  | .script code => discard (run (Action.argsOf e) code)
  | callback => silent (Action.fireWith acts (fun _ _ => pure .nil) e callback)

def intercepted (label : String) : Telling Unit := do
  let w ← look
  hand w.stack
  silent (Action.update fun w => w.note (.intercepted label w.stack))

def perform (run : Teller) (args : CallArgs) : Body → Telling Value
  | .program code => run args code
  | .hooked manager method installation callback saved => do
    let current := (← look).slot manager method
    let returned ← perform run args saved
    if current = installation then
      let w ← look
      fire acts run (.method { args, returned, elapsed := w.elapsed, stack := w.stack }) callback
    return returned
  | .wrapped _ label saved => do
    intercepted label
    let returned ← perform run args saved
    return .array [.string label, returned]
  | .replaced _ label => do
    intercepted label
    return .string label

def call (run : Teller) (m : MethodName) (args : CallArgs) : Telling (Except Error Value) := do
  match (← look).host.body? m with
  | none => return .error (.targetNotDefined m.display)
  | some body =>
    return .ok (← within (.called m · .done)
      (inFrame (Action.frameOf m) (perform acts run args body)))

def traceLine (run : Teller) (traces : List LineTrace) (path : String) (line : UInt32)
    (locals : Vars) : Telling Unit :=
  traces.forM fun t => do
    if Action.concerns path line t then
      fire acts run (.line { path, line, locals, stack := (← look).stack }) t.callback

def executeLine (run : Teller) (path : String) (line : UInt32) (locals : Vars) : Telling Unit := do
  let w ← look
  if w.host.executes path line then
    within (.executed path line · .done) do
      let traces := w.host.tracesOf path line
      match w.stack with
      | frame :: rest =>
        silent (set { w with stack := { frame with file := path, line } :: rest })
        traceLine acts run traces path line locals
      | [] => inFrame ⟨path, "<main>", line⟩ (traceLine acts run traces path line locals)

def instruct (run : Teller) (args : CallArgs) : Instruction → Telling Value
  | .call method positional named => do
    let callArgs ← silent (Action.building do
      let positional ← positional.mapM Literal.build
      return { positional, named := ← Literal.buildVars named })
    match ← call acts run method callArgs with
    | .ok v => return v
    | .error e => return .symbol e.message
  | .recurse method => match Action.argument args 0 with
    | .integer n =>
      if 0 < n then
        return Action.orNil (← call acts run method { positional := [.integer (n - 1)] })
      else return .integer n
    | v => return v
  | .line path line locals => do
    let locals ← silent (Action.building (Literal.buildVars locals))
    executeLine acts run path line locals
    return .nil
  | i => silent (Action.instruct (fun _ _ => pure .nil) args i)

def runCode : Nat → Teller
  | 0 => fun _ _ => silent (throw .exhausted)
  | fuel + 1 => fun args code => code.foldlM (fun _ i => instruct acts (runCode fuel) args i) .nil

end Acts

theorem bind_apply (x : Telling α) (f : α → Telling β) (w : World) :
    (x >>= f) w = match x w with
      | ((.ok a, w'), tale) => ((f a w').1, tale.append (f a w').2)
      | ((.error e, w'), tale) => ((.error e, w'), tale) := rfl

/-! But for the tale, it is the code of the host. -/

theorem action_silent (x : Action α) : (silent x).action = x := rfl

theorem action_pure (a : α) : (pure a : Telling α).action = pure a := rfl

theorem action_look : look.action = get := rfl

theorem action_within (tell : Tale → Tale) (x : Telling α) : (within tell x).action = x.action :=
  rfl

theorem action_bind (x : Telling α) (f : α → Telling β) :
    (x >>= f).action = x.action >>= fun a => (f a).action := by
  funext w
  unfold action
  rw [Action.bind_apply, bind_apply]
  rcases x w with ⟨⟨e | a, w'⟩, tale⟩ <;> rfl

theorem action_inFrame (frame : StackFrame) (x : Telling α) :
    (inFrame frame x).action = Action.inFrame frame x.action := rfl

theorem action_ite (c : Prop) [Decidable c] (x y : Telling α) :
    (if c then x else y).action = if c then x.action else y.action := by
  split <;> rfl

theorem action_forM {γ : Type} (l : List γ) (f : γ → Telling PUnit) :
    (l.forM f).action = l.forM fun a => (f a).action := by
  induction l with
  | nil => rfl
  | cons a rest ih =>
    have cons := action_bind (f a) fun _ => rest.forM f
    simp only [ih] at cons
    exact cons

theorem action_foldlM {γ : Type} (l : List γ) (f : α → γ → Telling α) (a : α) :
    (l.foldlM f a).action = l.foldlM (fun a c => (f a c).action) a := by
  induction l generalizing a with
  | nil => rfl
  | cons c rest ih =>
    rw [List.foldlM_cons, List.foldlM_cons, action_bind]
    simp only [ih]

def plain (run : Teller) : Runner := fun args code => (run args code).action

section Runner

variable (acts : Acts) (run : Teller)

theorem action_fire (e : Execution) (callback : Callback) :
    (fire acts run e callback).action = Action.fireWith acts (plain run) e callback := by
  cases callback with
  | record label => rfl
  | probes engine group => rfl
  | script code =>
    have ran := action_bind (run (Action.argsOf e) code) fun _ => pure ()
    refine ran.trans ?_
    show _ = discard (plain run (Action.argsOf e) code)
    simp only [discard, Functor.discard, map_const, Function.comp_apply]
    rw [← bind_pure_comp]
    rfl

theorem action_perform (args : CallArgs) (body : Body) :
    (perform acts run args body).action = Action.performWith acts (plain run) args body := by
  induction body with
  | program code => rfl
  | hooked manager method installation callback saved ih =>
    unfold perform Action.performWith
    simp only [action_bind, ih, action_look, action_ite, action_fire, action_pure]
  | wrapped serial label saved ih =>
    unfold perform Action.performWith
    simp only [action_bind, ih, action_pure]
    rfl
  | replaced serial label => rfl

theorem action_call (m : MethodName) (args : CallArgs) :
    (call acts run m args).action = Action.callWith acts (plain run) m args := by
  unfold call Action.callWith
  simp only [action_bind, action_look]
  congr 1
  funext w
  cases w.host.body? m with
  | none => rfl
  | some body =>
    simp only [action_bind, action_within, action_inFrame, action_perform, action_pure]

theorem action_traceLine (traces : List LineTrace) (path : String) (line : UInt32) (locals : Vars) :
    (traceLine acts run traces path line locals).action =
      Action.traceLineWith acts (plain run) traces path line locals := by
  unfold traceLine Action.traceLineWith
  simp only [action_forM, action_ite, action_bind, action_look, action_fire, action_pure]

theorem action_executeLine (path : String) (line : UInt32) (locals : Vars) :
    (executeLine acts run path line locals).action =
      Action.executeLineWith acts (plain run) path line locals := by
  unfold executeLine Action.executeLineWith
  simp only [action_bind, action_look, action_ite, action_within, action_pure]
  congr 1
  funext w
  split
  · cases w.stack with
    | nil => simp only [action_inFrame, action_traceLine]
    | cons frame rest => simp only [action_bind, action_silent, action_traceLine]
  · rfl

theorem action_instruct (args : CallArgs) (i : Instruction) :
    (instruct acts run args i).action = Action.instructWith acts (plain run) args i := by
  cases i with
  | call method positional named =>
    unfold instruct Action.instructWith
    simp only [action_bind, action_silent, action_call]
    congr 1
    funext callArgs
    congr 1
    funext answer
    cases answer <;> rfl
  | recurse method =>
    unfold instruct Action.instructWith
    cases Action.argument args 0 with
    | integer n => simp only [action_ite, action_bind, action_call, action_pure]
    | _ => rfl
  | line path line locals =>
    unfold instruct Action.instructWith
    simp only [action_bind, action_silent, action_executeLine, action_pure]
  | _ => rfl

end Runner

theorem plain_runCode (acts : Acts) (fuel : Nat) :
    plain (runCode acts fuel) = Action.runCodeWith acts fuel := by
  induction fuel with
  | zero => rfl
  | succ fuel ih =>
    funext args code
    unfold plain runCode Action.runCodeWith
    simp only [action_foldlM, action_instruct, ih]

end Telling
end LiveProbe
