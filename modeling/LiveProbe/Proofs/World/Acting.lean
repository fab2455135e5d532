import LiveProbe.World.Run

/-!
Code of the host that runs where probes may act in other ways than by reports. What the probes of a
group do when their hook fires is left open; with reports, it is the code that runs.
-/
namespace LiveProbe

/-- What the probes of a group of an engine do on an execution. -/
abbrev Acts := Nat → Nat → Execution → Action Unit

namespace Action

section Runner

variable (acts : Acts) (run : Runner)

def fireWith (e : Execution) : Callback → Action Unit
  | .probes engine group => acts engine group e
  | callback => fire run e callback

def performWith (args : CallArgs) : Body → Action Value
  | .program code => run args code
  | .hooked manager method installation callback saved => do
    let current := (← get).slot manager method
    let returned ← performWith args saved
    if current = installation then
      let w ← get
      fireWith acts run (.method { args, returned, elapsed := w.elapsed, stack := w.stack }) callback
    return returned
  | .wrapped _ label saved => do
    update fun w => w.note (.intercepted label w.stack)
    let returned ← performWith args saved
    return .array [.string label, returned]
  | .replaced _ label => do
    update fun w => w.note (.intercepted label w.stack)
    return .string label

def callWith (m : MethodName) (args : CallArgs) : Action (Except Error Value) := do
  match (← get).host.body? m with
  | none => return .error (.targetNotDefined m.display)
  | some body => return .ok (← inFrame (frameOf m) (performWith acts run args body))

def traceLineWith (traces : List LineTrace) (path : String) (line : UInt32) (locals : Vars) :
    Action Unit :=
  traces.forM fun t => do
    if concerns path line t then
      fireWith acts run (.line { path, line, locals, stack := (← get).stack }) t.callback

def executeLineWith (path : String) (line : UInt32) (locals : Vars) : Action Unit := do
  let w ← get
  if w.host.executes path line then
    let traces := w.host.tracesOf path line
    match w.stack with
    | frame :: rest =>
      set { w with stack := { frame with file := path, line } :: rest }
      traceLineWith acts run traces path line locals
    | [] => inFrame ⟨path, "<main>", line⟩ (traceLineWith acts run traces path line locals)

def instructWith (args : CallArgs) : Instruction → Action Value
  | .call method positional named => do
    let callArgs : CallArgs ← building do
      let positional ← positional.mapM Literal.build
      return { positional, named := ← Literal.buildVars named }
    match ← callWith acts run method callArgs with
    | .ok v => return v
    | .error e => return .symbol e.message
  | .recurse method => match argument args 0 with
    | .integer n =>
      if 0 < n then return orNil (← callWith acts run method { positional := [.integer (n - 1)] })
      else return .integer n
    | v => return v
  | .line path line locals => do
    let locals ← building (Literal.buildVars locals)
    executeLineWith acts run path line locals
    return .nil
  | i => instruct run args i

end Runner

def runCodeWith (acts : Acts) : Nat → Runner
  | 0 => fun _ _ => throw .exhausted
  | fuel + 1 => fun args code =>
    code.foldlM (fun _ i => instructWith acts (runCodeWith acts fuel) args i) .nil

variable (run : Runner)

theorem fireWith_reportAll : fireWith reportAll run = fire run := by
  funext e callback
  cases callback <;> rfl

theorem performWith_reportAll (args : CallArgs) (body : Body) :
    performWith reportAll run args body = perform run args body := by
  induction body with
  | program code => rfl
  | hooked manager method installation callback saved ih =>
    unfold performWith perform
    rw [ih, fireWith_reportAll]
  | wrapped serial label saved ih =>
    unfold performWith perform
    rw [ih]
  | replaced serial label => rfl

theorem callWith_reportAll : callWith reportAll run = call run := by
  funext m args
  refine congrArg (get >>= ·) (funext fun w => ?_)
  cases w.host.body? m with
  | none => rfl
  | some body =>
    dsimp only
    rw [performWith_reportAll]

theorem executeLineWith_reportAll : executeLineWith reportAll run = executeLine run := by
  have traced : traceLineWith reportAll run = traceLine run := by
    unfold traceLineWith traceLine
    rw [fireWith_reportAll]
  funext path line locals
  refine congrArg (get >>= ·) (funext fun w => ?_)
  split
  · cases w.stack with
    | nil =>
      dsimp only
      rw [traced]
    | cons frame rest =>
      dsimp only
      rw [traced]
  · rfl

theorem instructWith_reportAll : instructWith reportAll run = instruct run := by
  funext args i
  unfold instructWith
  rw [callWith_reportAll, executeLineWith_reportAll]
  cases i <;> rfl

theorem runCodeWith_reportAll (fuel : Nat) : runCodeWith reportAll fuel = runCode fuel := by
  induction fuel with
  | zero => rfl
  | succ fuel ih =>
    unfold runCodeWith
    rw [ih, instructWith_reportAll]
    rfl

end Action
end LiveProbe
