import LiveProbe.World.Basic

/-!
Running code of the host. Every call in progress has one frame on the stack, which goes when the
call ends, also by a panic. What is changed before a panic stays changed. Nesting is bounded by
fuel; running out of it is kept apart from every outcome of the code itself.
-/
namespace LiveProbe

inductive Fault where
  | panicked (text : String)
  | exhausted
  deriving DecidableEq, Repr

abbrev Action (α : Type) := ExceptT Fault (StateM World) α

abbrev Runner := CallArgs → Code → Action Value

namespace Action

def update (f : World → World) : Action Unit := modify f

def building {α : Type} (make : StateM Workshop α) : Action α := do
  let w ← get
  let (a, workshop) := make.run ⟨w.heap, []⟩
  set { w with heap := workshop.heap }
  return a

def inFrame {α : Type} (frame : StackFrame) (x : Action α) : Action α := fun w =>
  let (result, w) := x { w with stack := frame :: w.stack }
  (result, { w with stack := w.stack.tail })

def report (engine : Nat) (e : Execution) (k : KnownProbe) : Action Unit := do
  let (turn, w) := (← get).inSetup engine fun s => s.onProbes (Probes.takeTurn k)
  set w
  if turn = some true then
    update (·.updateSetup engine (·.tellStatus k.probe .emitting))
    if k.probe.id ∈ (← get).poisoned then throw (.panicked "sink failure")
    update fun w => w.updateSetup engine fun s =>
      s.tell (.snapshot (s.engine.reporter.snapshot w.heap k.probe e))

/-- Keeps a panic of the engine from the host, unless it shall reach it. -/
def guarded (engine : Nat) (k : KnownProbe) (x : Action Unit) : Action Unit :=
  tryCatch x fun
    | .panicked text => do
      let w ← get
      if w.engines[engine]?.any (·.propagate) then throw (.panicked text)
      else set (w.warn (.probeFailed k.probe.id))
    | .exhausted => throw .exhausted

def reportAll (engine group : Nat) (e : Execution) : Action Unit := do
  let members := ((← get).engines[engine]?.map fun e => e.probes.membersOf group).getD []
  members.forM fun k => guarded engine k (report engine e k)

def recordOf (label : String) : Execution → Occurrence
  | .method hit => .method label hit
  | .line hit => .line label hit

def argsOf : Execution → CallArgs
  | .method hit => hit.args
  | .line _ => {}

def fire (run : Runner) (e : Execution) : Callback → Action Unit
  | .record label => update (·.note (recordOf label e))
  | .probes engine group => reportAll engine group e
  | .script code => discard (run (argsOf e) code)

/-- Runs a body. What it is hooked by is looked up before the saved body runs, and told of the
call after it. -/
def perform (run : Runner) (args : CallArgs) : Body → Action Value
  | .program code => run args code
  | .hooked manager method installation callback saved => do
    let current := (← get).slot manager method
    let returned ← perform run args saved
    if current = installation then
      let w ← get
      fire run (.method { args, returned, elapsed := w.elapsed, stack := w.stack }) callback
    return returned
  | .wrapped _ label saved => do
    update fun w => w.note (.intercepted label w.stack)
    let returned ← perform run args saved
    return .array [.string label, returned]
  | .replaced _ label => do
    update fun w => w.note (.intercepted label w.stack)
    return .string label

def frameOf (m : MethodName) : StackFrame := ⟨"unknown", m.display, 0⟩

def call (run : Runner) (m : MethodName) (args : CallArgs) : Action (Except Error Value) := do
  match (← get).host.body? m with
  | none => return .error (.targetNotDefined m.display)
  | some body => return .ok (← inFrame (frameOf m) (perform run args body))

def concerns (path : String) (line : UInt32) (t : LineTrace) : Bool :=
  match t.only with
  | some l => l = .ofPath path line
  | none => true

def traceLine (run : Runner) (traces : List LineTrace) (path : String) (line : UInt32)
    (locals : Vars) : Action Unit :=
  traces.forM fun t => do
    if concerns path line t then
      fire run (.line { path, line, locals, stack := (← get).stack }) t.callback

/-- Runs a line that holds code; any other is ignored. The innermost frame moves to the line, and
outside of all calls the line has a frame of its own. -/
def executeLine (run : Runner) (path : String) (line : UInt32) (locals : Vars) : Action Unit := do
  let w ← get
  if w.host.executes path line then
    let traces := w.host.tracesOf path line
    match w.stack with
    | frame :: rest =>
      set { w with stack := { frame with file := path, line } :: rest }
      traceLine run traces path line locals
    | [] => inFrame ⟨path, "<main>", line⟩ (traceLine run traces path line locals)

def argument (args : CallArgs) (n : Nat) : Value := args.positional[n]?.getD .nil

def orNil : Except Error Value → Value
  | .ok v => v
  | .error _ => .nil

def instruct (run : Runner) (args : CallArgs) : Instruction → Action Value
  | .ret value => building value.build
  | .arg n => return argument args n
  | .named name => return ((args.named.find? (·.1 = name)).map (·.2)).getD .nil
  | .double n => match argument args n with
    | .integer i => return .integer (i + i)
    | _ => return .nil
  | .set n field value => do
    let v ← building value.build
    match argument args n with
    | .object _ ref => update fun w => { w with heap := w.heap.set ref field v }
    | _ => pure ()
    return .nil
  | .call method positional named => do
    let callArgs : CallArgs ← building do
      let positional ← positional.mapM Literal.build
      return { positional, named := ← Literal.buildVars named }
    match ← call run method callArgs with
    | .ok v => return v
    | .error e => return .symbol e.message
  | .recurse method => match argument args 0 with
    | .integer n =>
      if 0 < n then return orNil (← call run method { positional := [.integer (n - 1)] })
      else return .integer n
    | v => return v
  | .line path line locals => do
    let locals ← building (Literal.buildVars locals)
    executeLine run path line locals
    return .nil
  | .load path lines => do
    let (unit, w) := (← get).load path lines
    set w
    return .integer (.ofNat unit.id)
  | .define typeName methods => do
    update (·.define typeName methods)
    return .nil
  | .process engine documents => do
    update fun w => (w.inSetup engine (·.process documents)).2
    return .nil
  | .panic text => throw (.panicked text)

def instructAll (run : Runner) (args : CallArgs) (code : Code) : Action Value :=
  code.foldlM (fun _ i => instruct run args i) .nil

def runCode : Nat → Runner
  | 0 => fun _ _ => throw .exhausted
  | fuel + 1 => instructAll (runCode fuel)

end Action
end LiveProbe
