import LiveProbe.Code.Registry
import LiveProbe.Error
import LiveProbe.Host.Program

/-!
The host: its types with their methods, the units it has loaded, and what is hooked into it.
Units, traces and subscriptions are numbered by one counter.
-/
namespace LiveProbe

inductive Capability where
  | installMethod
  | removeMethod
  | installLine
  | removeLine
  deriving DecidableEq, Repr

inductive Observer where
  | engine (n : Nat)
  | watcher (label : String)
  deriving DecidableEq, Repr

structure LineTrace where
  id : Nat
  unit : Option Nat
  line : UInt32
  only : Option SourceLine
  callback : Callback

/-- An interceptor of a method, with what is needed to take it back. -/
structure MethodHandle where
  method : MethodName
  /-- The body that was set; without a key it is the saved one. -/
  installed : Option BodyKey
  saved : Body

structure LineHandle where
  id : Nat
  file : String
  line : UInt32
  deriving DecidableEq, Repr

structure Host where
  types : List (String × List (String × Body)) := []
  units : List (String × List CompiledUnit) := []
  traces : List LineTrace := []
  lastId : Nat := 0
  definitionObservers : List (Nat × Observer) := []
  compileObservers : List (Nat × Observer) := []
  listsUnits : Bool := true
  refuses : Capability → HookTarget → Option Error := fun _ _ => none

namespace Host

def freshId (h : Host) : Nat × Host := (h.lastId + 1, { h with lastId := h.lastId + 1 })

def isDefined (h : Host) (typeName : String) : Bool := Table.contains typeName h.types

def methods (h : Host) (typeName : String) : List (String × Body) :=
  (Table.get? typeName h.types).getD []

def body? (h : Host) (m : MethodName) : Option Body :=
  Table.get? m.typeName h.types >>= Table.get? m.name

def setBody (h : Host) (m : MethodName) (body : Body) : Host :=
  { h with
    types := Table.insert m.typeName (Table.insert m.name body (h.methods m.typeName)) h.types }

/-- Defines a type, or adds methods to it; a method of a known name is replaced. -/
def define (h : Host) (typeName : String) (methods : List (String × Body)) : Host :=
  { h with types := Table.insert typeName (Table.insertAll (h.methods typeName) methods) h.types }

def unitsOf (h : Host) (path : String) : List CompiledUnit := (Table.get? path h.units).getD []

def load (h : Host) (path : String) (lines : List UInt32) : CompiledUnit × Host :=
  let (id, h) := h.freshId
  let unit : CompiledUnit := ⟨id, path, lines⟩
  (unit, { h with units := Table.insert path (h.unitsOf path ++ [unit]) h.units })

def allUnits (h : Host) : List CompiledUnit := h.units.flatMap (·.2)

def isLoaded (h : Host) (unit : CompiledUnit) : Bool := h.allUnits.any (·.id == unit.id)

def loadedUnits (h : Host) : List CompiledUnit :=
  if h.listsUnits then h.allUnits.mergeSort (fun a b => a.id ≤ b.id) else []

def executes (h : Host) (path : String) (line : UInt32) : Bool :=
  (h.unitsOf path).any (·.isExecutable line)

def tracesOf (h : Host) (path : String) (line : UInt32) : List LineTrace :=
  if h.executes path line then
    h.traces.filter fun t => match t.unit with
      | some id => t.line == line && (h.unitsOf path).any (·.id == id)
      | none => true
  else []

def notDefined {α : Type} (what : String) : Except Error α := .error (.targetNotDefined what)

def interceptMethod (h : Host) (m : MethodName) (wrap : Body → Body) :
    Except Error MethodHandle × Host :=
  match Table.get? m.typeName h.types with
  | none => (notDefined ("Type not defined: " ++ m.typeName), h)
  | some methods =>
    match Table.get? m.name methods with
    | none => (notDefined ("Method not defined: " ++ m.display), h)
    | some saved =>
      let body := wrap saved
      (.ok ⟨m, body.key?, saved⟩, h.setBody m body)

/-- Puts the saved body back, if the interceptor is still the method's body. -/
def restoreMethod (h : Host) (handle : MethodHandle) : Host :=
  match h.body? handle.method with
  | some body =>
    if handle.installed.isSome && body.key? == handle.installed then
      h.setBody handle.method handle.saved
    else h
  | none => h

def interceptLine (h : Host) (unit : Option CompiledUnit) (file : String) (line : UInt32)
    (only : Option SourceLine) (callback : Callback) : Except Error LineHandle × Host :=
  match unit.filter fun u => !h.isLoaded u with
  | some u =>
    (.error (.install ("unit " ++ toString u.id ++ " of " ++ u.path ++ " is not loaded")), h)
  | none =>
    let (id, h) := h.freshId
    let trace : LineTrace := ⟨id, unit.map (·.id), line, only, callback⟩
    (.ok ⟨id, file, line⟩, { h with traces := h.traces ++ [trace] })

def removeTrace (h : Host) (handle : LineHandle) : Host :=
  { h with traces := h.traces.filter (·.id ≠ handle.id) }

def subscribeDefinitions (h : Host) (o : Observer) : Nat × Host :=
  let (id, h) := h.freshId
  (id, { h with definitionObservers := h.definitionObservers ++ [(id, o)] })

def unsubscribeDefinitions (h : Host) (id : Nat) : Host :=
  { h with definitionObservers := h.definitionObservers.filter (·.1 ≠ id) }

def subscribeCompiles (h : Host) (o : Observer) : Nat × Host :=
  let (id, h) := h.freshId
  (id, { h with compileObservers := h.compileObservers ++ [(id, o)] })

def unsubscribeCompiles (h : Host) (id : Nat) : Host :=
  { h with compileObservers := h.compileObservers.filter (·.1 ≠ id) }

/-- Forgets an observer; its subscriptions end without being cancelled. -/
def dropWatcher (h : Host) (label : String) : Host :=
  { h with
    definitionObservers := h.definitionObservers.filter (·.2 ≠ .watcher label)
    compileObservers := h.compileObservers.filter (·.2 ≠ .watcher label) }

/-! What the engine asks for, which the host may refuse. -/

def installMethod (h : Host) (m : MethodName) (wrap : Body → Body) :
    Except Error MethodHandle × Host :=
  match h.refuses .installMethod (.method m) with
  | some e => (.error e, h)
  | none => h.interceptMethod m wrap

def removeMethod (h : Host) (handle : MethodHandle) : Except Error Unit × Host :=
  match h.refuses .removeMethod (.method handle.method) with
  | some e => (.error e, h)
  | none => (.ok (), h.restoreMethod handle)

def installLine (h : Host) (unit : Option CompiledUnit) (l : SourceLine) (callback : Callback) :
    Except Error LineHandle × Host :=
  match h.refuses .installLine (.line l) with
  | some e => (.error e, h)
  | none => h.interceptLine unit l.file l.line (some l) callback

def removeLine (h : Host) (handle : LineHandle) : Except Error Unit × Host :=
  match h.refuses .removeLine (.line ⟨handle.file, handle.line⟩) with
  | some e => (.error e, h)
  | none => (.ok (), h.removeTrace handle)

theorem body?_setBody (h : Host) (m : MethodName) (body : Body) :
    (h.setBody m body).body? m = some body := by
  simp [setBody, body?, Table.get?_insert_self]

end Host
end LiveProbe
