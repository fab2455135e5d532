import LiveProbe.Host.Basic
import LiveProbe.Warning

/-!
Hooks of one manager. A target has at most one hook, a later one takes its place. A hook whose
target is not there yet waits, and is installed when the host tells of the target. Every
installation has a number of its own; the slot of a method holds the number of the current one,
or zero.
-/
namespace LiveProbe

structure InstalledMethod where
  installation : Nat
  handle : MethodHandle

structure Hooks where
  manager : Nat
  untargeted : Bool := false
  pendingMethods : List (MethodName × Callback) := []
  pendingLines : List (SourceLine × Callback) := []
  methods : List (MethodName × InstalledMethod) := []
  slots : List (MethodName × Nat) := []
  lines : List (SourceLine × LineHandle) := []
  lastInstallation : Nat := 0
  closed : Bool := false
  definitions : Option Nat := none

structure Hooking where
  host : Host
  hooks : Hooks
  warnings : List Warning := []

namespace Hooks

def slot (h : Hooks) (m : MethodName) : Nat := (Table.get? m h.slots).getD 0

def setSlot (h : Hooks) (m : MethodName) (installation : Nat) : Hooks :=
  { h with slots := Table.insert m installation h.slots }

def isInstalled (h : Hooks) : HookTarget → Bool
  | .method m => Table.contains m h.methods
  | .line l => Table.contains l h.lines

def isPending (h : Hooks) : HookTarget → Bool
  | .method m => Table.contains m h.pendingMethods
  | .line l => Table.contains l h.pendingLines

def counts (h : Hooks) : Nat × Nat :=
  (h.methods.length + h.lines.length, h.pendingMethods.length + h.pendingLines.length)

def forgetPending (h : Hooks) : HookTarget → Hooks
  | .method m => { h with pendingMethods := Table.erase m h.pendingMethods }
  | .line l => { h with pendingLines := Table.erase l h.pendingLines }

def clearPending (h : Hooks) (target : HookTarget) : Bool × Hooks :=
  (h.isPending target, h.forgetPending target)

def clearAllPending (h : Hooks) : Hooks := { h with pendingMethods := [], pendingLines := [] }

def markClosed (h : Hooks) : Hooks := { h with closed := true, definitions := none }

end Hooks

namespace Hooking

def warn (w : Warning) (s : Hooking) : Hooking := { s with warnings := s.warnings ++ [w] }

/-- Takes the installed hook of a method back, even if the host refuses to remove it. -/
def releaseMethod (m : MethodName) (s : Hooking) : Hooking :=
  match Table.get? m s.hooks.methods with
  | none => s
  | some previous =>
    let hooks := s.hooks
    let hooks := if Table.contains m hooks.slots then hooks.setSlot m 0 else hooks
    let s := { s with hooks := { hooks with methods := Table.erase m hooks.methods } }
    match s.host.removeMethod previous.handle with
    | (.ok (), host) => { s with host }
    | (.error e, host) => { s with host }.warn (.previousHookStays (.method m) e)

/-- Numbers a new installation, which is not the current one yet. -/
def numberInstallation (m : MethodName) (s : Hooking) : Nat × Hooking :=
  let id := s.hooks.lastInstallation + 1
  let hooks := { s.hooks with lastInstallation := id }
  let hooks := if Table.contains m hooks.slots then hooks else hooks.setSlot m 0
  (id, { s with hooks })

def hookMethod (m : MethodName) (callback : Callback) (s : Hooking) :
    Except Error Unit × Hooking :=
  let (id, s) := (s.releaseMethod m).numberInstallation m
  match s.host.installMethod m (.hooked s.hooks.manager m id callback) with
  | (.error e, host) => (.error e, { s with host })
  | (.ok handle, host) =>
    let hooks := s.hooks.setSlot m id
    (.ok (), { s with host, hooks := { hooks with methods := Table.insert m ⟨id, handle⟩ hooks.methods } })

def traceUnit (code : Option CodeRegistry) (l : SourceLine) (s : Hooking) :
    Except Error (Option CompiledUnit) :=
  match code.filter (·.active) with
  | some registry =>
    match registry.lookup l.file with
    | some unit => .ok (some unit)
    | none =>
      if s.hooks.untargeted then .ok none
      else Host.notDefined ("File " ++ l.file ++ " not in code registry")
  | none =>
    if s.hooks.untargeted then .ok none
    else .error (.untargetedTracingDisallowed l.display)

/-- Takes the installed hook of a line back, and forgets it whatever the host says. -/
def releaseLine (l : SourceLine) (s : Hooking) : Except Error Unit × Hooking :=
  match Table.get? l s.hooks.lines with
  | none => (.ok (), s)
  | some previous =>
    let hooks := { s.hooks with lines := Table.erase l s.hooks.lines }
    let (result, host) := s.host.removeLine previous
    (result, { s with hooks, host })

def installLine (unit : Option CompiledUnit) (l : SourceLine) (callback : Callback) (s : Hooking) :
    Except Error Unit × Hooking :=
  match s.host.installLine unit l callback with
  | (.error e, host) => (.error e, { s with host })
  | (.ok handle, host) =>
    (.ok (), { s with
      host, hooks := { s.hooks with lines := Table.insert l handle s.hooks.lines } })

/-- The former hook of the line is taken back before the new one is set. -/
def hookLine (code : Option CodeRegistry) (l : SourceLine) (callback : Callback) (s : Hooking) :
    Except Error Unit × Hooking :=
  match s.traceUnit code l with
  | .error e => (.error e, s)
  | .ok unit =>
    match s.releaseLine l with
    | (.error e, s) => (.error e, s)
    | (.ok (), s) => s.installLine unit l callback

def hook (code : Option CodeRegistry) (target : HookTarget) (callback : Callback) (s : Hooking) :
    Except Error Unit × Hooking :=
  match target with
  | .method m => s.hookMethod m callback
  | .line l => s.hookLine code l callback

def addPending (target : HookTarget) (callback : Callback) (s : Hooking) : Hooking :=
  let hooks := match target with
    | .method m => { s.hooks with pendingMethods := Table.insert m callback s.hooks.pendingMethods }
    | .line l => { s.hooks with pendingLines := Table.insert l callback s.hooks.pendingLines }
  { s with hooks }

def hookWhenDefined (code : Option CodeRegistry) (target : HookTarget) (callback : Callback)
    (s : Hooking) : Except Error Bool × Hooking :=
  match s.hook code target callback with
  | (.ok (), s) => (.ok true, s)
  | (.error (.targetNotDefined _), s) => (.ok false, s.addPending target callback)
  | (.error e, s) => (.error e, s)

/-- Tries the waiting hook of a target; one that fails goes on waiting. -/
def retry (code : Option CodeRegistry) (target : HookTarget) (callback : Callback) (s : Hooking) :
    Bool × Hooking :=
  match s.hook code target callback with
  | (.ok (), s) => (true, { s with hooks := s.hooks.forgetPending target })
  | (.error (.targetNotDefined _), s) => (false, s)
  | (.error e, s) => (false, s.warn (.pendingHookFailed target e))

def retryAll (code : Option CodeRegistry) (waiting : List (HookTarget × Callback)) (s : Hooking) :
    List HookTarget × Hooking :=
  waiting.foldl (fun (installed, s) (target, callback) =>
    match s.retry code target callback with
    | (true, s) => (installed ++ [target], s)
    | (false, s) => (installed, s)) ([], s)

def waitingMethods (typeName : String) (h : Hooks) : List (HookTarget × Callback) :=
  (h.pendingMethods.filter (·.1.typeName == typeName)).map fun (m, callback) =>
    (.method m, callback)

def waitingLines (path : String) (h : Hooks) : List (HookTarget × Callback) :=
  (h.pendingLines.filter (·.1.file == Text.basename path)).map fun (l, callback) =>
    (.line l, callback)

def installPendingMethods (code : Option CodeRegistry) (typeName : String) (s : Hooking) :
    List HookTarget × Hooking :=
  if s.hooks.closed then ([], s) else s.retryAll code (waitingMethods typeName s.hooks)

def installPendingLines (code : Option CodeRegistry) (path : String) (s : Hooking) :
    List HookTarget × Hooking :=
  if s.hooks.closed then ([], s) else s.retryAll code (waitingLines path s.hooks)

def unhookMethod (m : MethodName) (s : Hooking) : Except Error Unit × Hooking :=
  match Table.get? m s.hooks.methods with
  | none => (.ok (), s)
  | some installed =>
    match s.host.removeMethod installed.handle with
    | (.error e, host) => (.error e, { s with host })
    | (.ok (), host) =>
      let hooks := s.hooks
      let hooks := if Table.get? m hooks.slots = some installed.installation
        then hooks.setSlot m 0 else hooks
      (.ok (), { s with host, hooks := { hooks with methods := Table.erase m hooks.methods } })

def unhookLine (l : SourceLine) (s : Hooking) : Except Error Unit × Hooking :=
  match Table.get? l s.hooks.lines with
  | none => (.ok (), s)
  | some handle =>
    match s.host.removeLine handle with
    | (.error e, host) => (.error e, { s with host })
    | (.ok (), host) =>
      (.ok (), { s with host, hooks := { s.hooks with lines := Table.erase l s.hooks.lines } })

/-- Removes the installed hook of a target, if there is one. If the host refuses, the hook stays. -/
def unhook (target : HookTarget) (s : Hooking) : Except Error Unit × Hooking :=
  match target with
  | .method m => s.unhookMethod m
  | .line l => s.unhookLine l

def dropMethod (s : Hooking) (e : MethodName × InstalledMethod) : Hooking :=
  match s.host.removeMethod e.2.handle with
  | (.ok (), host) => { s with host }
  | (.error error, host) => { s with host }.warn (.hookStays (.method e.1) error)

def dropLine (s : Hooking) (e : SourceLine × LineHandle) : Hooking :=
  match s.host.removeLine e.2 with
  | (.ok (), host) => { s with host }
  | (.error error, host) => { s with host }.warn (.hookStays (.line e.1) error)

/-- Disables and forgets all installed hooks; waiting ones are kept. -/
def clearHooks (s : Hooking) : Hooking :=
  let methods := s.hooks.methods
  let lines := s.hooks.lines
  let hooks := { s.hooks with
    slots := s.hooks.slots.map fun e => (e.1, 0), methods := [], lines := [] }
  lines.foldl dropLine (methods.foldl dropMethod { s with hooks })

/-- Stops following definitions; what the host tells from now on is ignored. -/
def stopFollowing (s : Hooking) : Hooking :=
  let host := match s.hooks.definitions with
    | some id => s.host.unsubscribeDefinitions id
    | none => s.host
  { s with host, hooks := s.hooks.markClosed }

def clearPending (s : Hooking) : Hooking := { s with hooks := s.hooks.clearAllPending }

def close (s : Hooking) : Hooking := s.stopFollowing.clearHooks.clearPending

end Hooking
end LiveProbe
