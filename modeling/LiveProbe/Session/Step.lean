import LiveProbe.World.Run

/-! What can be asked of a session, and what is answered. -/
namespace LiveProbe

inductive InterceptMode where
  | same
  | wrap
  | replace
  deriving DecidableEq, Repr

inductive UnitChoice where
  | everywhere
  | loaded (n : Nat)
  | made (unit : CompiledUnit)

inductive WatchKind where
  | definitions
  | compiles
  | registry
  deriving DecidableEq, Repr

inductive SessionStep where
  | define (typeName : String) (methods : List (String × Code))
  | isDefined (typeName : String)
  | load (path : String) (lines : List UInt32)
  | loadedUnits
  | call (m : MethodName) (args : List Literal) (named : List (String × Literal))
  | line (path : String) (line : UInt32) (locals : List (String × Literal))
  | refuse (what : Capability) (error : Option Error) (only : Option String)
  | poison (ids : List String)
  | interceptMethod (label : String) (m : MethodName) (mode : InterceptMode)
  | restoreMethod (label : String)
  | interceptLine (label : String) (unit : UnitChoice) (file : String) (line : UInt32)
  | restoreLine (label : String)
  | watch (label : String) (kind : WatchKind)
  | unsubscribe (label : String)
  | dropWatcher (label : String)
  | track
  | untrack
  | isTracking
  | register (path : String) (unit : CompiledUnit)
  | lookup (path : String) (lines : List UInt32)
  | subscribe
  | hook (label : String) (target : HookTarget)
  | hookWhenDefined (label : String) (target : HookTarget)
  | installPending (path : String)
  | unhook (target : HookTarget)
  | clearPending (target : HookTarget)
  | hookState (target : HookTarget)
  | clearHooks
  | closeHooks
  | process (documents : List Json)
  | addProbe (document : Json)
  | keepProbes (ids : List String)
  | probeState (id : String)
  | closeProbes
  | deliver
  | dropped
  | shutdown

inductive SessionAnswer where
  | nothing
  | truth (b : Bool)
  | number (n : Nat)
  | state (installed pending : Bool)
  | counts (statuses snapshots : Nat)
  | units (units : List CompiledUnit)
  | unit (found : Option (CompiledUnit × List Bool))
  | value (result : Except Error Value)
  | done (result : Except Error Unit)
  | whetherNow (result : Except Error Bool)
  | method (result : Except Error MethodName)
  | trace (result : Except Error LineHandle)
  | statuses (result : Except Error (List DocumentStatus))
  | fault (f : Fault)

end LiveProbe
