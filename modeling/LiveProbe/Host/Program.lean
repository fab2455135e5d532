import LiveProbe.Capture.Literal
import LiveProbe.Hook.Target
import LiveProbe.Json.Basic

/-!
Code of the host: the bodies of methods and what hooks run. A body is a program or wraps another
body, so that hooks of several managers can lie on one another.
-/
namespace LiveProbe

inductive Instruction where
  | ret (value : Literal)
  | arg (n : Nat)
  | named (name : String)
  | double (n : Nat)
  | set (n : Nat) (field : String) (value : Literal)
  | call (method : MethodName) (args : List Literal) (named : List (String × Literal))
  /-- Calls with the first argument less one, as long as it is an integer above zero. -/
  | recurse (method : MethodName)
  | line (path : String) (line : UInt32) (locals : List (String × Literal))
  | load (path : String) (lines : List UInt32)
  | define (typeName : String) (methods : List (String × List Instruction))
  | process (engine : Nat) (documents : List Json)
  | panic (text : String)

abbrev Code := List Instruction

inductive Callback where
  | record (label : String)
  | probes (engine : Nat) (group : Nat)
  | script (code : Code)

inductive Body where
  | program (code : Code)
  /-- The callback runs after the saved body if the installation is still the current one. -/
  | hooked (manager : Nat) (method : MethodName) (installation : Nat) (callback : Callback)
    (saved : Body)
  | wrapped (serial : Nat) (label : String) (saved : Body)
  | replaced (serial : Nat) (label : String)

/-- What tells one body from all others, for bodies that are set in place of others. -/
inductive BodyKey where
  | hook (manager : Nat) (installation : Nat)
  | interceptor (serial : Nat)
  deriving DecidableEq, Repr

def Body.key? : Body → Option BodyKey
  | .program _ => none
  | .hooked manager _ installation _ _ => some (.hook manager installation)
  | .wrapped serial _ _ => some (.interceptor serial)
  | .replaced serial _ => some (.interceptor serial)

end LiveProbe
