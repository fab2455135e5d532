import LiveProbe.Error
import LiveProbe.Hook.Target
import LiveProbe.Text.Quoted

/-!
Probes as they are defined: where they are, what they tell, and whether they capture values. Only
a probe on a method or on a single line can be hooked.
-/
namespace LiveProbe

inductive ProbeLocation where
  | lines (file : String) (lines : List UInt32)
  | method (m : MethodName)
  | unknown
  deriving DecidableEq, Repr

structure Probe where
  id : String
  kind : String
  location : ProbeLocation
  template : Option String := none
  capturing : Bool := false
  deriving DecidableEq, Repr

namespace Probe

def isLine (p : Probe) : Bool :=
  match p.location with
  | .lines _ (_ :: _) => true
  | _ => false

def isMethod (p : Probe) : Bool :=
  match p.location with
  | .method _ => true
  | _ => false

def file? (p : Probe) : Option String :=
  match p.location with
  | .lines file _ => some file
  | _ => none

def lines? (p : Probe) : Option (List UInt32) :=
  match p.location with
  | .lines _ lines => some lines
  | _ => none

def method? (p : Probe) : Option MethodName :=
  match p.location with
  | .method m => some m
  | _ => none

def line (p : Probe) : Except Error UInt32 :=
  match p.location with
  | .lines _ [n] => .ok n
  | _ => .error (.multipleLines p.id)

def place (p : Probe) : Except Error String :=
  match p.location with
  | .method m => .ok m.display
  | .lines file [n] => .ok (file ++ ":" ++ toString n.toNat)
  | .lines _ (_ :: _) => .error (.multipleLines p.id)
  | _ => .error (.unknownProbeType ("probe " ++ p.id ++ " is neither a method nor a line probe"))

def fileMatches (p : Probe) (path : String) : Bool :=
  match p.file? with
  | some file => Text.basename file == Text.basename path
  | none => false

/-- What has to be hooked for the probe, if anything. -/
def target (p : Probe) : Except Error (Option HookTarget) :=
  match p.location with
  | .method m => .ok (some (.method m))
  | .lines file [n] => .ok (some (.lineOf file n))
  | .lines _ (_ :: _) => .error (.multipleLines p.id)
  | _ => .ok none

def isAt (p : Probe) (target : HookTarget) : Bool :=
  match p.target with
  | .ok (some t) => t = target
  | _ => false

def inspectLines (lines : List UInt32) : String :=
  "[" ++ ", ".intercalate (lines.map fun n => toString n.toNat) ++ "]"

end Probe

namespace ProbeLocation

def inspect : ProbeLocation → String
  | .lines file numbers =>
    "Line \x7b file: " ++ Text.quoted file ++ ", lines: " ++ Probe.inspectLines numbers ++ " \x7d"
  | .method m =>
    "Method \x7b type_name: " ++ Text.quoted m.typeName ++ ", method_name: " ++
      Text.quoted m.name ++ " \x7d"
  | .unknown => "Unknown"

end ProbeLocation

namespace Probe

def inspect (p : Probe) : String :=
  "Probe \x7b id: " ++ Text.quoted p.id ++ ", type: " ++ Text.quoted p.kind ++ ", location: " ++
    p.location.inspect ++ ", capture_snapshot: " ++ toString p.capturing ++ " \x7d"

theorem target_eq_method_iff {p : Probe} {m : MethodName} :
    p.target = .ok (some (.method m)) ↔ p.location = .method m := by
  unfold target
  split <;> simp_all [HookTarget.lineOf]

end Probe
end LiveProbe
