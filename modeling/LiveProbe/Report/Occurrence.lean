import LiveProbe.Code.Registry
import LiveProbe.Hook.Target
import LiveProbe.Payload.Snapshot
import LiveProbe.Payload.Status
import LiveProbe.Report.Execution

/-! What an observer of the host and the engine sees, in the order in which it happens. -/
namespace LiveProbe

inductive Notice where
  | status (e : StatusEnvelope)
  | snapshot (e : SnapshotEnvelope)

inductive Occurrence where
  | notice (n : Notice)
  | method (label : String) (hit : MethodHit)
  | line (label : String) (hit : LineHit)
  | intercepted (label : String) (stack : List StackFrame)
  | installed (target : HookTarget)
  | defined (label : String) (typeName : String)
  | compiled (label : String) (unit : CompiledUnit)

namespace Notice

def probeId : Notice → String
  | .status e => e.probeId
  | .snapshot e => e.probeId

end Notice
end LiveProbe
