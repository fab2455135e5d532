import LiveProbe.Capture.Value
import LiveProbe.Decimal.Places
import LiveProbe.Payload.Frame

/-! What is seen of the host when a hook fires. -/
namespace LiveProbe

structure CallArgs where
  positional : List Value := []
  named : Vars := []

structure Elapsed where
  nanos : UInt64
  shown : String

namespace Elapsed

/-- The greatest number of nanoseconds stands for all longer times. The time is shown in
milliseconds, as computed in floating point from its seconds. -/
def ofParts (seconds : UInt64) (nanos : UInt32) : Elapsed where
  nanos := (min (seconds.toNat * 1000000000 + nanos.toNat) (UInt64.size - 1)).toUInt64
  shown :=
    let inSeconds := seconds.toFloat + nanos.toFloat / 1000000000
    Decimal.fixed 2 (inSeconds * 1000).toBits

end Elapsed

structure MethodHit where
  args : CallArgs
  returned : Value
  elapsed : Elapsed
  stack : List StackFrame

structure LineHit where
  path : String
  line : UInt32
  locals : Vars
  stack : List StackFrame

inductive Execution where
  | method (hit : MethodHit)
  | line (hit : LineHit)

end LiveProbe
