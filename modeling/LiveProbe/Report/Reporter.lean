import LiveProbe.Capture.Capturer
import LiveProbe.Payload.Snapshot
import LiveProbe.Probe.Basic
import LiveProbe.Report.Execution
import LiveProbe.Settings.Basic
import LiveProbe.Text.Template

/-!
Reports: the envelopes that tell of the steps in a probe's life and of its executions.
-/
namespace LiveProbe

structure Origin where
  runtimeId : String
  snapshotId : String
  threadId : String
  threadName : Option String := none
  timestamp : UInt64 := 0
  /-- What the limiter of a probe, by its serial number, reads each time that it is asked. -/
  clock : Nat → Nat → Nat := fun _ _ => 0

structure Reporter where
  service : String
  capturer : Capturer
  origin : Origin

namespace Reporter

def source : String := "dd_debugger"

def language : String := "rust"

def loggerVersion : UInt32 := 2

def probeVersion : UInt32 := 0

def statusMessage (p : Probe) : ProbeStatus → String
  | .received => "Probe " ++ p.id ++ " has been received correctly"
  | .installed => "Probe " ++ p.id ++ " has been instrumented correctly"
  | .emitting => "Probe " ++ p.id ++ " is emitting"

def status (r : Reporter) (p : Probe) (status : ProbeStatus) : StatusEnvelope where
  service := r.service
  timestamp := r.origin.timestamp
  message := statusMessage p status
  source := source
  probeId := p.id
  probeVersion := probeVersion
  runtimeId := r.origin.runtimeId
  status := status

def returnName : String := "@return"

/-- The arguments are captured once, when the call has returned, and stand for both its ends. -/
def methodCaptures (r : Reporter) (heap : Heap) (hit : MethodHit) : Captures :=
  let arguments := r.capturer.captureArgs heap hit.args.positional hit.args.named
  let locals := r.capturer.captureVars heap [(returnName, hit.returned)]
  { entry := some { arguments := some arguments }
    exit := some { arguments := some arguments, locals := some locals } }

def lineCaptures (r : Reporter) (heap : Heap) (hit : LineHit) : Captures :=
  { lines := some [(hit.line, { locals := some (r.capturer.captureVars heap hit.locals) })] }

def captures (r : Reporter) (heap : Heap) : Execution → Captures
  | .method hit => r.methodCaptures heap hit
  | .line hit => r.lineCaptures heap hit

def durationMark : String := "\x7b@duration\x7d"

/-- A template's mark is left as it is where no time is known. -/
def message (template : Option String) (elapsed : Option Elapsed) : String :=
  match template, elapsed with
  | none, _ => ""
  | some text, none => text
  | some text, some e => Text.fill durationMark e.shown text

def elapsed? : Execution → Option Elapsed
  | .method hit => some hit.elapsed
  | .line _ => none

def stackOf : Execution → List StackFrame
  | .method hit => hit.stack
  | .line hit => hit.stack

def snapshotLocation (p : Probe) : SnapshotLocation where
  file := p.file?
  lines := p.lines?
  method := p.method?.map (·.name)
  typeName := p.method?.map (·.typeName)

def snapshot (r : Reporter) (heap : Heap) (p : Probe) (execution : Execution) :
    SnapshotEnvelope where
  service := r.service
  snapshot := {
    id := r.origin.snapshotId
    timestamp := r.origin.timestamp
    evaluationErrors := []
    probe := { id := p.id, version := probeVersion, location := snapshotLocation p }
    language := language
    stack := stackOf execution
    captures := if p.capturing then some (r.captures heap execution) else none }
  duration := (elapsed? execution).map (·.nanos)
  logger := {
    name := p.file?.orElse fun _ => p.method?.map (·.typeName)
    method := p.method?.map (·.name)
    threadName := r.origin.threadName
    threadId := r.origin.threadId
    version := loggerVersion }
  source := source
  message := message p.template (elapsed? execution)
  timestamp := r.origin.timestamp

end Reporter

namespace Settings

def reporter (s : Settings) (origin : Origin) : Reporter := ⟨s.service, s.capturer, origin⟩

end Settings
end LiveProbe
