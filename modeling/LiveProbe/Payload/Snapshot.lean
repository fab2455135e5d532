import LiveProbe.Payload.Frame
import LiveProbe.Payload.Status

/-! The envelope that is sent each time a probe fires. -/
namespace LiveProbe

structure SnapshotLocation where
  file : Option String := none
  lines : Option (List UInt32) := none
  method : Option String := none
  typeName : Option String := none
  deriving DecidableEq, Repr

structure SnapshotProbe where
  id : String
  version : UInt32
  location : SnapshotLocation

structure Snapshot where
  id : String
  timestamp : UInt64
  evaluationErrors : List Json
  probe : SnapshotProbe
  language : String
  stack : List StackFrame
  captures : Option Captures

structure SnapshotLogger where
  name : Option String := none
  method : Option String := none
  threadName : Option String := none
  threadId : String
  version : UInt32

structure SnapshotEnvelope where
  service : String
  snapshot : Snapshot
  duration : Option UInt64 := none
  host : Option String := none
  logger : SnapshotLogger
  source : String
  message : String
  timestamp : UInt64

namespace SnapshotLocation

def encode (l : SnapshotLocation) : Json :=
  .object (member? "file" (l.file.map .string) ++
    (member? "lines" (l.lines.map fun ns => .array (ns.map fun n => .nat n.toNat)) ++
    (member? "method" (l.method.map .string) ++ member? "type" (l.typeName.map .string))))

open Json Outline in
def decode? (levels : Nat) (o : Outline) : Option SnapshotLocation := do
  let [file, lines, method, typeName] ← record? ["file", "lines", "method", "type"] levels o | none
  return {
    file := ← optional string? file
    lines := ← optional (items? (fun _ => uint32?) (levels - 1)) lines
    method := ← optional string? method
    typeName := ← optional string? typeName }

end SnapshotLocation

namespace SnapshotProbe

def encode (p : SnapshotProbe) : Json :=
  .object [("id", .string p.id), ("version", .nat p.version.toNat), ("location", p.location.encode)]

open Json Outline in
def decode? (levels : Nat) (o : Outline) : Option SnapshotProbe := do
  let [id, version, location] ← record? ["id", "version", "location"] levels o | none
  return {
    id := ← required string? id
    version := ← required uint32? version
    location := ← required (SnapshotLocation.decode? (levels - 1)) location }

end SnapshotProbe

namespace Snapshot

def encode (s : Snapshot) : Json :=
  .object [("id", .string s.id), ("timestamp", .nat s.timestamp.toNat),
    ("evaluationErrors", .array s.evaluationErrors), ("probe", s.probe.encode),
    ("language", .string s.language), ("stack", .array (s.stack.map StackFrame.encode)),
    ("captures", orNull (s.captures.map Captures.encode))]

open Json Outline in
def decode? (levels : Nat) (o : Outline) : Option Snapshot := do
  let [id, timestamp, errors, probe, language, stack, captures] ←
    record? ["id", "timestamp", "evaluationErrors", "probe", "language", "stack", "captures"]
      levels o | none
  let below := levels - 1
  return {
    id := ← required string? id
    timestamp := ← required uint64? timestamp
    evaluationErrors := ← required (items? toJson? below) errors
    probe := ← required (SnapshotProbe.decode? below) probe
    language := ← required string? language
    stack := ← required (items? StackFrame.decode? below) stack
    captures := ← optional (Captures.decode? below) captures }

end Snapshot

namespace SnapshotLogger

def encode (l : SnapshotLogger) : Json :=
  .object (member? "name" (l.name.map .string) ++
    (member? "method" (l.method.map .string) ++
    (member? "thread_name" (l.threadName.map .string) ++
    [("thread_id", .string l.threadId), ("version", .nat l.version.toNat)])))

open Json Outline in
def decode? (levels : Nat) (o : Outline) : Option SnapshotLogger := do
  let [name, method, threadName, threadId, version] ←
    record? ["name", "method", "thread_name", "thread_id", "version"] levels o | none
  return {
    name := ← optional string? name
    method := ← optional string? method
    threadName := ← optional string? threadName
    threadId := ← required string? threadId
    version := ← required uint32? version }

end SnapshotLogger

namespace SnapshotEnvelope

def probeId (e : SnapshotEnvelope) : String := e.snapshot.probe.id

def encode (e : SnapshotEnvelope) : Json :=
  .object ([("service", .string e.service), ("debugger.snapshot", e.snapshot.encode)] ++
    (member? "duration" (e.duration.map fun n => .nat n.toNat) ++
    (member? "host" (e.host.map .string) ++
    [("logger", e.logger.encode), ("ddsource", .string e.source), ("message", .string e.message),
      ("timestamp", .nat e.timestamp.toNat)])))

open Json Outline in
def decode? (levels : Nat) (o : Outline) : Option SnapshotEnvelope := do
  let [service, snapshot, duration, host, logger, source, message, timestamp] ←
    record? ["service", "debugger.snapshot", "duration", "host", "logger", "ddsource", "message",
      "timestamp"] levels o | none
  let below := levels - 1
  return {
    service := ← required string? service
    snapshot := ← required (Snapshot.decode? below) snapshot
    duration := ← optional uint64? duration
    host := ← optional string? host
    logger := ← required (SnapshotLogger.decode? below) logger
    source := ← required string? source
    message := ← required string? message
    timestamp := ← required uint64? timestamp }

end SnapshotEnvelope
end LiveProbe
