import LiveProbe.Payload.Captured

/-! The envelope that reports a step in the life of a probe. -/
namespace LiveProbe

inductive ProbeStatus where
  | received
  | installed
  | emitting
  deriving DecidableEq, Repr

structure StatusEnvelope where
  service : String
  timestamp : UInt64
  message : String
  source : String
  probeId : String
  probeVersion : UInt32
  runtimeId : String
  parentId : Option String := none
  status : ProbeStatus

namespace ProbeStatus

def words : List (String × ProbeStatus) :=
  [("RECEIVED", .received), ("INSTALLED", .installed), ("EMITTING", .emitting)]

def word : ProbeStatus → String
  | .received => "RECEIVED"
  | .installed => "INSTALLED"
  | .emitting => "EMITTING"

theorem get?_word (s : ProbeStatus) : Table.get? s.word words = some s := by cases s <;> decide

end ProbeStatus

def orNull (value : Option Json) : Json := value.getD .null

namespace StatusEnvelope

def encode (e : StatusEnvelope) : Json :=
  let diagnostics := .object [("probeId", .string e.probeId),
    ("probeVersion", .nat e.probeVersion.toNat), ("runtimeId", .string e.runtimeId),
    ("parentId", orNull (e.parentId.map .string)), ("status", .string e.status.word)]
  .object [("service", .string e.service), ("timestamp", .nat e.timestamp.toNat),
    ("message", .string e.message), ("ddsource", .string e.source),
    ("debugger", .object [("diagnostics", diagnostics)])]

open Json Outline in
def decode? (levels : Nat) (o : Outline) : Option StatusEnvelope := do
  let [service, timestamp, message, source, debugger] ←
    record? ["service", "timestamp", "message", "ddsource", "debugger"] levels o | none
  let [diagnostics] ← record? ["diagnostics"] (levels - 1) (← debugger) | none
  let [id, version, runtimeId, parentId, status] ←
    record? ["probeId", "probeVersion", "runtimeId", "parentId", "status"] (levels - 2)
      (← diagnostics) | none
  return {
    service := ← required string? service
    timestamp := ← required uint64? timestamp
    message := ← required string? message
    source := ← required string? source
    probeId := ← required string? id
    probeVersion := ← required uint32? version
    runtimeId := ← required string? runtimeId
    parentId := ← optional string? parentId
    status := ← required (choice? ProbeStatus.words (levels - 3)) status }

end StatusEnvelope
end LiveProbe
