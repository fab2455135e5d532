import LiveProbe.Capture.Capturer

/-!
Settings of the engine. Counts of zero mean no bound; times are whole numbers of the unit in their
name.
-/
namespace LiveProbe

structure AgentSettings where
  host : String := "localhost"
  port : UInt16 := 8126
  timeoutSeconds : UInt64 := 30
  ssl : Bool := false
  deriving DecidableEq, Repr

structure DeliverySettings where
  queueCapacity : UInt64 := 1024
  idleIntervalMs : UInt64 := 250
  stopTimeoutMs : UInt64 := 1000
  deriving DecidableEq, Repr

structure Settings where
  enabled : Bool := false
  /-- Whether lines may be traced in all units when no unit is known. -/
  untargetedTracing : Bool := false
  propagate : Bool := false
  redactedNames : List String := []
  redactedTypes : List String := []
  maxDepth : Int32 := 2
  maxCollectionSize : UInt64 := 100
  maxTextLength : UInt64 := 255
  maxFieldCount : UInt64 := 20
  service : String
  agent : AgentSettings := {}
  delivery : DeliverySettings := {}
  deriving DecidableEq, Repr

inductive SettingsError where
  | unreadable
  | emptyQueue
  | emptyHost
  | notBoolean (name : String) (value : String)
  deriving DecidableEq, Repr

def SettingsError.message : SettingsError → String
  | .unreadable => "the document does not hold settings"
  | .emptyQueue => "delivery.queue_capacity must be greater than 0"
  | .emptyHost => "agent.host cannot be empty"
  | .notBoolean name value => "Invalid boolean value for " ++ name ++ ": " ++ value

namespace AgentSettings

def baseUrl (a : AgentSettings) : String :=
  (if a.ssl then "https" else "http") ++ "://" ++ a.host ++ ":" ++ toString a.port.toNat

def diagnosticsUrl (a : AgentSettings) : String := a.baseUrl ++ "/debugger/v1/diagnostics"

def inputUrl (a : AgentSettings) : String := a.baseUrl ++ "/debugger/v1/input"

def encode (a : AgentSettings) : Json :=
  .object [("host", .string a.host), ("port", .nat a.port.toNat),
    ("timeout_seconds", .nat a.timeoutSeconds.toNat), ("ssl", .bool a.ssl)]

end AgentSettings

def DeliverySettings.encode (d : DeliverySettings) : Json :=
  .object [("queue_capacity", .nat d.queueCapacity.toNat),
    ("idle_interval_ms", .nat d.idleIntervalMs.toNat),
    ("stop_timeout_ms", .nat d.stopTimeoutMs.toNat)]

namespace Settings

def encode (s : Settings) : Json :=
  .object [("enabled", .bool s.enabled), ("untargeted_trace_points", .bool s.untargetedTracing),
    ("propagate_all_exceptions", .bool s.propagate),
    ("redacted_identifiers", .array (s.redactedNames.map .string)),
    ("redacted_type_names", .array (s.redactedTypes.map .string)),
    ("max_capture_depth", .int s.maxDepth.toInt),
    ("max_capture_collection_size", .nat s.maxCollectionSize.toNat),
    ("max_capture_string_length", .nat s.maxTextLength.toNat),
    ("max_capture_attribute_count", .nat s.maxFieldCount.toNat),
    ("service", .string s.service), ("agent", s.agent.encode), ("delivery", s.delivery.encode)]

/-- Of two faults that of the queue is told. -/
def validate (s : Settings) : Except SettingsError Settings :=
  if s.delivery.queueCapacity = 0 then .error .emptyQueue
  else if s.agent.host = "" then .error .emptyHost
  else .ok s

def limits (s : Settings) : Limits where
  maxDepth := s.maxDepth
  maxCollectionSize := s.maxCollectionSize.toNat
  maxFieldCount := s.maxFieldCount.toNat
  maxTextLength := s.maxTextLength.toNat

def redactor (s : Settings) : Redactor := .ofNames s.redactedNames s.redactedTypes

def capturer (s : Settings) : Capturer := ⟨s.redactor, s.limits⟩

end Settings
end LiveProbe
