import LiveProbe.Settings.Basic
import LiveProbe.Text.Front
import LiveProbe.Yaml.Node

/-!
Settings documents. Keys that are missing take their default, unknown and repeated ones are
refused. A text is any scalar; truth values and numbers have to be plain, and are not converted
into each other.
-/
namespace LiveProbe.Settings

open Yaml (Node)

def readText? : Node → Option String
  | .scalar text _ => some text
  | _ => none

def plainText? : Node → Option String
  | .scalar text true => some text
  | _ => none

def readBool? (n : Node) : Option Bool := do
  let text ← plainText? n
  if ["true", "True", "TRUE"].contains text then some true
  else if ["false", "False", "FALSE"].contains text then some false
  else none

def inBase? (base : Nat) (ds : List Char) : Option Nat :=
  if ds.isEmpty then none
  else ds.foldlM (fun n d => do
    let v ← Json.hexValue? d
    if v < base then some (n * base + v) else none) 0

def bases : List (List Char × Nat) := [(['0', 'x'], 16), (['0', 'o'], 8), (['0', 'b'], 2)]

def marked? (text : List Char) : Option Nat :=
  bases.findSome? fun (start, base) => Text.after? start text >>= inBase? base

def decimal? (text : List Char) : Option Nat :=
  if text.length > 1 && text.head? == some '0' then none else inBase? 10 text

def unsigned? (text : List Char) : Option Nat :=
  match text with
  | '+' :: rest => (marked? rest).orElse fun _ => decimal? rest
  | _ => (marked? text).orElse fun _ => decimal? text

def signed? (text : List Char) : Option Int :=
  match text with
  | '-' :: rest => (unsigned? rest).bind fun n =>
    if rest.head? == some '+' then none else some (-n)
  | _ => (unsigned? text).map fun n => (n : Int)

def readNat? (limit : Nat) (n : Node) : Option Nat := do
  let text ← plainText? n
  (unsigned? text.toList).filter (· < limit)

def readUInt64? (n : Node) : Option UInt64 := (readNat? UInt64.size n).map (·.toUInt64)

def readUInt16? (n : Node) : Option UInt16 := (readNat? UInt16.size n).map (·.toUInt16)

def readInt32? (n : Node) : Option Int32 := do
  let text ← plainText? n
  let i ← signed? text.toList
  if Int32.minValue.toInt ≤ i ∧ i ≤ Int32.maxValue.toInt then some (.ofInt i) else none

def readTexts? : Node → Option (List String)
  | .sequence items => items.mapM readText?
  | .scalar "" true => some []
  | _ => none

def record? (names : List String) : Node → Option (List (Option Node))
  | .mapping entries => do
    let entries ← entries.mapM fun (k, v) => do
      let k ← readText? k
      if names.contains k then some (k, v) else none
    if (Table.keys entries).eraseDups.length = entries.length then
      return names.map fun n => Table.get? n entries
    else none
  | .scalar "" true => some (names.map fun _ => none)
  | _ => none

def valueOr {α : Type} (default : α) (read : Node → Option α) : Option Node → Option α
  | none => some default
  | some n => read n

def readAgent? (n : Node) : Option AgentSettings := do
  let base : AgentSettings := {}
  let [host, port, timeout, ssl] ← record? ["host", "port", "timeout_seconds", "ssl"] n | none
  return {
    host := ← valueOr base.host readText? host
    port := ← valueOr base.port readUInt16? port
    timeoutSeconds := ← valueOr base.timeoutSeconds readUInt64? timeout
    ssl := ← valueOr base.ssl readBool? ssl }

def readDelivery? (n : Node) : Option DeliverySettings := do
  let base : DeliverySettings := {}
  let [capacity, interval, timeout] ←
    record? ["queue_capacity", "idle_interval_ms", "stop_timeout_ms"] n | none
  return {
    queueCapacity := ← valueOr base.queueCapacity readUInt64? capacity
    idleIntervalMs := ← valueOr base.idleIntervalMs readUInt64? interval
    stopTimeoutMs := ← valueOr base.stopTimeoutMs readUInt64? timeout }

def ofNode? (base : Settings) (n : Node) : Option Settings := do
  let [enabled, untargeted, propagate, redactedNames, redactedTypes, depth, collection, text, field,
      service, agent, delivery] ←
    record? ["enabled", "untargeted_trace_points", "propagate_all_exceptions",
      "redacted_identifiers", "redacted_type_names", "max_capture_depth",
      "max_capture_collection_size", "max_capture_string_length", "max_capture_attribute_count",
      "service", "agent", "delivery"] n | none
  return {
    enabled := ← valueOr base.enabled readBool? enabled
    untargetedTracing := ← valueOr base.untargetedTracing readBool? untargeted
    propagate := ← valueOr base.propagate readBool? propagate
    redactedNames := ← valueOr base.redactedNames readTexts? redactedNames
    redactedTypes := ← valueOr base.redactedTypes readTexts? redactedTypes
    maxDepth := ← valueOr base.maxDepth readInt32? depth
    maxCollectionSize := ← valueOr base.maxCollectionSize readUInt64? collection
    maxTextLength := ← valueOr base.maxTextLength readUInt64? text
    maxFieldCount := ← valueOr base.maxFieldCount readUInt64? field
    service := ← valueOr base.service readText? service
    agent := ← valueOr base.agent readAgent? agent
    delivery := ← valueOr base.delivery readDelivery? delivery }

def ofText (service : String) (text : String) : Except SettingsError Settings :=
  match Node.ofText? text >>= ofNode? { service } with
  | some s => s.validate
  | none => .error .unreadable

end LiveProbe.Settings
