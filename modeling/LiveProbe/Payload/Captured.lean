import LiveProbe.Json.Compact
import LiveProbe.Json.Decode

/-!
Captured values as they are sent: a node says what kind of value it stands for, holds a scalar or
further nodes, and tells why a part of the value is missing.
-/
namespace LiveProbe

inductive Omission where
  | redactedType
  | redactedName
  | collectionSize
  | fieldCount
  | depth
  | length
  deriving DecidableEq, Repr

structure CapturedValue where
  typeName : String
  value : Option Json := none
  isNull : Option Bool := none
  elements : Option (List CapturedValue) := none
  entries : Option (List (CapturedValue × CapturedValue)) := none
  fields : Option (List (String × CapturedValue)) := none
  omission : Option Omission := none
  size : Option UInt64 := none

abbrev CapturedVars := List (String × CapturedValue)

structure CaptureScope where
  arguments : Option CapturedVars := none
  locals : Option CapturedVars := none
  throwable : Option Json := none

/-- The scopes of lines are kept in the order of the lines. -/
structure Captures where
  entry : Option CaptureScope := none
  exit : Option CaptureScope := none
  lines : Option (List (UInt32 × CaptureScope)) := none

namespace Omission

def words : List (String × Omission) :=
  [("redactedType", .redactedType), ("redactedIdent", .redactedName),
   ("collectionSize", .collectionSize), ("fieldCount", .fieldCount), ("depth", .depth),
   ("length", .length)]

def word : Omission → String
  | .redactedType => "redactedType"
  | .redactedName => "redactedIdent"
  | .collectionSize => "collectionSize"
  | .fieldCount => "fieldCount"
  | .depth => "depth"
  | .length => "length"

theorem get?_word (o : Omission) : Table.get? o.word words = some o := by cases o <;> decide

end Omission

def member? (name : String) (value : Option Json) : List (String × Json) :=
  match value with
  | none => []
  | some v => [(name, v)]

namespace CapturedValue

def scalar (typeName : String) (value : Json) : CapturedValue := { typeName, value := some value }

def null (typeName : String) : CapturedValue := { typeName, isNull := some true }

def omitted (typeName : String) (why : Omission) : CapturedValue :=
  { typeName, omission := some why }

mutual
def encode : CapturedValue → Json
  | ⟨typeName, value, isNull, elements, entries, fields, omission, size⟩ =>
    .object (("type", .string typeName) ::
      (member? "value" value ++
      (member? "isNull" (isNull.map .bool) ++
      ((match elements with
        | none => []
        | some es => [("elements", .array (encodeElements es))]) ++
      ((match entries with
        | none => []
        | some es => [("entries", .array (encodeEntries es))]) ++
      ((match fields with
        | none => []
        | some fs => [("fields", .object (encodeFields fs))]) ++
      (member? "notCapturedReason" (omission.map fun o => .string o.word) ++
      member? "size" (size.map fun n => .nat n.toNat))))))))
def encodeElements : List CapturedValue → List Json
  | [] => []
  | v :: rest => encode v :: encodeElements rest
def encodeEntries : List (CapturedValue × CapturedValue) → List Json
  | [] => []
  | (k, v) :: rest => .array [encode k, encode v] :: encodeEntries rest
def encodeFields : List (String × CapturedValue) → List (String × Json)
  | [] => []
  | (n, v) :: rest => (n, encode v) :: encodeFields rest
end

open Json Outline in
def node? (elements? : Outline → Option (List CapturedValue))
    (entries? : Outline → Option (List (CapturedValue × CapturedValue)))
    (fields? : Outline → Option (List (String × CapturedValue))) (levels : Nat) (o : Outline) :
    Option CapturedValue := do
  let [typeName, value, isNull, elements, entries, fields, omission, size] ←
    record? ["type", "value", "isNull", "elements", "entries", "fields", "notCapturedReason",
      "size"] (levels + 1) o | none
  return {
    typeName := ← required string? typeName
    value := ← optional (toJson? levels) value
    isNull := ← optional bool? isNull
    elements := ← optional elements? elements
    entries := ← optional entries? entries
    fields := ← optional fields? fields
    omission := ← optional (choice? Omission.words levels) omission
    size := ← optional uint64? size }

open Json Outline in
mutual
/-- A node is read from the levels left; its lists take one level more, and pairs a further one. -/
def decode? : Nat → Outline → Option CapturedValue
  | 0, _ => none
  | levels + 1, o =>
    node? (decodeElements? levels) (decodeEntries? levels) (decodeFields? levels) levels o
def decodeElements? : Nat → Outline → Option (List CapturedValue)
  | levels + 1, .array items => items.mapM (decode? levels)
  | _, _ => none
def decodeEntries? : Nat → Outline → Option (List (CapturedValue × CapturedValue))
  | levels + 1, .array items => items.mapM (decodePair? levels)
  | _, _ => none
def decodePair? : Nat → Outline → Option (CapturedValue × CapturedValue)
  | levels + 1, .array [k, v] => do return (← decode? levels k, ← decode? levels v)
  | _, _ => none
def decodeFields? : Nat → Outline → Option (List (String × CapturedValue))
  | levels + 1, .object members => members.mapM fun (n, v) => do
    return (← textOfBody? n, ← decode? levels v)
  | _, _ => none
end

end CapturedValue

namespace CapturedVars

def encode (vars : CapturedVars) : Json := .object (CapturedValue.encodeFields vars)

open Json Outline in
def decode? : Nat → Outline → Option CapturedVars := members? CapturedValue.decode?

end CapturedVars

namespace CaptureScope

def encode (s : CaptureScope) : Json :=
  .object (member? "arguments" (s.arguments.map CapturedVars.encode) ++
    member? "locals" (s.locals.map CapturedVars.encode) ++ member? "throwable" s.throwable)

open Json Outline in
def decode? (levels : Nat) (o : Outline) : Option CaptureScope := do
  let [arguments, locals, throwable] ← record? ["arguments", "locals", "throwable"] levels o | none
  let below := levels - 1
  return {
    arguments := ← optional (CapturedVars.decode? below) arguments
    locals := ← optional (CapturedVars.decode? below) locals
    throwable := ← optional (toJson? below) throwable }

end CaptureScope

namespace Captures

def encodeLines (lines : List (UInt32 × CaptureScope)) : Json :=
  .object (lines.map fun (n, scope) => (toString n.toNat, scope.encode))

def encode (c : Captures) : Json :=
  .object (member? "entry" (c.entry.map CaptureScope.encode) ++
    member? "return" (c.exit.map CaptureScope.encode) ++ member? "lines" (c.lines.map encodeLines))

/-- Keeps the lines ascending; a line given again replaces its former scope. -/
def insertLine {α : Type} (line : UInt32) (scope : α) : List (UInt32 × α) → List (UInt32 × α)
  | [] => [(line, scope)]
  | (n, s) :: rest =>
    if line < n then (line, scope) :: (n, s) :: rest
    else if line = n then (n, scope) :: rest
    else (n, s) :: insertLine line scope rest

open Json in
def lineOfBody? (body : List Char) : Option UInt32 := do
  match (← Numeral.ofText? body).value? with
  | some (.int n) => if 0 ≤ n ∧ n < UInt32.size then some n.toNat.toUInt32 else none
  | _ => none

open Json Outline in
def decodeLines? : Nat → Outline → Option (List (UInt32 × CaptureScope))
  | levels + 1, .object members => do
    let lines ← members.mapM fun (n, v) => do
      return (← lineOfBody? n, ← CaptureScope.decode? levels v)
    return lines.foldl (fun sorted l => insertLine l.1 l.2 sorted) []
  | _, _ => none

open Json Outline in
def decode? (levels : Nat) (o : Outline) : Option Captures := do
  let [entry, exit, lines] ← record? ["entry", "return", "lines"] levels o | none
  let below := levels - 1
  return {
    entry := ← optional (CaptureScope.decode? below) entry
    exit := ← optional (CaptureScope.decode? below) exit
    lines := ← optional (decodeLines? below) lines }

end Captures
end LiveProbe
