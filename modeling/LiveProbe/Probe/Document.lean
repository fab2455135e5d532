import LiveProbe.Json.Compact
import LiveProbe.Json.Decode
import LiveProbe.Probe.Basic
import LiveProbe.Text.Blank

/-!
Probe documents. A document names the probe and its kind; all else may be missing or null. A
method takes precedence over lines, and lines are given by numbers or by numerals.
-/
namespace LiveProbe

inductive DocumentStatus where
  | applied
  | errored (message : String)
  deriving DecidableEq, Repr

def DocumentStatus.display : DocumentStatus → String
  | .applied => "applied"
  | .errored message => "errored: " ++ message

namespace Probe

def malformed {α : Type} (detail : String) : Except Error α := .error (.malformedConfig detail)

def faulty {α : Type} (id : String) (fault : String) : Except Error α :=
  malformed ("probe " ++ id ++ ": " ++ fault)

def requiredText (document : Json) (name : String) : Except Error String :=
  match document.get? name with
  | some (.string s) => .ok s
  | _ => malformed ("missing or invalid '" ++ name ++ "'")

def optionalText (id : String) (place : Json) (name : String) : Except Error (Option String) :=
  match place.get? name with
  | some (.string s) => .ok (some s)
  | some .null => .ok none
  | none => .ok none
  | some _ => faulty id ("'" ++ name ++ "' is not a string")

def decimal? (s : List Char) : Option Nat :=
  if s ≠ [] ∧ s.all Char.isDigit then some (s.foldl (fun n c => n * 10 + (c.toNat - 48)) 0)
  else none

/-- A numeral may have blanks around it and a plus sign. -/
def lineOfText? (s : String) : Option Nat :=
  match Text.trim s.toList with
  | '+' :: ds => decimal? ds
  | ds => decimal? ds

def lineNumber (id : String) (line : Json) : Except Error UInt32 :=
  let number? : Option Nat := match line with
    | .number (.int n) => if 0 ≤ n then some n.toNat else none
    | .string s => lineOfText? s
    | _ => none
  match number?.filter (· < UInt32.size) with
  | some n => .ok n.toUInt32
  | none => faulty id ("invalid line number " ++ line.compact)

def isNull : Json → Bool
  | .null => true
  | _ => false

def lineNumbers (id : String) (place : Json) : Except Error (List UInt32) :=
  match place.get? "lines" with
  | some (.array lines) => (lines.filter fun l => !isNull l).mapM (lineNumber id)
  | some .null => .ok []
  | none => .ok []
  | some _ => faulty id "'lines' is not an array"

def locationOf (id : String) (place : Json) : Except Error ProbeLocation := do
  let typeName ← optionalText id place "typeName"
  let name ← optionalText id place "methodName"
  match typeName, name with
  | some typeName, some name => return .method ⟨typeName, name⟩
  | _, _ =>
    let lines ← lineNumbers id place
    match ← optionalText id place "sourceFile" with
    | some file => return .lines file lines
    | none =>
      if lines.isEmpty then return .unknown
      else faulty id "lines given without a source file"

def whereOf (id : String) (document : Json) : Except Error ProbeLocation :=
  match document.get? "where" with
  | none => .ok .unknown
  | some .null => .ok .unknown
  | some (.object members) => locationOf id (.object members)
  | some _ => faulty id "'where' is not an object"

def capturingOf (id : String) (document : Json) : Except Error Bool :=
  match document.get? "captureSnapshot" with
  | some (.bool b) => .ok b
  | none => .ok false
  | some .null => .ok false
  | some _ => faulty id "'captureSnapshot' is not a boolean"

/-- The probe of a document; the first fault is told, in the order of the parts below. -/
def ofDocument (document : Json) : Except Error Probe := do
  let id ← requiredText document "id"
  let kind ← requiredText document "type"
  let location ← whereOf id document
  let template ← optionalText id document "template"
  let capturing ← capturingOf id document
  return { id, kind, location, template, capturing }

def readDocument (bytes : ByteArray) : Except Error Json :=
  match String.fromUTF8? bytes with
  | none => malformed "invalid JSON document"
  | some text =>
    match Json.Outline.ofText? text >>= Json.Outline.toJson? Json.Outline.levelLimit with
    | some document => .ok document
    | none => malformed "invalid JSON document"

end Probe
end LiveProbe
