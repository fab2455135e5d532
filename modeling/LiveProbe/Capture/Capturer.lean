import LiveProbe.Capture.Redactor
import LiveProbe.Payload.Captured

/-!
Capturing values. Containers are followed down to a depth, collections, fields and texts are cut
at a size, and redacted values are left out; whatever is missing is said to be missing. A value is
captured whatever the heap looks like, because each container takes one of the levels left.
-/
namespace LiveProbe

/-- Bounds of what is captured; a count of zero is no bound. -/
structure Limits where
  maxDepth : Int32 := 2
  maxCollectionSize : Nat := 100
  maxFieldCount : Nat := 20
  maxTextLength : Nat := 255

structure Capturer where
  redactor : Redactor
  limits : Limits

def bounded {α : Type} (max : Nat) (items : List α) : List α :=
  if max = 0 then items else items.take max

def exceeds {α : Type} (max : Nat) (items : List α) : Bool := max ≠ 0 && items.length > max

def levelsOf (depth : Int32) : Nat := (depth.toInt + 1).toNat

def nameOfKey : Value → Option String
  | .string s => some s
  | .symbol s => some s
  | _ => none

namespace Capturer

def captureText (c : Capturer) (typeName : String) (s : String) : CapturedValue :=
  let max := c.limits.maxTextLength
  if exceeds max s.toList then
    { CapturedValue.scalar typeName (.string (String.ofList (s.toList.take max))) with
      omission := some .length
      size := some s.toList.length.toUInt64 }
  else .scalar typeName (.string s)

def markCut {α : Type} (c : Capturer) (items : List α) (node : CapturedValue) : CapturedValue :=
  if exceeds c.limits.maxCollectionSize items then
    { node with omission := some .collectionSize, size := some items.length.toUInt64 }
  else node

def floatDocument (bits : UInt64) : Json :=
  if Decimal.isFinite bits then .number (.float bits)
  else .string (Decimal.Layout.plain.render bits)

/-- A value that is not redacted. The parts of a container are captured by `part`, if there is a
level left. -/
def expand (c : Capturer) (heap : Heap) (part : Option (Option String → Value → CapturedValue))
    (value : Value) : CapturedValue :=
  let typeName := value.typeName
  match value, part with
  | .nil, _ => .null typeName
  | .bool b, _ => .scalar typeName (.bool b)
  | .integer n, _ => .scalar typeName (.int n.toInt)
  | .float bits, _ => .scalar typeName (floatDocument bits)
  | .string s, _ => c.captureText typeName s
  | .symbol s, _ => c.captureText typeName s
  | .array _, none => .omitted typeName .depth
  | .map _, none => .omitted typeName .depth
  | .object _ _, none => .omitted typeName .depth
  | .array items, some part =>
    c.markCut items
      { typeName, elements := some ((bounded c.limits.maxCollectionSize items).map (part none)) }
  | .map entries, some part =>
    c.markCut entries
      { typeName
        entries := some ((bounded c.limits.maxCollectionSize entries).map fun (k, v) =>
          (part none k, part (nameOfKey k) v)) }
  | .object _ ref, some part =>
    let all := heap.fields ref
    { typeName
      fields := some (Table.insertAll [] ((bounded c.limits.maxFieldCount all).map fun (n, v) =>
        (n, part (some n) v)))
      omission := if exceeds c.limits.maxFieldCount all then some .fieldCount else none }

/-- Redaction comes before everything else, that of the type first. -/
def node (c : Capturer) (heap : Heap) (part : Option (Option String → Value → CapturedValue))
    (name : Option String) (value : Value) : CapturedValue :=
  if c.redactor.redactsType value then .omitted value.typeName .redactedType
  else if name.any c.redactor.redactsName then .omitted value.typeName .redactedName
  else c.expand heap part value

def captureLevels (c : Capturer) (heap : Heap) :
    Nat → Option String → Value → CapturedValue
  | 0 => c.node heap none
  | levels + 1 => c.node heap (some (c.captureLevels heap levels))

/-- Captures a value bound to a name, if any; containers are expanded while the depth is not
negative. -/
def capture (c : Capturer) (heap : Heap) (name : Option String) (value : Value) (depth : Int32) :
    CapturedValue :=
  c.captureLevels heap (levelsOf depth) name value

def captureVars (c : Capturer) (heap : Heap) (vars : Vars) : CapturedVars :=
  Table.insertAll [] (vars.map fun (name, value) =>
    (name, c.capture heap (some name) value c.limits.maxDepth))

def positionalVars (args : List Value) : Vars :=
  args.mapIdx fun i v => ("arg" ++ toString (i + 1), v)

def captureArgs (c : Capturer) (heap : Heap) (args : List Value) (named : Vars) : CapturedVars :=
  c.captureVars heap (positionalVars args ++ named)

end Capturer

theorem levelsOf_of_neg {depth : Int32} (h : depth.toInt < 0) : levelsOf depth = 0 := by
  unfold levelsOf; omega

theorem toInt_pred {depth : Int32} (h : 0 ≤ depth.toInt) : (depth - 1).toInt = depth.toInt - 1 := by
  have top := Int32.toInt_lt depth
  rw [Int32.toInt_sub, show (1 : Int32).toInt = 1 from rfl, Int.bmod_eq_of_le (by omega) (by omega)]

theorem levelsOf_pred {depth : Int32} (h : 0 ≤ depth.toInt) :
    levelsOf depth = levelsOf (depth - 1) + 1 := by
  unfold levelsOf
  rw [toInt_pred h]
  omega

namespace Capturer

theorem capture_of_neg (c : Capturer) (heap : Heap) {depth : Int32} (h : depth.toInt < 0)
    (name : Option String) (value : Value) :
    c.capture heap name value depth = c.node heap none name value := by
  simp [capture, levelsOf_of_neg h, captureLevels]

theorem capture_of_nonneg (c : Capturer) (heap : Heap) {depth : Int32} (h : 0 ≤ depth.toInt)
    (name : Option String) (value : Value) :
    c.capture heap name value depth =
      c.node heap (some fun n v => c.capture heap n v (depth - 1)) name value := by
  rw [capture, levelsOf_pred h]
  rfl

end Capturer
end LiveProbe
