import LiveProbe.Capture.Value

/-!
Written values. A literal says how to build a value: its objects are new each time it is built,
and an object with a mark can be named again, also within its own fields.
-/
namespace LiveProbe

inductive Literal where
  | nil
  | bool (b : Bool)
  | integer (n : Int64)
  | float (bits : UInt64)
  | string (s : String)
  | symbol (s : String)
  | array (items : List Literal)
  | map (entries : List (Literal × Literal))
  | object (typeName : String) (fields : List (String × Literal)) (mark : Option Int)
  | marked (mark : Int)

abbrev Marks := List (Int × (String × Nat))

structure Workshop where
  heap : Heap
  marks : Marks := []

namespace Literal

instance : Inhabited Literal := ⟨.nil⟩

mutual
def build : Literal → StateM Workshop Value
  | .nil => return .nil
  | .bool b => return .bool b
  | .integer n => return .integer n
  | .float bits => return .float bits
  | .string s => return .string s
  | .symbol s => return .symbol s
  | .array items => return .array (← buildItems items)
  | .map entries => return .map (← buildEntries entries)
  | .object typeName fields mark => fun w =>
    let (ref, heap) := w.heap.alloc
    let marks := match mark with
      | some m => Table.insert m (typeName, ref) w.marks
      | none => w.marks
    let ((), w) := buildFields ref fields ⟨heap, marks⟩
    (.object typeName ref, w)
  | .marked mark => fun w => (match Table.get? mark w.marks with
    | some (typeName, ref) => .object typeName ref
    | none => .nil, w)
def buildItems : List Literal → StateM Workshop (List Value)
  | [] => return []
  | l :: rest => do
    let v ← build l
    return v :: (← buildItems rest)
def buildEntries : List (Literal × Literal) → StateM Workshop (List (Value × Value))
  | [] => return []
  | (k, v) :: rest => do
    let k ← build k
    let v ← build v
    return (k, v) :: (← buildEntries rest)
def buildFields (ref : Nat) : List (String × Literal) → StateM Workshop Unit
  | [] => return ()
  | (name, l) :: rest => do
    let v ← build l
    modify fun w => { w with heap := w.heap.set ref name v }
    buildFields ref rest
end

def buildVars (vars : List (String × Literal)) : StateM Workshop Vars :=
  vars.mapM fun (name, l) => return (name, ← build l)

end Literal
end LiveProbe
