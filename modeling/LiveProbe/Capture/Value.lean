import LiveProbe.Decimal.Layout
import LiveProbe.Table
import LiveProbe.Text.Quoted

/-!
Values of the host. Objects are shared and can change: a value holds a reference, and the fields
stand in a heap, so that objects can contain themselves.
-/
namespace LiveProbe

inductive Value where
  | nil
  | bool (b : Bool)
  | integer (n : Int64)
  | float (bits : UInt64)
  | string (s : String)
  | symbol (s : String)
  | array (items : List Value)
  | map (entries : List (Value × Value))
  | object (typeName : String) (ref : Nat)

abbrev Vars := List (String × Value)

structure Heap where
  objects : Array Vars := #[]

namespace Heap

def fields (h : Heap) (ref : Nat) : Vars := h.objects[ref]?.getD []

def alloc (h : Heap) : Nat × Heap := (h.objects.size, ⟨h.objects.push []⟩)

/-- Sets a field; a field that is there keeps its place. -/
def set (h : Heap) (ref : Nat) (name : String) (value : Value) : Heap :=
  ⟨h.objects.modify ref (Table.insert name value)⟩

def firstFields (h : Heap) (ref : Nat) (max : Nat) : Vars × Nat :=
  ((h.fields ref).take max, (h.fields ref).length)

theorem fields_alloc (h : Heap) : h.alloc.2.fields h.alloc.1 = [] := by
  simp [alloc, fields]

theorem fields_alloc_of_ne (h : Heap) {ref : Nat} (ne : ref ≠ h.alloc.1) :
    h.alloc.2.fields ref = h.fields ref := by
  simp only [alloc] at ne
  simp [alloc, fields, Array.getElem?_push, ne]

theorem fields_set (h : Heap) (ref : Nat) (name : String) (value : Value)
    (known : ref < h.objects.size) :
    (h.set ref name value).fields ref = Table.insert name value (h.fields ref) := by
  simp [set, fields, known, Array.getElem_modify]

theorem fields_set_of_ne (h : Heap) {ref other : Nat} (ne : other ≠ ref) (name : String)
    (value : Value) : (h.set ref name value).fields other = h.fields other := by
  simp [set, fields, Array.getElem?_modify, Ne.symm ne]

end Heap

namespace Value

instance : Inhabited Value := ⟨.nil⟩

def typeName : Value → String
  | .nil => "NilClass"
  | .bool true => "TrueClass"
  | .bool false => "FalseClass"
  | .integer _ => "Integer"
  | .float _ => "Float"
  | .string _ => "String"
  | .symbol _ => "Symbol"
  | .array _ => "Array"
  | .map _ => "Hash"
  | .object t _ => t

def isNil : Value → Bool
  | .nil => true
  | _ => false

def isObject : Value → Bool
  | .object _ _ => true
  | _ => false

def summary : Value → String
  | .nil => "nil"
  | .bool b => toString b
  | .integer n => toString n.toInt
  | .float bits => Decimal.Layout.plain.render bits
  | .string s => s
  | .symbol s => ":" ++ s
  | .array items => "[" ++ toString items.length ++ " elements]"
  | .map entries => "\x7b" ++ toString entries.length ++ " entries\x7d"
  | .object t _ => "#<" ++ t ++ ">"

mutual
def inspect : Value → String
  | .string s => Text.quoted s
  | .array items => "[" ++ inspectItems items ++ "]"
  | .map entries => "\x7b" ++ inspectEntries entries ++ "\x7d"
  | .nil => summary .nil
  | .bool b => summary (.bool b)
  | .integer n => summary (.integer n)
  | .float bits => summary (.float bits)
  | .symbol s => summary (.symbol s)
  | .object t ref => summary (.object t ref)
def inspectItems : List Value → String
  | [] => ""
  | [v] => inspect v
  | v :: rest => inspect v ++ ", " ++ inspectItems rest
def inspectEntries : List (Value × Value) → String
  | [] => ""
  | [(k, v)] => inspect k ++ ": " ++ inspect v
  | (k, v) :: rest => inspect k ++ ": " ++ inspect v ++ ", " ++ inspectEntries rest
end

end Value
end LiveProbe
