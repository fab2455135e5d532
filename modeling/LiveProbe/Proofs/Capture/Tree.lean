import LiveProbe.Capture.Capturer
import LiveProbe.Proofs.Table

/-!
Captured values as trees. The capture of a container is made of captures of its parts, each with
one level less, so every node below a captured value is again the capture of some value, and how
many nodes hang on one is a matter of the limits alone.
-/
namespace LiveProbe

namespace CapturedValue

def children (t : CapturedValue) : List CapturedValue :=
  t.elements.getD [] ++ (t.entries.getD []).flatMap (fun e => [e.1, e.2]) ++
    (t.fields.getD []).map (·.2)

def isExpanded (t : CapturedValue) : Bool :=
  t.elements.isSome || t.entries.isSome || t.fields.isSome

theorem sizeOf_child {t u : CapturedValue} (child : u ∈ t.children) : sizeOf u < sizeOf t := by
  obtain ⟨typeName, value, isNull, elements, entries, fields, omission, size⟩ := t
  simp only [children, List.mem_append, List.mem_flatMap, List.mem_map] at child
  rcases child with (element | ⟨⟨k, v⟩, entry, one⟩) | ⟨⟨n, v⟩, field, rfl⟩
  · cases elements with
    | none => simp at element
    | some us =>
      have smaller := List.sizeOf_lt_of_mem (Option.getD_some ▸ element)
      simp only [mk.sizeOf_spec, Option.some.sizeOf_spec]
      omega
  · cases entries with
    | none => simp at entry
    | some es =>
      have smaller := List.sizeOf_lt_of_mem (Option.getD_some ▸ entry)
      simp only [Prod.mk.sizeOf_spec] at smaller
      simp only [mk.sizeOf_spec, Option.some.sizeOf_spec]
      simp only [List.mem_cons, List.not_mem_nil, or_false] at one
      rcases one with rfl | rfl <;> omega
  · cases fields with
    | none => simp at field
    | some fs =>
      have smaller := List.sizeOf_lt_of_mem (Option.getD_some ▸ field)
      simp only [Prod.mk.sizeOf_spec] at smaller
      simp only [mk.sizeOf_spec, Option.some.sizeOf_spec]
      omega

/-- All nodes of a tree, a node before those below it. -/
def nodes (t : CapturedValue) : List CapturedValue :=
  t :: t.children.attach.flatMap fun u => nodes u.1
termination_by t
decreasing_by exact sizeOf_child u.2

theorem nodes_eq (t : CapturedValue) : t.nodes = t :: t.children.flatMap nodes := by
  rw [nodes, List.flatMap_subtype (g := nodes) (fun _ _ => rfl), List.unattach_attach]

def Path : CapturedValue → List CapturedValue → Prop
  | _, [] => True
  | t, u :: rest => u ∈ t.children ∧ u.Path rest

end CapturedValue

namespace Value

def isContainer : Value → Bool
  | .array _ => true
  | .map _ => true
  | .object _ _ => true
  | _ => false

end Value

namespace Capturer

variable {c : Capturer} {heap : Heap} {name : Option String} {value : Value} {u : CapturedValue}
  {part part' : Option String → Value → CapturedValue} {levels : Nat}

def parts (c : Capturer) (heap : Heap) : Value → List (Option String × Value)
  | .array items => (bounded c.limits.maxCollectionSize items).map fun v => (none, v)
  | .map entries =>
    (bounded c.limits.maxCollectionSize entries).flatMap fun (k, v) =>
      [(none, k), (nameOfKey k, v)]
  | .object _ ref =>
    (bounded c.limits.maxFieldCount (heap.fields ref)).map fun (n, v) => (some n, v)
  | _ => []

/-- Withheld values are captured by their type only. -/
def withholds (c : Capturer) (name : Option String) (value : Value) : Bool :=
  c.redactor.redactsType value || name.any c.redactor.redactsName

theorem expand_of_scalar (scalar : value.isContainer = false) :
    c.expand heap (some part) value = c.expand heap none value := by
  cases value <;> first | rfl | contradiction

theorem children_expand_none (c : Capturer) (heap : Heap) (value : Value) :
    (c.expand heap none value).children = [] := by
  cases value with
  | string s | symbol s =>
    simp only [expand, captureText]
    split <;> rfl
  | _ => rfl

theorem isExpanded_expand_none (c : Capturer) (heap : Heap) (value : Value) :
    (c.expand heap none value).isExpanded = false := by
  cases value with
  | string s | symbol s =>
    simp only [expand, captureText]
    split <;> rfl
  | _ => rfl

theorem children_markCut {α : Type} (c : Capturer) (items : List α) (t : CapturedValue) :
    (c.markCut items t).children = t.children := by
  unfold markCut
  split <;> rfl

theorem typeName_expand (levelsLeft : Option (Option String → Value → CapturedValue)) :
    (c.expand heap levelsLeft value).typeName = value.typeName := by
  cases value <;> cases levelsLeft <;> simp only [expand, captureText, markCut] <;>
    first | rfl | (split <;> rfl)

theorem value_expand_of_container (container : value.isContainer = true)
    (levelsLeft : Option (Option String → Value → CapturedValue)) :
    (c.expand heap levelsLeft value).value = none := by
  cases value <;> cases levelsLeft <;> simp only [expand, markCut] <;>
    first | rfl | contradiction | (split <;> rfl)

theorem children_array (items : List Value) :
    (c.expand heap (some part) (.array items)).children =
      (c.parts heap (.array items)).map fun p => part p.1 p.2 := by
  refine (children_markCut _ _ _).trans ?_
  simp only [CapturedValue.children, parts, Option.getD_some, Option.getD_none, List.flatMap_nil,
    List.map_nil, List.append_nil, List.map_map]
  rfl

theorem children_map (entries : List (Value × Value)) :
    (c.expand heap (some part) (.map entries)).children =
      (c.parts heap (.map entries)).map fun p => part p.1 p.2 := by
  refine (children_markCut _ _ _).trans ?_
  simp only [CapturedValue.children, parts, Option.getD_some, Option.getD_none, List.nil_append,
    List.map_nil, List.append_nil, List.flatMap_map, List.map_flatMap, List.map_cons]

theorem children_object (typeName : String) (ref : Nat) :
    (c.expand heap (some part) (.object typeName ref)).children =
      (Table.insertAll [] ((bounded c.limits.maxFieldCount (heap.fields ref)).map fun (n, v) =>
        (n, part (some n) v))).map (·.2) := rfl

theorem mem_children_expand (child : u ∈ (c.expand heap (some part) value).children) :
    ∃ p ∈ c.parts heap value, u = part p.1 p.2 := by
  cases value with
  | array items =>
    rw [children_array, List.mem_map] at child
    obtain ⟨p, kept, rfl⟩ := child
    exact ⟨p, kept, rfl⟩
  | map entries =>
    rw [children_map, List.mem_map] at child
    obtain ⟨p, kept, rfl⟩ := child
    exact ⟨p, kept, rfl⟩
  | object typeName ref =>
    rw [children_object, List.mem_map] at child
    obtain ⟨_, inserted, rfl⟩ := child
    rcases Table.mem_insertAll inserted with none | ⟨_, given, same⟩
    · contradiction
    · obtain ⟨⟨n, v⟩, kept, rfl⟩ := List.mem_map.mp given
      exact ⟨(some n, v), List.mem_map_of_mem kept, same⟩
  | _ =>
    rw [expand_of_scalar rfl, children_expand_none] at child
    contradiction

theorem length_children_expand (c : Capturer) (heap : Heap)
    (part : Option String → Value → CapturedValue) (value : Value) :
    (c.expand heap (some part) value).children.length ≤ (c.parts heap value).length := by
  cases value with
  | array items => simp [children_array]
  | map entries => simp [children_map]
  | object typeName ref =>
    rw [children_object, List.length_map]
    refine Nat.le_trans (Table.length_insertAll_le _ _) (Nat.le_of_eq ?_)
    simp [parts]
  | _ =>
    rw [expand_of_scalar rfl, children_expand_none]
    exact Nat.zero_le _

theorem expand_congr (agree : ∀ p ∈ c.parts heap value, part p.1 p.2 = part' p.1 p.2) :
    c.expand heap (some part) value = c.expand heap (some part') value := by
  cases value with
  | array items =>
    have same : ∀ v ∈ bounded c.limits.maxCollectionSize items, part none v = part' none v :=
      fun v kept => agree (none, v) (List.mem_map_of_mem kept)
    simp only [expand, List.map_congr_left same]
  | map entries =>
    have same : ∀ e ∈ bounded c.limits.maxCollectionSize entries,
        (part none e.1, part (nameOfKey e.1) e.2) = (part' none e.1, part' (nameOfKey e.1) e.2) :=
      fun e kept => Prod.ext_iff.mpr
        ⟨agree (none, e.1) (List.mem_flatMap.mpr ⟨e, kept, by simp⟩),
          agree (nameOfKey e.1, e.2) (List.mem_flatMap.mpr ⟨e, kept, by simp⟩)⟩
    simp only [expand, List.map_congr_left same]
  | object typeName ref =>
    have same : ∀ f ∈ bounded c.limits.maxFieldCount (heap.fields ref),
        (f.1, part (some f.1) f.2) = (f.1, part' (some f.1) f.2) :=
      fun f kept => Prod.ext_iff.mpr ⟨rfl, agree (some f.1, f.2) (List.mem_map_of_mem kept)⟩
    simp only [expand, List.map_congr_left same]
  | _ => rfl

theorem node_of_withheld (heap : Heap) (withheld : c.withholds name value = true) :
    ∃ why, ∀ levelsLeft, c.node heap levelsLeft name value = .omitted value.typeName why := by
  cases ofType : c.redactor.redactsType value with
  | true => exact ⟨.redactedType, fun _ => by simp [node, ofType]⟩
  | false =>
    have ofName : name.any c.redactor.redactsName = true := by
      simpa [withholds, ofType] using withheld
    exact ⟨.redactedName, fun _ => by simp [node, ofType, ofName]⟩

theorem node_of_shown (shown : c.withholds name value = false)
    (levelsLeft : Option (Option String → Value → CapturedValue)) :
    c.node heap levelsLeft name value = c.expand heap levelsLeft value := by
  obtain ⟨ofType, ofName⟩ := Bool.or_eq_false_iff.mp shown
  simp [node, ofType, ofName]

theorem node_congr (agree : ∀ p ∈ c.parts heap value, part p.1 p.2 = part' p.1 p.2) :
    c.node heap (some part) name value = c.node heap (some part') name value := by
  simp only [node, expand_congr agree]

theorem captureLevels_eq_node (c : Capturer) (heap : Heap) (levels : Nat) :
    ∃ levelsLeft, c.captureLevels heap levels = c.node heap levelsLeft := by
  cases levels with
  | zero => exact ⟨none, rfl⟩
  | succ levels => exact ⟨some (c.captureLevels heap levels), rfl⟩

theorem children_captureLevels_zero : (c.captureLevels heap 0 name value).children = [] := by
  cases shown : c.withholds name value with
  | false => rw [captureLevels, node_of_shown shown, children_expand_none]
  | true =>
    obtain ⟨why, omitted⟩ := node_of_withheld heap shown
    rw [captureLevels, omitted]
    rfl

theorem isExpanded_captureLevels_zero :
    (c.captureLevels heap 0 name value).isExpanded = false := by
  cases shown : c.withholds name value with
  | false => rw [captureLevels, node_of_shown shown, isExpanded_expand_none]
  | true =>
    obtain ⟨why, omitted⟩ := node_of_withheld heap shown
    rw [captureLevels, omitted]
    rfl

theorem mem_children_captureLevels
    (child : u ∈ (c.captureLevels heap (levels + 1) name value).children) :
    ∃ p ∈ c.parts heap value, u = c.captureLevels heap levels p.1 p.2 := by
  cases shown : c.withholds name value with
  | false =>
    rw [captureLevels, node_of_shown shown] at child
    exact mem_children_expand child
  | true =>
    obtain ⟨why, omitted⟩ := node_of_withheld heap shown
    rw [captureLevels, omitted] at child
    contradiction

theorem length_children_captureLevels (c : Capturer) (heap : Heap) (levels : Nat)
    (name : Option String) (value : Value) :
    (c.captureLevels heap (levels + 1) name value).children.length ≤
      (c.parts heap value).length := by
  cases shown : c.withholds name value with
  | false =>
    rw [captureLevels, node_of_shown shown]
    exact length_children_expand c heap _ value
  | true =>
    obtain ⟨why, omitted⟩ := node_of_withheld heap shown
    rw [captureLevels, omitted]
    exact Nat.zero_le _

theorem mem_nodes_captureLevels (node : u ∈ (c.captureLevels heap levels name value).nodes) :
    ∃ levels' name' value', levels' ≤ levels ∧ u = c.captureLevels heap levels' name' value' := by
  induction levels generalizing name value with
  | zero =>
    rw [CapturedValue.nodes_eq, children_captureLevels_zero] at node
    exact ⟨0, name, value, Nat.le_refl 0, List.mem_singleton.mp node⟩
  | succ levels ih =>
    rw [CapturedValue.nodes_eq, List.mem_cons, List.mem_flatMap] at node
    rcases node with rfl | ⟨t, child, below⟩
    · exact ⟨levels + 1, name, value, Nat.le_refl _, rfl⟩
    · obtain ⟨p, -, rfl⟩ := mem_children_captureLevels child
      obtain ⟨levels', name', value', fewer, same⟩ := ih below
      exact ⟨levels', name', value', Nat.le_succ_of_le fewer, same⟩

end Capturer
end LiveProbe
