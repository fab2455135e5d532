import LiveProbe.Capture.Literal
import LiveProbe.Proofs.Capture.Bounds
import LiveProbe.Proofs.Capture.Depth
import Mathlib.Data.List.Forall2

/-!
What the nodes of a capture tell of their sources. Every node says whether it shows its value, and
if not, why; and of a value that is shown, whether a part of it is missing, and how large it was.
The objects of a heap have distinct field names, so no field of an object is lost either.
-/
namespace LiveProbe

namespace Heap

variable {h : Heap}

/-- No object has two fields of one name. -/
def Distinct (h : Heap) : Prop := ∀ ref, (Table.keys (h.fields ref)).Nodup

theorem distinct_empty : Distinct {} := fun _ => List.nodup_nil

theorem Distinct.alloc (distinct : h.Distinct) : h.alloc.2.Distinct := by
  intro ref
  by_cases new : ref = h.alloc.1
  · subst new
    rw [fields_alloc]
    exact List.nodup_nil
  · rw [fields_alloc_of_ne h new]
    exact distinct ref

theorem Distinct.set (distinct : h.Distinct) (ref : Nat) (name : String) (value : Value) :
    (h.set ref name value).Distinct := by
  intro other
  by_cases same : other = ref
  · subst same
    by_cases known : other < h.objects.size
    · rw [fields_set h other name value known]
      exact Table.nodup_keys_insert (distinct other)
    · have unchanged : (h.set other name value).fields other = [] := by
        simp [fields, Heap.set, known]
      rw [unchanged]
      exact List.nodup_nil
  · rw [fields_set_of_ne h same]
    exact distinct other

end Heap

namespace Literal

mutual
theorem distinct_build (l : Literal) (w : Workshop) (distinct : w.heap.Distinct) :
    ((build l).run w).2.heap.Distinct := by
  cases l with
  | array items => exact distinct_buildItems items w distinct
  | map entries => exact distinct_buildEntries entries w distinct
  | object typeName fields mark =>
    exact distinct_buildFields _ fields ⟨w.heap.alloc.2, _⟩ distinct.alloc
  | _ => exact distinct
theorem distinct_buildItems (items : List Literal) (w : Workshop) (distinct : w.heap.Distinct) :
    ((buildItems items).run w).2.heap.Distinct := by
  cases items with
  | nil => exact distinct
  | cons l rest => exact distinct_buildItems rest _ (distinct_build l w distinct)
theorem distinct_buildEntries (entries : List (Literal × Literal)) (w : Workshop)
    (distinct : w.heap.Distinct) : ((buildEntries entries).run w).2.heap.Distinct := by
  cases entries with
  | nil => exact distinct
  | cons e rest =>
    exact distinct_buildEntries rest _
      (distinct_build e.2 _ (distinct_build e.1 w distinct))
theorem distinct_buildFields (ref : Nat) (fields : List (String × Literal)) (w : Workshop)
    (distinct : w.heap.Distinct) : ((buildFields ref fields).run w).2.heap.Distinct := by
  cases fields with
  | nil => exact distinct
  | cons f rest =>
    exact distinct_buildFields ref rest _
      ((distinct_build f.2 w distinct).set ref f.1 ((build f.2).run w).1)
end

end Literal

def Omission.leavesOut : Omission → Bool
  | .redactedType => true
  | .redactedName => true
  | .depth => true
  | _ => false

namespace CapturedValue

@[simp] def shown (t : CapturedValue) : Nat :=
  [t.value.isSome, t.isNull.isSome, t.elements.isSome, t.entries.isSome, t.fields.isSome].count true

/-- What a node holds of items: the first ones if it says that it was cut, and else all of them. -/
@[simp] def held {α : Type} (t : CapturedValue) (why : Omission) (max : Nat)
    (items : List α) : List α :=
  if t.omission = some why then items.take max else items

end CapturedValue

namespace Value

@[simp] def isText : Value → Bool
  | .string _ => true
  | .symbol _ => true
  | _ => false

@[simp] def extent (heap : Heap) : Value → Nat
  | .array items => items.length
  | .map entries => entries.length
  | .object _ ref => (heap.fields ref).length
  | .string s => s.toList.length
  | .symbol s => s.toList.length
  | _ => 0

end Value

/-- A limit of zero is never exceeded. -/
def Exceeded (max n : Nat) : Prop := max ≠ 0 ∧ max < n

namespace Capturer

variable {c : Capturer} {heap : Heap} {r : Request} {t : CapturedValue}

/-- What a node tells of the value that is to be captured. -/
structure Accounts (c : Capturer) (heap : Heap) (r : Request) (t : CapturedValue) : Prop where
  typeName : t.typeName = r.value.typeName
  /-- In exactly one way, unless it is left out. -/
  shown : t.shown = if t.omission.any Omission.leavesOut then 0 else 1
  redactedType : t.omission = some .redactedType ↔ c.redactor.redactsType r.value = true
  redactedName : t.omission = some .redactedName ↔
    c.redactor.redactsType r.value = false ∧ r.name.any c.redactor.redactsName = true
  depth : t.omission = some .depth ↔
    c.withholds r.name r.value = false ∧ r.value.isContainer = true ∧ r.depth < 0
  collectionSize : t.omission = some .collectionSize ↔
    (t.elements.isSome = true ∨ t.entries.isSome = true) ∧
      Exceeded c.limits.maxCollectionSize (r.value.extent heap)
  fieldCount : t.omission = some .fieldCount ↔
    t.fields.isSome = true ∧ Exceeded c.limits.maxFieldCount (r.value.extent heap)
  length : t.omission = some .length ↔
    t.value.isSome = true ∧ r.value.isText = true ∧
      Exceeded c.limits.maxTextLength (r.value.extent heap)
  /-- The size of the source, where a collection or a text was cut. -/
  size : t.size = if t.omission = some .collectionSize ∨ t.omission = some .length
    then some (r.value.extent heap).toUInt64 else none
  /-- What is shown is the value itself, and its parts as they are captured a level below. -/
  null : ∀ b, t.isNull = some b → r.value = .nil ∧ b = true
  scalar : t.value.isSome = true → r.value.isContainer = false ∧ r.value.isNil = false
  text : ∀ s, r.value = .string s ∨ r.value = .symbol s → ∀ document, t.value = some document →
    document = .string (String.ofList (t.held .length c.limits.maxTextLength s.toList))
  elements : ∀ us, t.elements = some us → ∃ items, r.value = .array items ∧
    us = (t.held .collectionSize c.limits.maxCollectionSize items).map fun v =>
      c.capture heap none v (r.depth - 1)
  entries : ∀ es, t.entries = some es → ∃ entries, r.value = .map entries ∧
    es = (t.held .collectionSize c.limits.maxCollectionSize entries).map fun e =>
      (c.capture heap none e.1 (r.depth - 1), c.capture heap (nameOfKey e.1) e.2 (r.depth - 1))
  fields : ∀ fs, t.fields = some fs → ∃ typeName ref, r.value = .object typeName ref ∧
    fs = (t.held .fieldCount c.limits.maxFieldCount (heap.fields ref)).map fun f =>
      (f.1, c.capture heap (some f.1) f.2 (r.depth - 1))

/-- What is to be captured, in the order of the nodes that it is captured as. -/
def sources (c : Capturer) (heap : Heap) (r : Request) : List Request :=
  r :: (c.requests heap r).attach.flatMap fun r' => c.sources heap r'.1
termination_by levelsOf r.depth
decreasing_by
  obtain ⟨notNegative, pred⟩ := toInt_of_request r'.2
  rw [levelsOf_pred notNegative, pred]
  exact Nat.lt_succ_self _

theorem sources_eq (c : Capturer) (heap : Heap) (r : Request) :
    c.sources heap r = r :: (c.requests heap r).flatMap (c.sources heap) := by
  rw [sources, List.flatMap_subtype (g := c.sources heap) (fun _ _ => rfl), List.unattach_attach]

theorem exceeds_iff {α : Type} {max : Nat} {items : List α} :
    exceeds max items = true ↔ Exceeded max items.length := by
  simp [exceeds, Exceeded]

theorem bounded_eq {α : Type} (max : Nat) (items : List α) :
    bounded max items = if exceeds max items then items.take max else items := by
  unfold bounded exceeds
  by_cases unlimited : max = 0
  · simp [unlimited]
  · by_cases more : max < items.length
    · simp [unlimited, more]
    · simp [unlimited, more, List.take_of_length_le (Nat.le_of_not_lt more)]

theorem markCut_eq {α : Type} (c : Capturer) (items : List α) (t : CapturedValue) :
    c.markCut items t = { t with
      omission := if exceeds c.limits.maxCollectionSize items then some .collectionSize
        else t.omission
      size := if exceeds c.limits.maxCollectionSize items then some items.length.toUInt64
        else t.size } := by
  cases t
  unfold markCut
  split <;> rfl

theorem captureText_eq (c : Capturer) (typeName s : String) :
    c.captureText typeName s =
      { typeName
        value := some (.string (String.ofList (bounded c.limits.maxTextLength s.toList)))
        omission := if exceeds c.limits.maxTextLength s.toList then some .length else none
        size := if exceeds c.limits.maxTextLength s.toList then some s.toList.length.toUInt64
          else none } := by
  unfold captureText
  rw [bounded_eq]
  cases more : exceeds c.limits.maxTextLength s.toList <;> simp [more, CapturedValue.scalar]

def capturePart (c : Capturer) (heap : Heap) (r : Request) :
    Option (Option String → Value → CapturedValue) :=
  if r.depth < 0 then none else some fun name value => c.capture heap name value (r.depth - 1)

theorem answer_eq (c : Capturer) (heap : Heap) (r : Request) :
    c.answer heap r = c.node heap (c.capturePart heap r) r.name r.value := by
  apply answer_eq_node
  intro r' asked
  rw [answer, (toInt_of_request asked).2]

theorem accounts_omitted {why : Omission} (nothing : why.leavesOut = true)
    (ofType : why = .redactedType ↔ c.redactor.redactsType r.value = true)
    (ofName : why = .redactedName ↔
      c.redactor.redactsType r.value = false ∧ r.name.any c.redactor.redactsName = true)
    (ofDepth : why = .depth ↔
      c.withholds r.name r.value = false ∧ r.value.isContainer = true ∧ r.depth < 0) :
    c.Accounts heap r (.omitted r.value.typeName why) := by
  have others : why ≠ .collectionSize ∧ why ≠ .fieldCount ∧ why ≠ .length := by
    refine ⟨?_, ?_, ?_⟩ <;> (intro same; subst same; cases nothing)
  constructor <;> simp [CapturedValue.omitted, *]

theorem unredacted_of_shown {name : Option String} {value : Value}
    (withheld : c.withholds name value = false) :
    c.redactor.redactsType value = false ∧ name.any c.redactor.redactsName = false :=
  Bool.or_eq_false_iff.mp withheld

section Shown

variable {name : Option String} {value : Value} {depth : Int32}

theorem accounts_text {s : String} (text : value = .string s ∨ value = .symbol s)
    (withheld : c.withholds name value = false) :
    c.Accounts heap ⟨name, value, depth⟩ (c.captureText value.typeName s) := by
  obtain ⟨ofType, ofName⟩ := unredacted_of_shown withheld
  have more := @exceeds_iff _ c.limits.maxTextLength s.toList
  rw [captureText_eq, bounded_eq]
  rcases text with rfl | rfl
  all_goals
    cases cut : exceeds c.limits.maxTextLength s.toList
    all_goals
      simp only [cut, true_iff, false_iff, Bool.false_eq_true] at more
      constructor <;>
        simp [Omission.leavesOut, Value.isContainer, Value.isNil, ofType, ofName, more]

theorem accounts_array {items : List Value} (withheld : c.withholds name (.array items) = false)
    (within : ¬ depth < 0) :
    c.Accounts heap ⟨name, .array items, depth⟩
      (c.expand heap (some fun name value => c.capture heap name value (depth - 1))
        (.array items)) := by
  obtain ⟨ofType, ofName⟩ := unredacted_of_shown withheld
  have more := @exceeds_iff _ c.limits.maxCollectionSize items
  simp only [expand, markCut_eq, bounded_eq]
  cases cut : exceeds c.limits.maxCollectionSize items
  all_goals
    simp only [cut, true_iff, false_iff, Bool.false_eq_true] at more
    constructor <;>
      simp [Omission.leavesOut, Value.isContainer, Value.isNil, Value.typeName, ofType, ofName,
        within, more]

theorem accounts_map {entries : List (Value × Value)}
    (withheld : c.withholds name (.map entries) = false) (within : ¬ depth < 0) :
    c.Accounts heap ⟨name, .map entries, depth⟩
      (c.expand heap (some fun name value => c.capture heap name value (depth - 1))
        (.map entries)) := by
  obtain ⟨ofType, ofName⟩ := unredacted_of_shown withheld
  have more := @exceeds_iff _ c.limits.maxCollectionSize entries
  simp only [expand, markCut_eq, bounded_eq]
  cases cut : exceeds c.limits.maxCollectionSize entries
  all_goals
    simp only [cut, true_iff, false_iff, Bool.false_eq_true] at more
    constructor <;>
      simp [Omission.leavesOut, Value.isContainer, Value.isNil, Value.typeName, ofType, ofName,
        within, more]

theorem expand_object (c : Capturer) (distinct : heap.Distinct)
    (part : Option String → Value → CapturedValue) (typeName : String) (ref : Nat) :
    c.expand heap (some part) (.object typeName ref) =
      { typeName
        fields := some ((bounded c.limits.maxFieldCount (heap.fields ref)).map fun f =>
          (f.1, part (some f.1) f.2))
        omission := if exceeds c.limits.maxFieldCount (heap.fields ref) then some .fieldCount
          else none } := by
  have names : (Table.keys (bounded c.limits.maxFieldCount (heap.fields ref))).Nodup := by
    unfold bounded
    split
    · exact distinct ref
    · exact (distinct ref).sublist ((List.take_sublist _ _).map _)
  rw [← Table.keys_map_keyed fun n => part (some n)] at names
  have whole := Table.insertAll_of_nodup names
  simp only [expand, Value.typeName, whole]

theorem accounts_object (distinct : heap.Distinct) {typeName : String} {ref : Nat}
    (withheld : c.withholds name (.object typeName ref) = false) (within : ¬ depth < 0) :
    c.Accounts heap ⟨name, .object typeName ref, depth⟩
      (c.expand heap (some fun name value => c.capture heap name value (depth - 1))
        (.object typeName ref)) := by
  obtain ⟨ofType, ofName⟩ := unredacted_of_shown withheld
  have more := @exceeds_iff _ c.limits.maxFieldCount (heap.fields ref)
  rw [expand_object c distinct, bounded_eq]
  cases cut : exceeds c.limits.maxFieldCount (heap.fields ref)
  all_goals
    simp only [cut, true_iff, false_iff, Bool.false_eq_true] at more
    constructor <;>
      simp [Omission.leavesOut, Value.isContainer, Value.isNil, Value.typeName, ofType, ofName,
        within, more]

theorem accounts_scalar {left : Option (Option String → Value → CapturedValue)}
    (withheld : c.withholds name value = false) (scalar : value.isContainer = false)
    (noText : value.isText = false) :
    c.Accounts heap ⟨name, value, depth⟩ (c.expand heap left value) := by
  obtain ⟨ofType, ofName⟩ := unredacted_of_shown withheld
  cases value with
  | string s | symbol s => cases noText
  | array items | map entries | object typeName ref => cases scalar
  | nil | bool b | integer n | float bits =>
    constructor <;>
      simp [expand, CapturedValue.null, CapturedValue.scalar, Value.isContainer, Value.isNil,
        ofType, ofName]

theorem accounts_expand (distinct : heap.Distinct) (withheld : c.withholds name value = false) :
    c.Accounts heap ⟨name, value, depth⟩
      (c.expand heap (c.capturePart heap ⟨name, value, depth⟩) value) := by
  cases container : value.isContainer with
  | true =>
    unfold capturePart
    by_cases beyond : depth < 0
    · rw [if_pos beyond, expand_none_of_container container]
      obtain ⟨ofType, ofName⟩ := unredacted_of_shown withheld
      apply accounts_omitted rfl <;> simp [ofType, ofName, withheld, container, beyond]
    · rw [if_neg beyond]
      cases value with
      | array items => exact accounts_array withheld beyond
      | map entries => exact accounts_map withheld beyond
      | object typeName ref => exact accounts_object distinct withheld beyond
      | _ => cases container
  | false =>
    cases value with
    | string s => exact accounts_text (Or.inl rfl) withheld
    | symbol s => exact accounts_text (Or.inr rfl) withheld
    | array items | map entries | object typeName ref => cases container
    | _ => exact accounts_scalar withheld rfl rfl

end Shown

theorem accounts_answer (distinct : heap.Distinct) (r : Request) :
    c.Accounts heap r (c.answer heap r) := by
  obtain ⟨name, value, depth⟩ := r
  rw [answer_eq]
  cases withheld : c.withholds name value with
  | false =>
    rw [node_of_shown withheld]
    exact accounts_expand distinct withheld
  | true =>
    cases ofType : c.redactor.redactsType value with
    | true =>
      have left : c.node heap (c.capturePart heap ⟨name, value, depth⟩) name value =
          .omitted value.typeName .redactedType := by simp [node, ofType]
      rw [left]
      apply accounts_omitted rfl <;> simp [ofType, withheld]
    | false =>
      have ofName : name.any c.redactor.redactsName = true := by
        simpa [withholds, ofType] using withheld
      have left : c.node heap (c.capturePart heap ⟨name, value, depth⟩) name value =
          .omitted value.typeName .redactedName := by simp [node, ofType, ofName]
      rw [left]
      apply accounts_omitted rfl <;> simp [ofType, ofName, withheld]

theorem children_expand (distinct : heap.Distinct) (part : Option String → Value → CapturedValue)
    (value : Value) : (c.expand heap (some part) value).children =
      (c.parts heap value).map fun p => part p.1 p.2 := by
  cases value with
  | array items => exact children_array items
  | map entries => exact children_map entries
  | object typeName ref =>
    rw [expand_object c distinct]
    simp [CapturedValue.children, parts]
  | _ =>
    rw [expand_of_scalar rfl, children_expand_none]
    rfl

theorem children_answer (distinct : heap.Distinct) (r : Request) :
    (c.answer heap r).children = (c.requests heap r).map (c.answer heap) := by
  rw [answer_eq, requests]
  cases withheld : c.withholds r.name r.value with
  | true =>
    obtain ⟨why, omitted⟩ := node_of_withheld heap withheld
    rw [omitted]
    simp
    rfl
  | false =>
    rw [node_of_shown withheld]
    unfold capturePart
    by_cases beyond : r.depth < 0
    · rw [if_pos beyond, children_expand_none]
      simp [beyond]
    · rw [if_neg beyond, children_expand distinct]
      simp [beyond, answer]

theorem nodes_answer (distinct : heap.Distinct) (r : Request) :
    (c.answer heap r).nodes = (c.sources heap r).map (c.answer heap) := by
  induction r using (wellFounded_requests c heap).induction with
  | _ r ih =>
    have below : (c.requests heap r).flatMap (fun r' => (c.answer heap r').nodes) =
        (c.requests heap r).flatMap fun r' => (c.sources heap r').map (c.answer heap) :=
      List.flatMap_congr ih
    rw [CapturedValue.nodes_eq, sources_eq, children_answer distinct, List.flatMap_map, below,
      List.map_cons, List.map_flatMap]

/-- Node by node, a capture accounts for what was to be captured. -/
theorem capture_accounted (c : Capturer) (heap : Heap) (distinct : heap.Distinct)
    (name : Option String) (value : Value) (depth : Int32) :
    List.Forall₂ (c.Accounts heap) (c.sources heap ⟨name, value, depth⟩)
      (c.capture heap name value depth).nodes := by
  have nodes := @nodes_answer c heap distinct ⟨name, value, depth⟩
  rw [answer] at nodes
  rw [nodes, List.forall₂_map_right_iff, List.forall₂_same]
  intro r _
  exact accounts_answer distinct r

/-- An object that holds itself, a list and a password, and a field more than the limit. -/
theorem capture_accounted_loop :
    let c : Capturer := ⟨⟨["password"], []⟩, { maxCollectionSize := 2, maxFieldCount := 3 }⟩
    let node : Literal := .object "Node" [("next", .marked 1), ("items", .array [.nil, .nil, .nil]),
      ("password", .string "a"), ("name", .string "b")] (some 1)
    let heap := (node.build.run ⟨{}, []⟩).2.heap
    heap.Distinct ∧
      List.Forall₂ (c.Accounts heap) (c.sources heap ⟨none, .object "Node" 0, 1⟩)
        (c.capture heap none (.object "Node" 0) 1).nodes ∧
      (c.capture heap none (.object "Node" 0) 1).children.map (·.omission) =
        [some .fieldCount, some .collectionSize, some .redactedName] := by
  intro c node heap
  have distinct : heap.Distinct := node.distinct_build ⟨{}, []⟩ Heap.distinct_empty
  exact ⟨distinct, capture_accounted c heap distinct none (.object "Node" 0) 1, by decide +kernel⟩

end Capturer
end LiveProbe
