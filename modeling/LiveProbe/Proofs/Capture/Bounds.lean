import LiveProbe.Proofs.Capture.Tree
import Mathlib.Algebra.BigOperators.Intervals
import Mathlib.Algebra.BigOperators.Ring.Finset
import Mathlib.Algebra.Order.BigOperators.Group.List

/-!
Bounds of captures. Objects can be reached from themselves, so no value bounds what is captured of
it: that a capture ends is due to the depth alone, and that it is small to the limits alone.
-/
namespace LiveProbe

/-- How many nodes can hang on one, a map giving two for each entry. -/
def Limits.width (l : Limits) : Nat := max (2 * l.maxCollectionSize) l.maxFieldCount

structure Limits.Bounds (l : Limits) (levels : Nat) (t : CapturedValue) : Prop where
  nested : ∀ path, t.Path path → (t :: path).countP (·.isExpanded) ≤ levels
  nodes : l.maxCollectionSize ≠ 0 → l.maxFieldCount ≠ 0 →
    t.nodes.length ≤ ∑ i ∈ Finset.range (levels + 1), l.width ^ i
  texts : l.maxTextLength ≠ 0 → ∀ u ∈ t.nodes, u.typeName = "String" ∨ u.typeName = "Symbol" →
    ∀ s, u.value = some (.string s) → s.length ≤ l.maxTextLength

namespace Capturer

variable {c : Capturer} {heap : Heap} {name : Option String} {value : Value} {levels : Nat}

structure Request where
  name : Option String
  value : Value
  depth : Int32

def answer (c : Capturer) (heap : Heap) (r : Request) : CapturedValue :=
  c.capture heap r.name r.value r.depth

def requests (c : Capturer) (heap : Heap) (r : Request) : List Request :=
  if c.withholds r.name r.value ∨ r.depth < 0 then []
  else (c.parts heap r.value).map fun p => ⟨p.1, p.2, r.depth - 1⟩

theorem countP_path_le {path : List CapturedValue}
    (way : (c.captureLevels heap levels name value).Path path) :
    (c.captureLevels heap levels name value :: path).countP (·.isExpanded) ≤ levels := by
  induction levels generalizing name value path with
  | zero =>
    cases path with
    | nil => simp [isExpanded_captureLevels_zero]
    | cons u rest =>
      rw [CapturedValue.Path, children_captureLevels_zero] at way
      exact absurd way.1 List.not_mem_nil
  | succ levels ih =>
    have root : ∀ t : CapturedValue, [t].countP (·.isExpanded) ≤ 1 := fun t => List.countP_le_length
    cases path with
    | nil => exact Nat.le_trans (root _) (Nat.succ_le_succ (Nat.zero_le _))
    | cons u rest =>
      obtain ⟨p, -, rfl⟩ := mem_children_captureLevels way.1
      have below := ih way.2
      have here := root (c.captureLevels heap (levels + 1) name value)
      rw [← List.singleton_append, List.countP_append]
      omega

theorem length_bounded_le {α : Type} {max : Nat} (limited : max ≠ 0) (items : List α) :
    (bounded max items).length ≤ max := by
  rw [bounded, if_neg limited]
  exact List.length_take_le _ _

theorem length_parts_le (collections : c.limits.maxCollectionSize ≠ 0)
    (fields : c.limits.maxFieldCount ≠ 0) : (c.parts heap value).length ≤ c.limits.width := by
  unfold Limits.width
  cases value with
  | array items =>
    have kept := length_bounded_le collections items
    simp only [parts, List.length_map]
    omega
  | map entries =>
    have kept := length_bounded_le collections entries
    simp only [parts, List.length_flatMap, List.length_cons, List.length_nil, List.map_const',
      List.sum_replicate, Nat.nsmul_eq_mul]
    omega
  | object typeName ref =>
    have kept := length_bounded_le fields (heap.fields ref)
    simp only [parts, List.length_map]
    omega
  | _ => exact Nat.zero_le _

theorem length_nodes_le (collections : c.limits.maxCollectionSize ≠ 0)
    (fields : c.limits.maxFieldCount ≠ 0) :
    (c.captureLevels heap levels name value).nodes.length ≤
      ∑ i ∈ Finset.range (levels + 1), c.limits.width ^ i := by
  induction levels generalizing name value with
  | zero => simp [CapturedValue.nodes_eq, children_captureLevels_zero]
  | succ levels ih =>
    have children := (length_children_captureLevels c heap levels name value).trans
      (length_parts_le collections fields)
    generalize total : ∑ i ∈ Finset.range (levels + 1), c.limits.width ^ i = most at ih
    have each : ∀ n ∈ (c.captureLevels heap (levels + 1) name value).children.map
        (fun u => u.nodes.length), n ≤ most := by
      intro n counted
      obtain ⟨u, child, rfl⟩ := List.mem_map.mp counted
      obtain ⟨p, -, rfl⟩ := mem_children_captureLevels child
      exact ih
    calc (c.captureLevels heap (levels + 1) name value).nodes.length
        = ((c.captureLevels heap (levels + 1) name value).children.map
            (fun u => u.nodes.length)).sum + 1 := by
          rw [CapturedValue.nodes_eq, List.length_cons, List.length_flatMap]
      _ ≤ c.limits.width * most + 1 := by
          have sum := List.sum_le_card_nsmul _ most each
          rw [List.length_map, Nat.nsmul_eq_mul] at sum
          exact Nat.succ_le_succ (sum.trans (Nat.mul_le_mul_right most children))
      _ = ∑ i ∈ Finset.range (levels + 1 + 1), c.limits.width ^ i := by
          rw [Finset.sum_range_succ', ← total, Finset.mul_sum]
          simp only [pow_succ', pow_zero]

theorem length_captureText_le (limited : c.limits.maxTextLength ≠ 0) {typeName s shown : String}
    (text : (c.captureText typeName s).value = some (.string shown)) :
    shown.length ≤ c.limits.maxTextLength := by
  dsimp only [captureText] at text
  split at text
  · cases text
    rw [← String.length_toList, String.toList_ofList]
    exact List.length_take_le _ _
  · next fits =>
    cases text
    simpa [exceeds, limited, String.length_toList] using fits

theorem length_text_expand_le (limited : c.limits.maxTextLength ≠ 0) {shown : String}
    (levelsLeft : Option (Option String → Value → CapturedValue))
    (ofText : value.typeName = "String" ∨ value.typeName = "Symbol")
    (text : (c.expand heap levelsLeft value).value = some (.string shown)) :
    shown.length ≤ c.limits.maxTextLength := by
  cases value with
  | string s | symbol s => exact length_captureText_le limited text
  | float bits => simp [Value.typeName] at ofText
  | nil | bool b | integer n => cases text
  | array items | map entries | object typeName ref =>
    rw [value_expand_of_container rfl] at text
    contradiction

theorem length_text_le (limited : c.limits.maxTextLength ≠ 0) {shown : String}
    (ofText : (c.captureLevels heap levels name value).typeName = "String" ∨
      (c.captureLevels heap levels name value).typeName = "Symbol")
    (text : (c.captureLevels heap levels name value).value = some (.string shown)) :
    shown.length ≤ c.limits.maxTextLength := by
  obtain ⟨levelsLeft, same⟩ := captureLevels_eq_node c heap levels
  rw [same] at ofText text
  cases withheld : c.withholds name value with
  | false =>
    rw [node_of_shown withheld] at ofText text
    exact length_text_expand_le limited levelsLeft (typeName_expand levelsLeft ▸ ofText) text
  | true =>
    obtain ⟨why, omitted⟩ := node_of_withheld heap withheld
    rw [omitted] at text
    contradiction

theorem bounds_captureLevels (c : Capturer) (heap : Heap) (levels : Nat) (name : Option String)
    (value : Value) : c.limits.Bounds levels (c.captureLevels heap levels name value) where
  nested _ way := countP_path_le way
  nodes collections fields := length_nodes_le collections fields
  texts limited u node ofText s text := by
    obtain ⟨levels', name', value', -, rfl⟩ := mem_nodes_captureLevels node
    exact length_text_le limited ofText text

theorem toInt_of_request {r r' : Request} (asked : r' ∈ c.requests heap r) :
    0 ≤ r.depth.toInt ∧ r'.depth = r.depth - 1 := by
  unfold requests at asked
  split at asked
  · contradiction
  · next proceeds =>
    obtain ⟨p, -, rfl⟩ := List.mem_map.mp asked
    have notNegative : ¬ r.depth < 0 := fun negative => proceeds (Or.inr negative)
    exact ⟨by simpa [Int32.lt_iff_toInt_lt] using notNegative, rfl⟩

theorem wellFounded_requests (c : Capturer) (heap : Heap) :
    WellFounded fun r' r => r' ∈ c.requests heap r := by
  refine Subrelation.wf ?_ (measure fun r : Request => levelsOf r.depth).wf
  intro r' r asked
  obtain ⟨notNegative, pred⟩ := toInt_of_request asked
  have fewer := levelsOf_pred notNegative
  rw [← pred] at fewer
  exact Nat.lt_of_succ_le (Nat.le_of_eq fewer.symm)

theorem answer_eq_node {r : Request} {answered : Option String → Value → CapturedValue}
    (agree : ∀ r' ∈ c.requests heap r, answered r'.name r'.value = c.answer heap r') :
    c.answer heap r =
      c.node heap (if r.depth < 0 then none else some answered) r.name r.value := by
  unfold answer
  by_cases negative : r.depth < 0
  · rw [if_pos negative]
    exact capture_of_neg c heap (by simpa [Int32.lt_iff_toInt_lt] using negative) r.name r.value
  · have notNegative : 0 ≤ r.depth.toInt := by simpa [Int32.lt_iff_toInt_lt] using negative
    rw [if_neg negative, capture_of_nonneg c heap notNegative]
    cases withheld : c.withholds r.name r.value with
    | true =>
      obtain ⟨why, omitted⟩ := node_of_withheld heap withheld
      rw [omitted, omitted]
    | false =>
      refine node_congr fun p kept => ?_
      have asked : (⟨p.1, p.2, r.depth - 1⟩ : Request) ∈ c.requests heap r := by
        rw [requests, if_neg (by simp [withheld, negative])]
        exact List.mem_map.mpr ⟨p, kept, rfl⟩
      exact (agree _ asked).symm

/-- Capturing ends on every heap, never goes below the least depth, and gives a tree that the
limits and the depth bound. -/
theorem capture_bounded (c : Capturer) (heap : Heap) :
    (WellFounded fun r' r => r' ∈ c.requests heap r) ∧
    (∀ r, ∀ r' ∈ c.requests heap r, r'.depth.toInt = r.depth.toInt - 1) ∧
    (∀ r answered,
      (∀ r' ∈ c.requests heap r, answered r'.name r'.value = c.answer heap r') →
      c.answer heap r =
        c.node heap (if r.depth < 0 then none else some answered) r.name r.value) ∧
    ∀ name value (depth : Int32),
      c.limits.Bounds (depth.toInt + 1).toNat (c.capture heap name value depth) := by
  refine ⟨wellFounded_requests c heap, ?_, fun _ _ => answer_eq_node, ?_⟩
  · intro r r' asked
    obtain ⟨notNegative, pred⟩ := toInt_of_request asked
    rw [pred, toInt_pred notNegative]
  · intro name value depth
    exact bounds_captureLevels c heap (levelsOf depth) name value

/-- An object that holds itself, where every node has two parts at most. -/
theorem capture_bounded_loop :
    let c : Capturer := ⟨.ofNames [] [], { maxCollectionSize := 1, maxFieldCount := 1 }⟩
    c.limits.maxCollectionSize ≠ 0 ∧ c.limits.maxFieldCount ≠ 0 ∧
      (c.capture ⟨#[[("next", .object "Node" 0)]]⟩ none (.object "Node" 0) 1).nodes.length ≤ 7 := by
  intro c
  obtain ⟨-, -, -, bounds⟩ := capture_bounded c ⟨#[[("next", .object "Node" 0)]]⟩
  exact ⟨by decide, by decide, (bounds none (.object "Node" 0) 1).nodes (by decide) (by decide)⟩

end Capturer
end LiveProbe
