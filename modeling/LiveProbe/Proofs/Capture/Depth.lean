import LiveProbe.Proofs.Capture.Tree

/-!
Depth only cuts. A capture with fewer levels left is a capture with more of them whose containers at
the level that is out of reach are left out, and which is otherwise the same.
-/
namespace LiveProbe

namespace CapturedValue

/-- A tree whose expanded nodes at a level are left out, the root being at level zero. -/
def cut : Nat → CapturedValue → CapturedValue
  | 0, t => if t.isExpanded then .omitted t.typeName .depth else t
  | level + 1, t =>
    { t with
      elements := t.elements.map fun us => us.map (cut level)
      entries := t.entries.map fun es => es.map fun e => (cut level e.1, cut level e.2)
      fields := t.fields.map fun fs => fs.map fun f => (f.1, cut level f.2) }

theorem cut_of_unexpanded {t : CapturedValue} (unexpanded : t.isExpanded = false) (level : Nat) :
    t.cut level = t := by
  cases level with
  | zero => simp [cut, unexpanded]
  | succ level =>
    obtain ⟨typeName, value, isNull, elements, entries, fields, omission, size⟩ := t
    simp [isExpanded] at unexpanded
    simp [cut, unexpanded]

end CapturedValue

namespace Capturer

variable {c : Capturer} {heap : Heap} {name : Option String} {value : Value}
  {part : Option String → Value → CapturedValue} {levels levels' : Nat}

theorem cut_markCut {α : Type} (c : Capturer) (items : List α) (t : CapturedValue) (level : Nat) :
    (c.markCut items t).cut (level + 1) = c.markCut items (t.cut (level + 1)) := by
  unfold markCut
  split <;> rfl

theorem isExpanded_markCut {α : Type} (c : Capturer) (items : List α) (t : CapturedValue) :
    (c.markCut items t).isExpanded = t.isExpanded := by
  unfold markCut
  split <;> rfl

theorem isExpanded_expand (c : Capturer) (heap : Heap)
    (part : Option String → Value → CapturedValue) (value : Value) :
    (c.expand heap (some part) value).isExpanded = value.isContainer := by
  cases value with
  | array items | map entries =>
    simp only [expand, isExpanded_markCut]
    simp [CapturedValue.isExpanded, Value.isContainer]
  | object typeName ref => simp [expand, CapturedValue.isExpanded, Value.isContainer]
  | _ =>
    rw [expand_of_scalar rfl, isExpanded_expand_none]
    rfl

theorem expand_none_of_container (container : value.isContainer = true) :
    c.expand heap none value = .omitted value.typeName .depth := by
  cases value <;> first | rfl | contradiction

theorem cut_expand_zero (c : Capturer) (heap : Heap)
    (part : Option String → Value → CapturedValue) (value : Value) :
    (c.expand heap (some part) value).cut 0 = c.expand heap none value := by
  have expanded := isExpanded_expand c heap part value
  cases container : value.isContainer with
  | true =>
    rw [container] at expanded
    simp [CapturedValue.cut, expanded, typeName_expand, expand_none_of_container container]
  | false =>
    rw [container] at expanded
    rw [CapturedValue.cut_of_unexpanded expanded, expand_of_scalar container]

theorem cut_expand_succ (c : Capturer) (heap : Heap)
    (part : Option String → Value → CapturedValue) (value : Value) (level : Nat) :
    (c.expand heap (some part) value).cut (level + 1) =
      c.expand heap (some fun name value => (part name value).cut level) value := by
  cases value with
  | array items | map entries =>
    simp only [expand, cut_markCut]
    simp [CapturedValue.cut, Function.comp_def]
  | object typeName ref =>
    have fields := Table.insertAll_map_values (CapturedValue.cut level) []
      ((bounded c.limits.maxFieldCount (heap.fields ref)).map fun f => (f.1, part (some f.1) f.2))
    simp only [List.map_nil, List.map_map] at fields
    simp [expand, CapturedValue.cut, ← fields]
    rfl
  | _ =>
    rw [expand_of_scalar rfl, expand_of_scalar rfl]
    exact CapturedValue.cut_of_unexpanded (isExpanded_expand_none c heap _) _

theorem cut_node_zero (c : Capturer) (heap : Heap)
    (part : Option String → Value → CapturedValue) (name : Option String) (value : Value) :
    (c.node heap (some part) name value).cut 0 = c.node heap none name value := by
  cases withheld : c.withholds name value with
  | true =>
    obtain ⟨why, omitted⟩ := node_of_withheld heap withheld
    rw [omitted, omitted]
    exact CapturedValue.cut_of_unexpanded rfl 0
  | false =>
    rw [node_of_shown withheld, node_of_shown withheld]
    exact cut_expand_zero c heap part value

theorem cut_node_succ (c : Capturer) (heap : Heap)
    (part : Option String → Value → CapturedValue) (name : Option String) (value : Value)
    (level : Nat) :
    (c.node heap (some part) name value).cut (level + 1) =
      c.node heap (some fun name value => (part name value).cut level) name value := by
  cases withheld : c.withholds name value with
  | true =>
    obtain ⟨why, omitted⟩ := node_of_withheld heap withheld
    rw [omitted, omitted]
    exact CapturedValue.cut_of_unexpanded rfl (level + 1)
  | false =>
    rw [node_of_shown withheld, node_of_shown withheld]
    exact cut_expand_succ c heap part value level

theorem cut_captureLevels (more : levels ≤ levels') :
    (c.captureLevels heap levels' name value).cut levels =
      c.captureLevels heap levels name value := by
  induction levels generalizing levels' name value with
  | zero =>
    cases levels' with
    | zero => exact CapturedValue.cut_of_unexpanded isExpanded_captureLevels_zero 0
    | succ levels' => exact cut_node_zero c heap (c.captureLevels heap levels') name value
  | succ levels ih =>
    obtain ⟨levels', rfl⟩ := Nat.exists_eq_add_one_of_ne_zero (Nat.ne_zero_of_lt more)
    have fewer : levels ≤ levels' := Nat.le_of_succ_le_succ more
    have parts : (fun name value => (c.captureLevels heap levels' name value).cut levels) =
        c.captureLevels heap levels := by
      funext name value
      exact ih fewer
    rw [captureLevels, cut_node_succ, parts]
    rfl

/-- A smaller depth gives the tree of a greater one, in which every expanded container one level
below the smaller depth is left out; below the least depth, depths make no difference. -/
theorem capture_cut (c : Capturer) (heap : Heap) (name : Option String) (value : Value) :
    (∀ d d' : Int32, d ≤ d' →
      c.capture heap name value d = (c.capture heap name value d').cut (d.toInt + 1).toNat) ∧
    ∀ d : Int32, d < -1 → c.capture heap name value d = c.capture heap name value (-1) := by
  constructor
  · intro d d' le
    have fewer : levelsOf d ≤ levelsOf d' := by
      have le := Int32.le_iff_toInt_le.mp le
      unfold levelsOf
      omega
    exact (cut_captureLevels fewer).symm
  · intro d low
    have negative : d.toInt < 0 := Int.lt_trans (Int32.lt_iff_toInt_lt.mp low) (by decide)
    rw [capture_of_neg c heap negative, capture_of_neg c heap (by decide)]

/-- An object that holds itself and a list, at depth zero: the object and the list within it are
left out, and the text beside them stays. -/
theorem capture_cut_loop :
    let c : Capturer := ⟨.ofNames [] [], {}⟩
    let heap : Heap :=
      ⟨#[[("next", .object "Node" 0), ("items", .array []), ("name", .string "a")]]⟩
    (0 : Int32) ≤ 2 ∧
      c.capture heap none (.object "Node" 0) 0 =
        (c.capture heap none (.object "Node" 0) 2).cut 1 := by
  intro c heap
  exact ⟨by decide, (capture_cut c heap none (.object "Node" 0)).1 0 2 (by decide)⟩

end Capturer
end LiveProbe
