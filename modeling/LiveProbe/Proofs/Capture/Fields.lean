import LiveProbe.Capture.Value
import LiveProbe.Payload.Captured
import LiveProbe.Proofs.Table
import Mathlib.Data.Finset.Card
import Mathlib.Data.List.Dedup

/-!
Fields and captured variables in their order. A table that is built entry by entry has the keys it
was given, each once and in the order in which they were first used, and under each key the value
that was given last. This is what the fields of an object are to the sets that reached it since it
was new, whatever else happens to the heap in between, and captured variables to their insertions.
-/
namespace LiveProbe

namespace Table

variable {κ α : Type} [DecidableEq κ] {given table : List (κ × α)} {key : κ}

def latest (key : κ) (given : List (κ × α)) : Option α :=
  ((given.filter fun e => e.1 = key).getLast?).map (·.2)

/-- The keys of the table are those of the entries given, in the order of their first use, and
under each key the latest value is found. -/
structure Follows (given table : List (κ × α)) : Prop where
  mem_keys : ∀ key, key ∈ keys table ↔ key ∈ keys given
  ordered : (keys table).Pairwise fun a b => (keys given).idxOf a < (keys given).idxOf b
  found : ∀ key, get? key table = latest key given

/-- A table that follows its entries, as it is seen: no key stands twice, there are as many entries
as keys were used, and to give a known key again puts the value in its place and leaves all else. -/
structure InOrder (given table : List (κ × α)) : Prop extends Follows given table where
  distinct : (keys table).Nodup
  length_eq : table.length = (keys given).toFinset.card
  again : ∀ key value, key ∈ keys given →
    insert key value table = table.map fun e => (e.1, if e.1 = key then value else e.2)

omit [DecidableEq κ] in
theorem keys_append_singleton (given : List (κ × α)) (key : κ) (value : α) :
    keys (given ++ [(key, value)]) = keys given ++ [key] := by
  simp [keys]

theorem mem_keys_insert {other : κ} {value : α} :
    other ∈ keys (insert key value table) ↔ other ∈ keys table ∨ other = key := by
  rw [keys_insert]
  split
  · next known =>
    constructor
    · exact Or.inl
    · rintro (before | rfl)
      · exact before
      · exact known
  · simp

theorem latest_append (key other : κ) (value : α) (given : List (κ × α)) :
    latest other (given ++ [(key, value)]) =
      if other = key then some value else latest other given := by
  by_cases same : other = key
  · simp [latest, same]
  · simp [latest, same, Ne.symm same]

theorem insert_of_mem_keys (distinct : (keys table).Nodup) (known : key ∈ keys table) (value : α) :
    insert key value table = table.map fun e => (e.1, if e.1 = key then value else e.2) := by
  induction table with
  | nil => simp [keys] at known
  | cons e rest ih =>
    obtain ⟨k, v⟩ := e
    obtain ⟨fresh, distinct⟩ := List.nodup_cons.mp distinct
    by_cases same : k = key
    · subst same
      have others : ∀ e ∈ rest, (e.1, if e.1 = k then value else e.2) = e := by
        intro e member
        have own : e.1 ∈ keys rest := List.mem_map_of_mem member
        have apart : e.1 ≠ k := ne_of_mem_of_not_mem own fresh
        simp [apart]
      simp [insert, List.map_congr_left others]
    · have later : key ∈ keys rest := by
        simpa [keys_cons, Ne.symm same] using known
      simp [insert, same, ih distinct later]

theorem follows_nil : Follows (κ := κ) (α := α) [] [] := by
  constructor <;> simp [keys, get?, latest]

theorem Follows.ordered_append (follows : Follows given table) (key : κ) :
    (keys table).Pairwise fun a b =>
      (keys given ++ [key]).idxOf a < (keys given ++ [key]).idxOf b := by
  refine follows.ordered.imp_of_mem fun {a b} first second earlier => ?_
  have usedFirst := (follows.mem_keys a).mp first
  have usedSecond := (follows.mem_keys b).mp second
  rwa [List.idxOf_append_of_mem usedFirst, List.idxOf_append_of_mem usedSecond]

theorem Follows.insert (follows : Follows given table) (key : κ) (value : α) :
    Follows (given ++ [(key, value)]) (insert key value table) where
  mem_keys other := by
    simp [mem_keys_insert, keys_append_singleton, follows.mem_keys other]
  ordered := by
    have before := follows.ordered_append key
    rw [keys_insert, keys_append_singleton]
    by_cases known : key ∈ keys table
    · simpa [known] using before
    · -- A new key is used after all keys of the table.
      have unused : key ∉ keys given := fun used => known ((follows.mem_keys key).mpr used)
      rw [if_neg known, List.pairwise_append]
      refine ⟨before, List.pairwise_singleton _ _, ?_⟩
      intro a member b last
      have used := (follows.mem_keys a).mp member
      have inside := List.idxOf_lt_length_of_mem used
      rw [List.mem_singleton.mp last, List.idxOf_append_of_mem used,
        List.idxOf_append_of_notMem unused]
      omega
  found other := by
    rw [get?_insert, latest_append, follows.found]

theorem follows_insertAll (given : List (κ × α)) : Follows given (insertAll [] given) := by
  induction given using List.reverseRecOn with
  | nil => exact follows_nil
  | append_singleton given e ih =>
    rw [insertAll_append]
    exact ih.insert e.1 e.2

example : insertAll [] [("arg1", 1), ("arg2", 2), ("a", 42), ("arg1", 0)] =
    [("arg1", 0), ("arg2", 2), ("a", 42)] := by decide

theorem Follows.distinct (follows : Follows given table) : (keys table).Nodup :=
  follows.ordered.imp fun {a b} earlier same => by simp [same] at earlier

theorem Follows.length_eq (follows : Follows given table) :
    table.length = (keys given).toFinset.card := by
  have same : (keys table).toFinset = (keys given).toFinset := by
    ext key
    simpa using follows.mem_keys key
  calc table.length = (keys table).length := (List.length_map _).symm
    _ = (keys table).toFinset.card := (List.toFinset_card_of_nodup follows.distinct).symm
    _ = (keys given).toFinset.card := by rw [same]

theorem Follows.inOrder (follows : Follows given table) : InOrder given table where
  toFollows := follows
  distinct := follows.distinct
  length_eq := follows.length_eq
  again key value used :=
    insert_of_mem_keys follows.distinct ((follows.mem_keys key).mpr used) value

end Table

namespace Heap

/-- What can happen to a heap: an object is made, or a field of an object is set. -/
inductive Change where
  | alloc
  | set (ref : Nat) (name : String) (value : Value)

def change (h : Heap) : Change → Heap
  | .alloc => h.alloc.2
  | .set ref name value => h.set ref name value

def Change.on? (ref : Nat) : Change → Option (String × Value)
  | .alloc => none
  | .set other name value => if other = ref then some (name, value) else none

variable {h : Heap} {ref : Nat}

theorem size_change (h : Heap) (c : Change) : h.objects.size ≤ (h.change c).objects.size := by
  cases c <;> simp [change, alloc, set]

theorem fields_change (known : ref < h.objects.size) (c : Change) :
    (h.change c).fields ref = Table.insertAll (h.fields ref) (c.on? ref).toList := by
  cases c with
  | alloc => exact fields_alloc_of_ne h (Nat.ne_of_lt known)
  | set other name value =>
    by_cases same : other = ref
    · subst same
      simp [change, Change.on?, fields_set h other name value known, Table.insertAll]
    · simp [change, Change.on?, same, fields_set_of_ne h (Ne.symm same), Table.insertAll]

theorem size_changes (h : Heap) (changes : List Change) :
    h.objects.size ≤ (changes.foldl change h).objects.size := by
  induction changes generalizing h with
  | nil => exact Nat.le_refl _
  | cons c changes ih => exact Nat.le_trans (size_change h c) (ih (h.change c))

theorem fields_changes (known : ref < h.objects.size) (changes : List Change) :
    (changes.foldl change h).fields ref =
      Table.insertAll (h.fields ref) (changes.filterMap (Change.on? ref)) := by
  induction changes generalizing h with
  | nil => rfl
  | cons c changes ih =>
    have still : ref < (h.change c).objects.size := Nat.lt_of_lt_of_le known (size_change h c)
    rw [List.foldl_cons, ih still, fields_change known, ← Table.insertAll_append]
    cases set : c.on? ref <;> simp [set]

end Heap

/-- The fields of an object are in order what was set of it since it was new, whatever else happened
to the heap, and the first of them come with the number of all. To set a field again puts the value
in its place and leaves the other fields, and no set changes another object. Captured variables are
in order what was inserted. -/
theorem fields_in_order (h : Heap) (changes : List Heap.Change)
    (inserted : List (String × CapturedValue)) :
    let ref := h.alloc.1
    let sets := changes.filterMap (Heap.Change.on? ref)
    let after := changes.foldl Heap.change h.alloc.2
    let vars : CapturedVars := Table.insertAll [] inserted
    Table.InOrder sets (after.fields ref) ∧
    (∀ max, (after.firstFields ref max).1 <+: after.fields ref ∧
      (after.firstFields ref max).1.length = min max (Table.keys sets).toFinset.card ∧
      (after.firstFields ref max).2 = (Table.keys sets).toFinset.card) ∧
    (∀ name ∈ Table.keys sets, ∀ value, (after.set ref name value).fields ref =
      (after.fields ref).map fun e => (e.1, if e.1 = name then value else e.2)) ∧
    (∀ name value, ∀ other ≠ ref,
      (after.set ref name value).fields other = after.fields other) ∧
    Table.InOrder inserted vars := by
  intro ref sets after vars
  have new : ref < h.alloc.2.objects.size := by simp [ref, Heap.alloc]
  have known : ref < after.objects.size := Nat.lt_of_lt_of_le new (Heap.size_changes _ changes)
  have built := Heap.fields_changes new changes
  rw [Heap.fields_alloc] at built
  have own : Table.InOrder sets (after.fields ref) := built ▸ (Table.follows_insertAll sets).inOrder
  refine ⟨own, ?_, ?_, ?_, (Table.follows_insertAll inserted).inOrder⟩
  · intro max
    rw [← own.length_eq]
    exact ⟨List.take_prefix _ _, List.length_take, rfl⟩
  · intro name used value
    rw [Heap.fields_set after ref name value known]
    exact own.again name value used
  · intro name value other apart
    exact Heap.fields_set_of_ne after apart name value

end LiveProbe
