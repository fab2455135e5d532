import LiveProbe.Json.Outline
import LiveProbe.Proofs.Json.Ascending
import LiveProbe.Proofs.Json.Escapes
import LiveProbe.Proofs.Json.Numerals

/-!
The parts of a document: the document itself and all that stands in it, and how deep they are
nested. The outline of a document is that of its text.
-/
namespace LiveProbe

def Number.numeral (n : Number) : Json.Numeral :=
  (Json.Numeral.ofText? n.write).getD ⟨false, [], none, none⟩

theorem Number.numeral_int (n : Int) : (int n).numeral = .ofInt n := by
  have read : Json.Numeral.ofText? (int n).write = some (.ofInt n) :=
    Json.Numeral.ofText?_signed _ _
  rw [numeral, read]
  rfl

namespace Json

mutual
def outline : Json → Outline
  | .null => .null
  | .bool b => .bool b
  | .number n => .number n.numeral
  | .string s => .string (body s)
  | .array items => .array (outlineItems items)
  | .object members => .object (outlineMembers members)
def outlineItems : List Json → List Outline
  | [] => []
  | v :: rest => outline v :: outlineItems rest
def outlineMembers : List (String × Json) → List (List Char × Outline)
  | [] => []
  | (n, v) :: rest => (body n, outline v) :: outlineMembers rest
end

mutual
def parts : Json → List Json
  | .array items => .array items :: itemParts items
  | .object members => .object members :: memberParts members
  | other => [other]
def itemParts : List Json → List Json
  | [] => []
  | v :: rest => parts v ++ itemParts rest
def memberParts : List (String × Json) → List Json
  | [] => []
  | (_, v) :: rest => parts v ++ memberParts rest
end

mutual
/-- How deep arrays and objects are nested; what is neither has depth zero. -/
def depth : Json → Nat
  | .array items => itemDepth items + 1
  | .object members => memberDepth members + 1
  | _ => 0
def itemDepth : List Json → Nat
  | [] => 0
  | v :: rest => max (depth v) (itemDepth rest)
def memberDepth : List (String × Json) → Nat
  | [] => 0
  | (_, v) :: rest => max (depth v) (memberDepth rest)
end

theorem outlineItems_eq (items : List Json) : outlineItems items = items.map outline := by
  induction items with
  | nil => rfl
  | cons v rest ih => rw [outlineItems, ih, List.map_cons]

theorem outlineMembers_eq (members : List (String × Json)) :
    outlineMembers members = members.map fun m => (body m.1, m.2.outline) := by
  induction members with
  | nil => rfl
  | cons m rest ih => rw [outlineMembers, ih, List.map_cons]

theorem itemParts_eq (items : List Json) : itemParts items = items.flatMap parts := by
  induction items with
  | nil => rfl
  | cons v rest ih => rw [itemParts, ih, List.flatMap_cons]

theorem memberParts_eq (members : List (String × Json)) :
    memberParts members = members.flatMap fun m => m.2.parts := by
  induction members with
  | nil => rfl
  | cons m rest ih => rw [memberParts, ih, List.flatMap_cons]

theorem itemDepth_le {items : List Json} {n : Nat} :
    itemDepth items ≤ n ↔ ∀ v ∈ items, v.depth ≤ n := by
  induction items with
  | nil => simp [itemDepth]
  | cons v rest ih => rw [itemDepth, Nat.max_le, ih, List.forall_mem_cons]

theorem memberDepth_le {members : List (String × Json)} {n : Nat} :
    memberDepth members ≤ n ↔ ∀ m ∈ members, m.2.depth ≤ n := by
  induction members with
  | nil => simp [memberDepth]
  | cons m rest ih => rw [memberDepth, Nat.max_le, ih, List.forall_mem_cons]

theorem depth_array_le {items : List Json} {n : Nat} :
    (array items).depth ≤ n ↔ ∃ below, n = below + 1 ∧ ∀ v ∈ items, v.depth ≤ below := by
  rw [depth]
  cases n with
  | zero => simp
  | succ n => simp [itemDepth_le]

theorem depth_object_le {members : List (String × Json)} {n : Nat} :
    (object members).depth ≤ n ↔ ∃ below, n = below + 1 ∧ ∀ m ∈ members, m.2.depth ≤ below := by
  rw [depth]
  cases n with
  | zero => simp
  | succ n => simp [memberDepth_le]

def Every (P : Json → Prop) (j : Json) : Prop := ∀ part ∈ j.parts, P part

variable {P : Json → Prop}

theorem every_array {items : List Json} :
    Every P (array items) ↔ P (array items) ∧ ∀ v ∈ items, Every P v := by
  simp only [Every, parts, itemParts_eq, List.forall_mem_cons, List.forall_mem_flatMap]

theorem every_object {members : List (String × Json)} :
    Every P (object members) ↔ P (object members) ∧ ∀ m ∈ members, Every P m.2 := by
  simp only [Every, parts, memberParts_eq, List.forall_mem_cons, List.forall_mem_flatMap]

def Whole : Json → Prop
  | .number (.float _) => False
  | _ => True

/-- What a free-form document can hold: whole numbers of 64 bits, and members in order. -/
def Sound : Json → Prop
  | .number (.int n) => Fits n
  | .object members => Table.Ascending members
  | _ => True

end Json
end LiveProbe
