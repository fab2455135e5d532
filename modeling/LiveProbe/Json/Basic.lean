import LiveProbe.Table

/-!
JSON documents. Objects keep their members in order, so that a document also says how it is
written; free-form documents have a normal form, in which members are sorted by name.
-/
namespace LiveProbe

/-- Whole numbers are kept apart from floating-point ones, which are given by their bits. -/
inductive Number where
  | int (n : Int)
  | float (bits : UInt64)
  deriving DecidableEq, Repr

inductive Json where
  | null
  | bool (b : Bool)
  | number (n : Number)
  | string (s : String)
  | array (items : List Json)
  | object (members : List (String × Json))
  deriving Repr

namespace Json

instance : Inhabited Json := ⟨.null⟩

def int (n : Int) : Json := .number (.int n)

def nat (n : Nat) : Json := .number (.int n)

def get? (name : String) : Json → Option Json
  | .object members => Table.get? name members
  | _ => none

def string? : Json → Option String
  | .string s => some s
  | _ => none

mutual
def beq : Json → Json → Bool
  | .null, .null => true
  | .bool a, .bool b => a == b
  | .number a, .number b => a == b
  | .string a, .string b => a == b
  | .array a, .array b => beqItems a b
  | .object a, .object b => beqMembers a b
  | _, _ => false
def beqItems : List Json → List Json → Bool
  | [], [] => true
  | a :: as, b :: bs => beq a b && beqItems as bs
  | _, _ => false
def beqMembers : List (String × Json) → List (String × Json) → Bool
  | [], [] => true
  | (k, a) :: as, (l, b) :: bs => k == l && beq a b && beqMembers as bs
  | _, _ => false
end

instance : BEq Json := ⟨beq⟩

/-- Puts a member in front of the first one with a greater name; a member of the same name is
replaced. -/
def insertSorted (name : String) (value : Json) : List (String × Json) → List (String × Json)
  | [] => [(name, value)]
  | (n, v) :: rest =>
    if name < n then (name, value) :: (n, v) :: rest
    else if name = n then (n, value) :: rest
    else (n, v) :: insertSorted name value rest

mutual
/-- The document with the members of every object sorted by name, the last of several members of
one name standing for all of them. -/
def normal : Json → Json
  | .array items => .array (normalItems items)
  | .object members => .object (normalMembers members [])
  | other => other
def normalItems : List Json → List Json
  | [] => []
  | v :: rest => normal v :: normalItems rest
def normalMembers : List (String × Json) → List (String × Json) → List (String × Json)
  | [], sorted => sorted
  | (n, v) :: rest, sorted => normalMembers rest (insertSorted n (normal v) sorted)
end

end Json
end LiveProbe
