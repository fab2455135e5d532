import LiveProbe.Json.Outline

/-!
Typed reading of outlines. Every array or object that is looked into takes one of the levels
left; what is not looked into takes none.
-/
namespace LiveProbe.Json.Outline

def levelLimit : Nat := 127

mutual
def toJson? : Nat → Outline → Option Json
  | _, .null => some .null
  | _, .bool b => some (.bool b)
  | _, .number n => n.value?.map .number
  | _, .string body => (textOfBody? body).map .string
  | 0, .array _ => none
  | levels + 1, .array items => (itemsToJson? levels items).map .array
  | 0, .object _ => none
  | levels + 1, .object members => (membersToJson? levels members []).map .object
def itemsToJson? : Nat → List Outline → Option (List Json)
  | _, [] => some []
  | levels, v :: rest => do
    let v ← toJson? levels v
    let rest ← itemsToJson? levels rest
    return v :: rest
def membersToJson? : Nat → List (List Char × Outline) → List (String × Json) →
    Option (List (String × Json))
  | _, [], sorted => some sorted
  | levels, (n, v) :: rest, sorted => do
    let n ← textOfBody? n
    let v ← toJson? levels v
    membersToJson? levels rest (insertSorted n v sorted)
end

def bool? : Outline → Option Bool
  | .bool b => some b
  | _ => none

def string? : Outline → Option String
  | .string body => textOfBody? body
  | _ => none

def nat? (limit : Nat) : Outline → Option Nat
  | .number n => match n.value? with
    | some (.int n) => if 0 ≤ n ∧ n < limit then some n.toNat else none
    | _ => none
  | _ => none

def uint32? (o : Outline) : Option UInt32 := (nat? UInt32.size o).map (·.toUInt32)

def uint64? (o : Outline) : Option UInt64 := (nat? UInt64.size o).map (·.toUInt64)

def items? {α : Type} (read : Nat → Outline → Option α) : Nat → Outline → Option (List α)
  | levels + 1, .array items => items.mapM (read levels)
  | _, _ => none

def members? {α : Type} (read : Nat → Outline → Option α) :
    Nat → Outline → Option (List (String × α))
  | levels + 1, .object members => members.mapM fun (n, v) => do
    let n ← textOfBody? n
    let v ← read levels v
    return (n, v)
  | _, _ => none

/-- The named parts of a record, in the order of the names: members of an object, of which others
are passed over and none may repeat, or the items of an array of just that many. -/
def record? (names : List String) : Nat → Outline → Option (List (Option Outline))
  | _ + 1, .object members => do
    let members ← members.mapM fun (n, v) => (textOfBody? n).map fun n => (n, v)
    let known := members.filter fun m => names.contains m.1
    if (Table.keys known).eraseDups.length = known.length then
      return names.map fun n => Table.get? n known
    else none
  | _ + 1, .array items => if items.length = names.length then some (items.map some) else none
  | _, _ => none

def required {α : Type} (read : Outline → Option α) (part : Option Outline) : Option α :=
  part >>= read

def optional {α : Type} (read : Outline → Option α) : Option Outline → Option (Option α)
  | none => some none
  | some .null => some none
  | some o => (read o).map some

/-- One of several words, given as a string or as the only member of an object, with null. -/
def choice? {α : Type} (choices : List (String × α)) : Nat → Outline → Option α
  | _, .string body => textOfBody? body >>= fun s => Table.get? s choices
  | _ + 1, .object [(body, .null)] => textOfBody? body >>= fun s => Table.get? s choices
  | _, _ => none

end LiveProbe.Json.Outline
