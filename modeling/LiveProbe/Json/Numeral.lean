import LiveProbe.Json.Basic

/-!
Numbers as they are written, and the values they are read as. A numeral without fraction and
exponent that fits in 64 bits is a whole number. Any other is read in floating point from its
first digits, as many as fit in 64 bits, and a power of ten; one that is too large has no value.
-/
namespace LiveProbe.Json

structure Numeral where
  negative : Bool
  whole : List Char
  fraction : Option (List Char)
  exponent : Option (Bool × List Char)
  deriving DecidableEq, Repr

namespace Numeral

def digits? (s : List Char) : Option (List Char × List Char) :=
  match s.takeWhile Char.isDigit with
  | [] => none
  | ds => some (ds, s.dropWhile Char.isDigit)

def exponent? (s : List Char) : Option (Bool × List Char) :=
  let (negative, ds) := match s with
    | '+' :: r => (false, r)
    | '-' :: r => (true, r)
    | r => (false, r)
  match digits? ds with
  | some (ds, []) => some (negative, ds)
  | _ => none

def tail? (s : List Char) : Option (Option (Bool × List Char)) :=
  match s with
  | [] => some none
  | 'e' :: r => (exponent? r).map some
  | 'E' :: r => (exponent? r).map some
  | _ => none

/-- No zero stands in front of other digits, and a point has digits on both sides. -/
def ofText? (s : List Char) : Option Numeral := do
  let (negative, s) := match s with
    | '-' :: r => (true, r)
    | r => (false, r)
  let (whole, s) ← digits? s
  if whole.length > 1 && whole.head? == some '0' then none
  match s with
  | '.' :: r =>
    let (fraction, s) ← digits? r
    return ⟨negative, whole, some fraction, ← tail? s⟩
  | s => return ⟨negative, whole, none, ← tail? s⟩

def digitValue (c : Char) : Nat := c.toNat - '0'.toNat

def appendDigits (limit : Nat) : Nat → List Char → Nat × List Char
  | n, [] => (n, [])
  | n, d :: rest =>
    if n * 10 + digitValue d > limit then (n, d :: rest)
    else appendDigits limit (n * 10 + digitValue d) rest

def wordLimit : Nat := UInt64.size - 1

def greatestPower : Nat := 308

def powerOfTen (n : Nat) : Float := Float.ofScientific 1 false n

def scaleDown (x : Float) (n : Nat) : Float :=
  if n ≤ greatestPower then x / powerOfTen n
  else if x == 0 then x
  else scaleDown (x / powerOfTen greatestPower) (n - greatestPower)
termination_by n
decreasing_by simp only [greatestPower] at *; omega

def scale? (significand : Nat) (power : Int) : Option Float :=
  let x := significand.toUInt64.toFloat
  if power < 0 then some (scaleDown x power.natAbs)
  else if power.toNat ≤ greatestPower then
    let y := x * powerOfTen power.toNat
    if y.isInf then none else some y
  else if significand = 0 then some x
  else none

def float? (negative : Bool) (significand : Nat) (power : Int) : Option Number :=
  (scale? significand power).map fun x => .float (if negative then -x else x).toBits

def exponentLimit : Nat := Nat.pow 2 31 - 1

def value? (n : Numeral) : Option Number :=
  let (significand, left) := appendDigits wordLimit 0 n.whole
  let shift : Int := left.length
  match n.fraction, n.exponent with
  | none, none =>
    if !left.isEmpty then float? n.negative significand shift
    else if !n.negative then some (.int significand)
    else if significand ≠ 0 ∧ significand ≤ Nat.pow 2 63 then some (.int (-significand))
    else float? true significand 0
  | fraction, exponent =>
    let ds := fraction.getD []
    let (significand, left) := if fraction.isSome then appendDigits wordLimit significand ds
      else (significand, [])
    let shift := shift - (ds.length - left.length : Nat)
    match exponent with
    | none => float? n.negative significand shift
    | some (negativeExponent, es) =>
      match appendDigits exponentLimit 0 es with
      | (power, []) => float? n.negative significand
          (if negativeExponent then shift - power else shift + power)
      | _ => if significand ≠ 0 && !negativeExponent then none else float? n.negative 0 0

end Numeral
end LiveProbe.Json
