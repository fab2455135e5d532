import LiveProbe.Decimal.Shortest

/-!
Written forms of floating-point numbers. A layout says which numbers are written out in full, and
what stands for those without digits.
-/
namespace LiveProbe.Decimal

structure Layout where
  tie : Tie
  /-- Numbers are written in full while the point stands between these places, counted from the
  first digit. -/
  firstPlace : Int
  lastPlace : Int
  wholeMark : Bool

/-- The layout of documents: in full from 0.00001 to just below 10 ^ 16, else with an exponent. -/
def Layout.document : Layout := ⟨.even, -4, 16, true⟩

def Layout.plain : Layout := ⟨.up, -400, 400, false⟩

def digits (n : Nat) : List Char := Nat.toDigits 10 n

def zeros (n : Nat) : List Char := List.replicate n '0'

def inFull (wholeMark : Bool) (ds : List Char) (place : Int) : List Char :=
  if place ≤ 0 then ['0', '.'] ++ zeros (-place).toNat ++ ds
  else
    let whole := ds.take place.toNat ++ zeros (place.toNat - ds.length)
    match ds.drop place.toNat with
    | [] => whole ++ if wholeMark then ['.', '0'] else []
    | fraction => whole ++ '.' :: fraction

def withExponent (ds : List Char) (power : Int) : List Char :=
  let mantissa := match ds with
    | first :: second :: rest => first :: '.' :: second :: rest
    | other => other
  mantissa ++ 'e' :: (if power < 0 then '-' else '+') :: digits power.natAbs

def Layout.write (layout : Layout) (n : Scaled) : List Char :=
  if n.coefficient = 0 then '0' :: if layout.wholeMark then ['.', '0'] else []
  else
    let ds := digits n.coefficient
    let place := ds.length + n.exponent
    if layout.firstPlace ≤ place ∧ place ≤ layout.lastPlace then inFull layout.wholeMark ds place
    else withExponent ds (place - 1)

def signed (negative : Bool) (text : List Char) : List Char :=
  if negative then '-' :: text else text

def Layout.render (layout : Layout) (bits : UInt64) : String :=
  match decode bits with
  | .nan => "NaN"
  | .infinite negative => String.ofList (signed negative ['i', 'n', 'f'])
  | .finite negative significand power =>
    String.ofList (signed negative (layout.write (shortest layout.tie significand power)))

end LiveProbe.Decimal
