/-!
Floating-point numbers as the 64 bits that hold them: a sign, 11 bits of exponent and 52 bits of
fraction. A finite number is a whole significand times a power of two.
-/
namespace LiveProbe.Decimal

inductive Real where
  | nan
  | infinite (negative : Bool)
  | finite (negative : Bool) (significand : Nat) (power : Int)
  deriving DecidableEq, Repr

def fractionSize : Nat := Nat.pow 2 52

def isNegative (bits : UInt64) : Bool := bits.toNat ≥ Nat.pow 2 63

def exponentField (bits : UInt64) : Nat := bits.toNat / fractionSize % 2048

def fractionField (bits : UInt64) : Nat := bits.toNat % fractionSize

/-- The fraction of a normal number has a leading one that is not stored. -/
def decode (bits : UInt64) : Real :=
  let fraction := fractionField bits
  match exponentField bits with
  | 2047 => if fraction = 0 then .infinite (isNegative bits) else .nan
  | 0 => .finite (isNegative bits) fraction (-1074)
  | n + 1 => .finite (isNegative bits) (fractionSize + fraction) (n - 1074)

def isFinite (bits : UInt64) : Bool := exponentField bits != 2047

end LiveProbe.Decimal
