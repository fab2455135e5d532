import LiveProbe.Decimal.Layout

/-!
Numbers with a fixed count of decimal places. The exact value is rounded once, to the nearest
multiple of the last place, and a value half way goes to the even one.
-/
namespace LiveProbe.Decimal

def roundHalfEven (num den : Nat) : Nat :=
  let below := num / den
  let rest := num % den
  if 2 * rest < den then below
  else if 2 * rest > den then below + 1
  else if below % 2 = 0 then below else below + 1

def withPlaces (places n : Nat) : List Char :=
  digits (n / Nat.pow 10 places) ++ '.' ::
    (let fraction := digits (n % Nat.pow 10 places)
     zeros (places - fraction.length) ++ fraction)

def fixed (places : Nat) (bits : UInt64) : String :=
  match decode bits with
  | .nan => "NaN"
  | .infinite negative => String.ofList (signed negative ['i', 'n', 'f'])
  | .finite negative significand power =>
    let scaled := significand * Nat.pow 10 places * Nat.pow 2 power.toNat
    let rounded := roundHalfEven scaled (Nat.pow 2 (-power).toNat)
    String.ofList (signed negative (withPlaces places rounded))

end LiveProbe.Decimal
