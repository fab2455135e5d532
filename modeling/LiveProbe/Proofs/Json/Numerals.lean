import LiveProbe.Json.Compact
import LiveProbe.Json.Numeral
import Mathlib.Data.List.TakeWhile

/-!
Whole numbers written and read. A whole number is written as its digits, and digits are read one by
one while they fit in 64 bits, so the numbers that fit are read back.
-/
namespace LiveProbe.Json

def Fits (n : Int) : Prop := -9223372036854775808 ≤ n ∧ n < 18446744073709551616

namespace Numeral

def ofInt (n : Int) : Numeral := ⟨n < 0, Decimal.digits n.natAbs, none, none⟩

theorem isDigit_of_mem_digits {n : Nat} {c : Char} (member : c ∈ Decimal.digits n) :
    c.isDigit = true := Nat.isDigit_of_mem_toDigits (by decide) (by decide) member

theorem digits_ne_nil (n : Nat) : Decimal.digits n ≠ [] := Nat.toDigits_ne_nil

theorem head?_digits {n : Nat} (positive : 0 < n) : (Decimal.digits n).head? ≠ some '0' := by
  induction n using Nat.base_induction 10 (by decide) with
  | single m small =>
    rw [Decimal.digits, Nat.toDigits_of_lt_base small]
    intro same
    simp at same
    omega
  | digit m k small above ih =>
    obtain ⟨d, ds, same⟩ := List.exists_cons_of_ne_nil (digits_ne_nil m)
    have first := ih above
    rw [Decimal.digits] at same first
    rw [Decimal.digits, ← Nat.toDigits_append_toDigits (by decide) above small, same]
    rwa [same] at first

theorem leading_digits (n : Nat) :
    ((Decimal.digits n).length > 1 && (Decimal.digits n).head? == some '0') = false := by
  rcases Nat.eq_zero_or_pos n with rfl | positive
  · rfl
  · simp [head?_digits positive]

theorem digits?_digits (n : Nat) : digits? (Decimal.digits n) = some (Decimal.digits n, []) := by
  have all : ∀ c ∈ Decimal.digits n, c.isDigit = true := fun c => isDigit_of_mem_digits
  unfold digits?
  rw [List.takeWhile_eq_self_iff.mpr all, List.dropWhile_eq_nil_iff.mpr all]
  split
  · next nothing => exact absurd nothing (digits_ne_nil n)
  · rfl

theorem ofText?_signed (negative : Bool) (n : Nat) :
    ofText? (Decimal.signed negative (Decimal.digits n)) =
      some ⟨negative, Decimal.digits n, none, none⟩ := by
  cases negative with
  | true =>
    show ofText? ('-' :: Decimal.digits n) = _
    rw [ofText?.eq_1, digits?_digits]
    simp only [Option.bind_eq_bind, Option.bind_some, leading_digits]
    rfl
  | false =>
    have unsigned : ∀ r, Decimal.digits n = '-' :: r → False := by
      intro r same
      have digit := isDigit_of_mem_digits (n := n) (same ▸ List.mem_cons_self)
      cases digit
    show ofText? (Decimal.digits n) = _
    rw [ofText?.eq_2 _ unsigned, digits?_digits]
    simp only [Option.bind_eq_bind, Option.bind_some, leading_digits]
    rfl

theorem le_ofDigitChars (ds : List Char) (a : Nat) : a ≤ Nat.ofDigitChars 10 ds a := by
  induction ds generalizing a with
  | nil => exact Nat.le_refl a
  | cons d ds ih =>
    rw [Nat.ofDigitChars_cons]
    exact Nat.le_trans (by omega) (ih _)

theorem appendDigits_eq {limit a : Nat} {ds : List Char}
    (within : Nat.ofDigitChars 10 ds a ≤ limit) :
    appendDigits limit a ds = (Nat.ofDigitChars 10 ds a, []) := by
  induction ds generalizing a with
  | nil => rfl
  | cons d ds ih =>
    have next : Nat.ofDigitChars 10 (d :: ds) a =
        Nat.ofDigitChars 10 ds (a * 10 + digitValue d) := by
      rw [Nat.ofDigitChars_cons, Nat.mul_comm]
      rfl
    rw [next] at within ⊢
    have least := le_ofDigitChars ds (a * 10 + digitValue d)
    rw [appendDigits, if_neg (Nat.not_lt.mpr (Nat.le_trans least within)), ih within]

theorem appendDigits_digits {limit n : Nat} (within : n ≤ limit) :
    appendDigits limit 0 (Decimal.digits n) = (n, []) := by
  have value : Nat.ofDigitChars 10 (Decimal.digits n) 0 = n := Nat.ofDigitChars_ten_toDigits
  rw [appendDigits_eq (by rwa [value]), value]

theorem appendDigits_le {limit a : Nat} (within : a ≤ limit) (ds : List Char) :
    (appendDigits limit a ds).1 ≤ limit := by
  induction ds generalizing a with
  | nil => exact within
  | cons d ds ih =>
    rw [appendDigits]
    split
    · exact within
    · next fits => exact ih (Nat.le_of_not_lt fits)

theorem value?_ofInt {n : Int} (fits : Fits n) : (ofInt n).value? = some (.int n) := by
  obtain ⟨least, greatest⟩ := fits
  have word : n.natAbs ≤ wordLimit := by
    have limit : wordLimit = 2 ^ 64 - 1 := rfl
    omega
  unfold value? ofInt
  simp only [appendDigits_digits word, List.isEmpty_nil, Bool.not_true, Bool.false_eq_true,
    if_false]
  by_cases negative : n < 0
  · have half : n.natAbs ≠ 0 ∧ n.natAbs ≤ Nat.pow 2 63 := by
      have power : Nat.pow 2 63 = 2 ^ 63 := rfl
      omega
    have abs : -(n.natAbs : Int) = n := by omega
    simp only [negative, decide_true, Bool.not_true, Bool.false_eq_true, if_false]
    rw [if_pos half, abs]
  · have abs : (n.natAbs : Int) = n := by omega
    simp only [negative, decide_false, Bool.not_false, if_true, abs]

theorem float?_ne_int (negative : Bool) (significand : Nat) (power n : Int) :
    float? negative significand power ≠ some (.int n) := by
  unfold float?
  cases scale? significand power with
  | none => simp
  | some x => simp

theorem fits_of_value? {m : Numeral} {n : Int} (read : m.value? = some (.int n)) : Fits n := by
  unfold value? at read
  have within := appendDigits_le (Nat.zero_le wordLimit) m.whole
  have limit : wordLimit = 2 ^ 64 - 1 := rfl
  have power : Nat.pow 2 63 = 2 ^ 63 := rfl
  dsimp only at read
  split at read
  · split at read
    · exact absurd read (float?_ne_int _ _ _ _)
    · split at read
      · obtain rfl : ((appendDigits wordLimit 0 m.whole).1 : Int) = n := by simpa using read
        constructor <;> omega
      · split at read
        · next half =>
          obtain rfl : -((appendDigits wordLimit 0 m.whole).1 : Int) = n := by simpa using read
          constructor <;> omega
        · exact absurd read (float?_ne_int _ _ _ _)
  · generalize (if m.fraction.isSome = true then _ else _ : Nat × List Char) = digits at read
    split at read
    · exact absurd read (float?_ne_int _ _ _ _)
    · split at read
      · exact absurd read (float?_ne_int _ _ _ _)
      · split at read
        · cases read
        · exact absurd read (float?_ne_int _ _ _ _)

end Numeral
end LiveProbe.Json
