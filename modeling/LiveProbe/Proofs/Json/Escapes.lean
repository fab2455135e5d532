import LiveProbe.Json.Compact
import LiveProbe.Json.Token

/-!
Escapes undone. What is written for one character is one of three forms, and whatever follows, each
of them is read as that character.
-/
namespace LiveProbe.Json

theorem hexValue?_hexDigit : ∀ n < 16, hexValue? (hexDigit n) = some n := by decide

def body (s : String) : List Char := s.toList.flatMap escapeChar

theorem writeString_eq (s : String) : writeString s = '"' :: (body s ++ ['"']) := rfl

inductive Escaped (c : Char) : List Char → Prop where
  | letter (d : Char) (stands : simpleEscape? d = some c) (other : d ≠ 'u') : Escaped c ['\\', d]
  | number (low : c.toNat < 0x20) :
      Escaped c ['\\', 'u', '0', '0', hexDigit (c.toNat / 16), hexDigit (c.toNat % 16)]
  | itself (quote : c ≠ '"') (backslash : c ≠ '\\') (high : 0x20 ≤ c.toNat) : Escaped c [c]

theorem escaped_escapeChar (c : Char) : Escaped c (escapeChar c) := by
  unfold escapeChar
  split
  · exact .letter _ rfl (by decide)
  · exact .letter _ rfl (by decide)
  · exact .letter _ rfl (by decide)
  · exact .letter _ rfl (by decide)
  · exact .letter _ rfl (by decide)
  · next quote backslash _ _ _ =>
    split
    · next backspace =>
      obtain rfl : c = Char.ofNat 8 := by rw [← backspace, Char.ofNat_toNat]
      exact .letter _ rfl (by decide)
    · split
      · next feed =>
        obtain rfl : c = Char.ofNat 12 := by rw [← feed, Char.ofNat_toNat]
        exact .letter _ rfl (by decide)
      · split
        · next low => exact .number low
        · next high => exact .itself quote backslash (Nat.le_of_not_lt high)

theorem unescape?_number {a b c d : Char} {n : Nat} (value : hexValues? a b c d = some n)
    (high : isHighSurrogate n = false) (low : isLowSurrogate n = false) (rest : List Char) :
    unescape? ('\\' :: 'u' :: a :: b :: c :: d :: rest) =
      (unescape? rest).map (Char.ofNat n :: ·) := by
  by_cases pair : ∃ e f g h after, rest = '\\' :: 'u' :: e :: f :: g :: h :: after
  · obtain ⟨e, f, g, h, after, rfl⟩ := pair
    rw [unescape?]
    simp only [value, high, low, Option.bind_eq_bind, Option.bind_some, Bool.false_eq_true,
      if_false]
    cases unescape? _ <;> rfl
  · have alone : ∀ e f g h after, rest = '\\' :: 'u' :: e :: f :: g :: h :: after → False :=
      fun e f g h after same => pair ⟨e, f, g, h, after, same⟩
    rw [unescape?.eq_3 _ _ _ _ _ alone]
    simp only [value, high, low, Option.bind_eq_bind, Option.bind_some, Bool.false_eq_true,
      if_false, Bool.or_self]
    cases unescape? _ <;> rfl

theorem unescape?_escapeChar (c : Char) (rest : List Char) :
    unescape? (escapeChar c ++ rest) = (unescape? rest).map (c :: ·) := by
  generalize escapeChar c = text, escaped_escapeChar c = escaped
  cases escaped with
  | letter d stands other =>
    show unescape? ('\\' :: d :: rest) = _
    rw [unescape?.eq_4 d rest (fun _ _ _ _ _ _ _ _ _ same _ => other same)
      (fun _ _ _ _ _ same _ => other same), stands]
    cases unescape? rest <;> rfl
  | number low =>
    have value : hexValues? '0' '0' (hexDigit (c.toNat / 16)) (hexDigit (c.toNat % 16)) =
        some c.toNat := by
      have zero : hexValue? '0' = some 0 := rfl
      simp only [hexValues?, zero, hexValue?_hexDigit _ (show c.toNat / 16 < 16 by omega),
        hexValue?_hexDigit _ (show c.toNat % 16 < 16 by omega), Option.bind_eq_bind,
        Option.bind_some, Option.pure_def, Option.some.injEq]
      omega
    have noHigh : isHighSurrogate c.toNat = false := by simp [isHighSurrogate]; omega
    have noLow : isLowSurrogate c.toNat = false := by simp [isLowSurrogate]; omega
    have read := unescape?_number value noHigh noLow rest
    rwa [Char.ofNat_toNat] at read
  | itself quote backslash high =>
    exact unescape?.eq_5 c rest (fun _ _ _ _ _ _ _ _ _ same _ => backslash same)
      (fun _ _ _ _ _ same _ => backslash same) (fun _ _ same _ => backslash same)

theorem textOfBody?_body (s : String) : textOfBody? (body s) = some s := by
  have all : ∀ cs : List Char, unescape? (cs.flatMap escapeChar) = some cs := by
    intro cs
    induction cs with
    | nil => rfl
    | cons c cs ih =>
      rw [List.flatMap_cons, unescape?_escapeChar, ih]
      rfl
  rw [textOfBody?, body, all, Option.map_some, String.ofList_toList]

theorem escapeChar_digit {c : Char} (digit : c.isDigit = true) : escapeChar c = [c] := by
  have least : 48 ≤ c.toNat := by
    simp only [Char.isDigit, Bool.and_eq_true, decide_eq_true_eq] at digit
    exact digit.1
  generalize written : escapeChar c = text
  have escaped := written ▸ escaped_escapeChar c
  cases escaped with
  | letter d stands other =>
    unfold simpleEscape? at stands
    split at stands
    all_goals cases stands
    all_goals cases digit
  | number low => omega
  | itself => rfl

end LiveProbe.Json
