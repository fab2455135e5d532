/-!
White space and trimming. A character is blank if it has the Unicode property White_Space; a text
is trimmed by dropping the blank characters at both of its ends.
-/
namespace LiveProbe.Text

def inRanges (ranges : List (Nat × Nat)) (n : Nat) : Bool :=
  ranges.any fun r => r.1 ≤ n && n ≤ r.2

def blankRanges : List (Nat × Nat) :=
  [(0x09, 0x0D), (0x20, 0x20), (0x85, 0x85), (0xA0, 0xA0), (0x1680, 0x1680), (0x2000, 0x200A),
   (0x2028, 0x2029), (0x202F, 0x202F), (0x205F, 0x205F), (0x3000, 0x3000)]

def isBlank (c : Char) : Bool := inRanges blankRanges c.toNat

def trimStart (s : List Char) : List Char := s.dropWhile isBlank

def trimEnd (s : List Char) : List Char := (s.reverse.dropWhile isBlank).reverse

def trim (s : List Char) : List Char := trimEnd (trimStart s)

theorem trim_all_blank {s : List Char} (h : ∀ c ∈ s, isBlank c = true) : trim s = [] := by
  have start : trimStart s = [] := by
    unfold trimStart
    induction s with
    | nil => rfl
    | cons c r ih =>
      rw [List.dropWhile_cons_of_pos (h c (by simp))]
      exact ih fun d hd => h d (by simp [hd])
  simp [trim, start, trimEnd]

def commaList (s : String) : List String :=
  (((s.toList.splitOn ',').map trim).filter fun piece => !piece.isEmpty).map String.ofList

end LiveProbe.Text
