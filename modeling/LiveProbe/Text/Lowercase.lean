import LiveProbe.Text.Blank
import LiveProbe.Text.LetterCase

/-!
Lowercase form of a text. Every character has a form of its own, apart from the Greek capital
sigma, which is written differently at the end of a word.
-/
namespace LiveProbe.Text
open LetterCase

/-- Letters that take part in words as far as the final sigma is concerned. -/
def isCased (c : Char) : Bool := c.isAlpha || inRanges casedRanges c.toNat

def isIgnorable (c : Char) : Bool := inRanges ignorableRanges c.toNat

def lowerChar (c : Char) : List Char :=
  if c.toNat < 0x80 then [c.toLower]
  else if c.toNat = 0x130 then ['i', Char.ofNat 0x307]
  else match lowerRuns.find? (·.covers c.toNat) with
    | some run => [Char.ofNat (c.toNat + run.shift).toNat]
    | none => [c]

def meetsLetter (s : List Char) : Bool :=
  match s.dropWhile isIgnorable with
  | c :: _ => isCased c
  | [] => false

/-- The part `before` has been read and is kept in reverse. A sigma that ends a word has its own
small form. -/
def lowerFrom (before : List Char) : List Char → List Char
  | [] => []
  | c :: rest =>
    let small :=
      if c.toNat = 0x3A3 then
        [Char.ofNat (if meetsLetter before && !meetsLetter rest then 0x3C2 else 0x3C3)]
      else lowerChar c
    small ++ lowerFrom (c :: before) rest

def lower (s : List Char) : List Char := lowerFrom [] s

theorem lowerChar_of_ascii {c : Char} (h : c.toNat < 0x80) : lowerChar c = [c.toLower] := by
  simp [lowerChar, h]

theorem lowerFrom_of_ascii {s : List Char} (before : List Char) (h : ∀ c ∈ s, c.toNat < 0x80) :
    lowerFrom before s = s.map Char.toLower := by
  induction s generalizing before with
  | nil => rfl
  | cons c rest ih =>
    have small : c.toNat < 0x80 := h c (by simp)
    have notSigma : c.toNat ≠ 0x3A3 := by omega
    simp [lowerFrom, notSigma, lowerChar_of_ascii small, ih (c :: before) fun d hd => h d (by simp [hd])]

theorem lower_of_ascii {s : List Char} (h : ∀ c ∈ s, c.toNat < 0x80) :
    lower s = s.map Char.toLower := lowerFrom_of_ascii [] h

end LiveProbe.Text
