import LiveProbe.Text.Blank
import Mathlib.Data.List.Basic
import Mathlib.Data.List.TakeWhile

/-!
Trimming as a relation. A text is trimmed to what stands between the blanks at its ends, which is
the one part of it that neither starts nor ends with a blank and has only blanks around it.
-/
namespace LiveProbe.Text

variable {text core : List Char}

def Strips (text core : List Char) : Prop :=
  ∃ before after, text = before ++ core ++ after ∧
    (∀ c ∈ before, isBlank c = true) ∧ (∀ c ∈ after, isBlank c = true) ∧
    (∀ c ∈ core.head?, isBlank c = false) ∧ (∀ c ∈ core.getLast?, isBlank c = false)

theorem head?_dropWhile (text : List Char) :
    ∀ c ∈ (text.dropWhile isBlank).head?, isBlank c = false := by
  intro c member
  have first := List.head?_dropWhile_not isBlank text
  rw [Option.mem_def.mp member] at first
  exact first

theorem strips_trim (text : List Char) : Strips text (trim text) := by
  let rest := trimStart text
  have front : text = text.takeWhile isBlank ++ rest := List.takeWhile_append_dropWhile.symm
  have back : rest = trim text ++ (rest.reverse.takeWhile isBlank).reverse := by
    rw [trim, trimEnd, ← List.reverse_append, List.takeWhile_append_dropWhile,
      List.reverse_reverse]
  refine ⟨text.takeWhile isBlank, (rest.reverse.takeWhile isBlank).reverse, ?_, ?_, ?_, ?_, ?_⟩
  · rw [List.append_assoc, ← back, ← front]
  · exact fun c member => List.mem_takeWhile_imp member
  · exact fun c member => List.mem_takeWhile_imp (List.mem_reverse.mp member)
  · intro c member
    refine head?_dropWhile text c ?_
    show c ∈ rest.head?
    rw [back, List.head?_append, Option.mem_def.mp member]
    rfl
  · intro c member
    rw [trim, trimEnd, List.getLast?_reverse] at member
    exact head?_dropWhile _ c member

theorem dropWhile_blanks {blanks rest : List Char} (blank : ∀ c ∈ blanks, isBlank c = true)
    (first : ∀ c ∈ rest.head?, isBlank c = false) : (blanks ++ rest).dropWhile isBlank = rest := by
  rw [List.dropWhile_append_of_pos blank]
  cases rest with
  | nil => rfl
  | cons c rest =>
    have shown := first c (by simp)
    exact List.dropWhile_cons_of_neg (by simp [shown])

theorem trim_of_strips (strips : Strips text core) : trim text = core := by
  obtain ⟨before, after, rfl, blankBefore, blankAfter, first, last⟩ := strips
  by_cases nothing : core = []
  · subst nothing
    exact trim_all_blank (by simpa [or_imp, forall_and] using ⟨blankBefore, blankAfter⟩)
  · have start : trimStart (before ++ core ++ after) = core ++ after := by
      rw [List.append_assoc]
      refine dropWhile_blanks blankBefore fun c member => first c ?_
      rwa [List.head?_append_of_ne_nil _ nothing] at member
    rw [trim, start, trimEnd, List.reverse_append, dropWhile_blanks, List.reverse_reverse]
    · simpa using blankAfter
    · rw [List.head?_reverse]
      exact last

theorem trim_eq_iff : trim text = core ↔ Strips text core := by
  constructor
  · rintro rfl
    exact strips_trim text
  · exact trim_of_strips

end LiveProbe.Text
