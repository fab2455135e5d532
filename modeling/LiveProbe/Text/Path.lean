/-!
Base names. Units are known under paths of different shapes, absolute or relative, with either
kind of separator, and are identified by what follows the last separator.
-/
namespace LiveProbe.Text

def isSeparator (c : Char) : Bool := c == '/' || c == '\\'

def afterSeparator (path : List Char) : List Char :=
  (path.reverse.takeWhile fun c => !isSeparator c).reverse

def basename (path : String) : String := String.ofList (afterSeparator path.toList)

theorem takeWhile_all {α : Type} (p : α → Bool) (l : List α) : ∀ a ∈ l.takeWhile p, p a = true := by
  induction l with
  | nil => simp
  | cons x r ih =>
    by_cases h : p x = true <;> simp [h]
    exact ih

theorem isSeparator_of_mem {path : List Char} {c : Char} (h : c ∈ afterSeparator path) :
    isSeparator c = false := by
  simpa using takeWhile_all _ _ c (List.mem_reverse.mp h)

theorem takeWhile_of_all {α : Type} {p : α → Bool} {l : List α} (h : ∀ a ∈ l, p a = true) :
    l.takeWhile p = l := by
  induction l with
  | nil => rfl
  | cons x r ih =>
    rw [List.takeWhile_cons_of_pos (h x (by simp)), ih fun a ha => h a (by simp [ha])]

theorem afterSeparator_idem (path : List Char) :
    afterSeparator (afterSeparator path) = afterSeparator path := by
  have apart : ∀ c ∈ (afterSeparator path).reverse, (!isSeparator c) = true := fun c hc => by
    simp [isSeparator_of_mem (List.mem_reverse.mp hc)]
  rw [afterSeparator, takeWhile_of_all apart, List.reverse_reverse]

theorem basename_idem (path : String) : basename (basename path) = basename path := by
  simp [basename, afterSeparator_idem]

end LiveProbe.Text
