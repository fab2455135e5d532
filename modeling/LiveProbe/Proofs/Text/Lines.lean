/-!
Lines. A text is made of lines if each of them is ended by a line break. What is cut at its line
breaks is made of the pieces once it is ended itself, and no text is made of lines in two ways.
-/
namespace LiveProbe.Text

variable {lines lines' : List (List Char)} {text text' : List Char}

def Unbroken (text : List Char) : Prop := '\n' ∉ text

instance : Decidable (Unbroken text) := inferInstanceAs (Decidable ('\n' ∉ text))

@[simp] theorem unbroken_nil : Unbroken [] := List.not_mem_nil

@[simp] theorem unbroken_cons {c : Char} : Unbroken (c :: text) ↔ c ≠ '\n' ∧ Unbroken text := by
  simp [Unbroken, eq_comm]

@[simp] theorem unbroken_append :
    Unbroken (text ++ text') ↔ Unbroken text ∧ Unbroken text' := by
  simp [Unbroken]

def pieces (text : List Char) : List (List Char) := text.splitOn '\n'

structure MadeOf (lines : List (List Char)) (text : List Char) : Prop where
  unbroken : ∀ line ∈ lines, Unbroken line
  ended : text = lines.flatMap fun line => line ++ ['\n']

theorem pieces_of_unbroken (unbroken : Unbroken text) : pieces text = [text] :=
  List.splitOn_eq_singleton unbroken

theorem pieces_append_break (text rest : List Char) :
    pieces (text ++ '\n' :: rest) = pieces text ++ pieces rest :=
  List.splitOn_append_cons_self text rest

theorem pieces_break (text : List Char) : pieces ('\n' :: text) = [] :: pieces text :=
  pieces_append_break [] text

theorem pieces_cons {c : Char} (other : c ≠ '\n') (text : List Char) :
    pieces (c :: text) = (pieces text).modifyHead (c :: ·) := by
  simp [pieces, List.splitOn_cons_eq_if_modifyHead, other]

theorem pieces_append (unbroken : Unbroken text) (rest : List Char) :
    pieces (text ++ rest) = (pieces rest).modifyHead (text ++ ·) := by
  induction text with
  | nil => cases first : pieces rest <;> simp [first]
  | cons c text ih =>
    obtain ⟨other, unbroken⟩ := unbroken_cons.mp unbroken
    simp [pieces_cons other, ih unbroken, Function.comp_def]

theorem length_pieces (text : List Char) : (pieces text).length = text.count '\n' + 1 := by
  induction text with
  | nil => rfl
  | cons c text ih =>
    by_cases same : c = '\n'
    · simp [same, pieces_break, ih]
    · simp [same, pieces_cons, ih]

theorem madeOf_pieces (text : List Char) : MadeOf (pieces text) (text ++ ['\n']) := by
  induction text with
  | nil => exact ⟨by simp [pieces], rfl⟩
  | cons c text ih =>
    obtain ⟨unbroken, ended⟩ := ih
    by_cases same : c = '\n'
    · subst same
      constructor
      · simpa [pieces_break] using unbroken
      · simp [pieces_break, ended]
    · cases first : pieces text with
      | nil => simp [first] at ended
      | cons piece rest =>
        simp only [first, List.flatMap_cons, List.mem_cons, forall_eq_or_imp] at unbroken ended
        constructor
        · simpa [pieces_cons same, first, same] using unbroken
        · simp [pieces_cons same, first, ended]

theorem madeOf_nil : MadeOf [] [] := ⟨by simp, rfl⟩

theorem MadeOf.append (first : MadeOf lines text) (second : MadeOf lines' text') :
    MadeOf (lines ++ lines') (text ++ text') := by
  constructor
  · intro line member
    rcases List.mem_append.mp member with before | after
    · exact first.unbroken line before
    · exact second.unbroken line after
  · simp [first.ended, second.ended]

theorem madeOf_flatMap {α : Type} {parts : α → List (List Char)} {write : α → List Char}
    {items : List α} (each : ∀ a ∈ items, MadeOf (parts a) (write a)) :
    MadeOf (items.flatMap parts) (items.flatMap write) := by
  induction items with
  | nil => exact madeOf_nil
  | cons a items ih =>
    simp only [List.mem_cons, forall_eq_or_imp] at each
    exact each.1.append (ih each.2)

theorem MadeOf.pieces_eq (made : MadeOf lines text) : pieces text = lines ++ [[]] := by
  obtain ⟨unbroken, rfl⟩ := made
  induction lines with
  | nil => rfl
  | cons line lines ih =>
    simp only [List.mem_cons, forall_eq_or_imp] at unbroken
    have later := ih unbroken.2
    have cut := pieces_append_break line (lines.flatMap fun line => line ++ ['\n'])
    rw [pieces_of_unbroken unbroken.1, later] at cut
    simpa using cut

theorem MadeOf.unique (made : MadeOf lines text) (made' : MadeOf lines' text) :
    lines = lines' := by
  have same := made.pieces_eq.symm.trans made'.pieces_eq
  exact List.append_cancel_right same

end LiveProbe.Text
