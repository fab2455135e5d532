import LiveProbe.Table

/-!
Tables in ascending order of their keys. An entry is put in its place, and one of the same key gives
way to it, so the order is kept; entries that come in order go to the end one after another.
-/
namespace LiveProbe.Table

variable {κ α : Type} [LT κ]

def Ascending (table : List (κ × α)) : Prop := (keys table).Pairwise (· < ·)

theorem ascending_nil : Ascending ([] : List (κ × α)) := List.Pairwise.nil

theorem ascending_cons {e : κ × α} {rest : List (κ × α)} :
    Ascending (e :: rest) ↔ (∀ f ∈ rest, e.1 < f.1) ∧ Ascending rest := by
  simp [Ascending, keys]

variable [DecidableLT κ] [DecidableEq κ] {key : κ} {value : α} {e : κ × α}
  {table entries : List (κ × α)}

def place (key : κ) (value : α) : List (κ × α) → List (κ × α)
  | [] => [(key, value)]
  | (k, v) :: rest =>
    if key < k then (key, value) :: (k, v) :: rest
    else if key = k then (k, value) :: rest
    else (k, v) :: place key value rest

def placeAll (table entries : List (κ × α)) : List (κ × α) :=
  entries.foldl (fun t e => place e.1 e.2 t) table

theorem mem_place (member : e ∈ place key value table) : e = (key, value) ∨ e ∈ table := by
  induction table with
  | nil => exact Or.inl (List.mem_singleton.mp member)
  | cons first rest ih =>
    rw [place] at member
    split at member
    · exact List.mem_cons.mp member
    · split at member
      · next same =>
        rcases List.mem_cons.mp member with new | later
        · exact Or.inl (same ▸ new)
        · exact Or.inr (List.mem_cons_of_mem _ later)
      · rcases List.mem_cons.mp member with rfl | later
        · exact Or.inr List.mem_cons_self
        · exact (ih later).imp_right (List.mem_cons_of_mem _)

theorem mem_placeAll (member : e ∈ placeAll table entries) : e ∈ table ∨ e ∈ entries := by
  induction entries generalizing table with
  | nil => exact Or.inl member
  | cons first rest ih =>
    rcases ih member with before | later
    · rcases mem_place before with rfl | old
      · exact Or.inr List.mem_cons_self
      · exact Or.inl old
    · exact Or.inr (List.mem_cons_of_mem _ later)

variable [LE κ] [Std.IsLinearOrder κ] [Std.LawfulOrderLT κ]

theorem ascending_place (ascending : Ascending table) : Ascending (place key value table) := by
  induction table with
  | nil => simp [place, Ascending, keys]
  | cons first rest ih =>
    obtain ⟨k, v⟩ := first
    obtain ⟨least, others⟩ := ascending_cons.mp ascending
    rw [place]
    split
    · next less =>
      refine ascending_cons.mpr ⟨fun f member => ?_, ascending⟩
      rcases List.mem_cons.mp member with rfl | later
      · exact less
      · exact Std.lt_trans less (least f later)
    · next notLess =>
      split
      · exact ascending_cons.mpr ⟨least, others⟩
      · next other =>
        refine ascending_cons.mpr ⟨fun f member => ?_, ih others⟩
        rcases mem_place member with rfl | old
        · exact Std.lt_of_le_of_ne (Std.not_lt.mp notLess) (Ne.symm other)
        · exact least f old

theorem ascending_placeAll (ascending : Ascending table) : Ascending (placeAll table entries) := by
  induction entries generalizing table with
  | nil => exact ascending
  | cons first rest ih => exact ih (ascending_place ascending)

theorem place_of_greater (greater : ∀ e ∈ table, e.1 < key) :
    place key value table = table ++ [(key, value)] := by
  induction table with
  | nil => rfl
  | cons first rest ih =>
    have above := greater first List.mem_cons_self
    have notLess : ¬ key < first.1 := fun less => Std.lt_irrefl (Std.lt_trans less above)
    have other : key ≠ first.1 := fun same => Std.lt_irrefl (same ▸ above)
    have later := ih fun e member => greater e (List.mem_cons_of_mem _ member)
    rw [place, if_neg notLess, if_neg other, later]
    rfl

theorem placeAll_of_ascending (ascending : Ascending (table ++ entries)) :
    placeAll table entries = table ++ entries := by
  induction entries generalizing table with
  | nil => exact (List.append_nil table).symm
  | cons first rest ih =>
    have greater : ∀ e ∈ table, e.1 < first.1 := by
      intro e member
      unfold Ascending keys at ascending
      rw [List.map_append] at ascending
      exact (List.pairwise_append.mp ascending).2.2 _ (List.mem_map_of_mem member) _
        List.mem_cons_self
    have placed : place first.1 first.2 table = table ++ [first] := place_of_greater greater
    have joined : table ++ first :: rest = (table ++ [first]) ++ rest := by
      rw [List.append_assoc, List.singleton_append]
    rw [joined] at ascending ⊢
    show placeAll (place first.1 first.2 table) rest = _
    rw [placed]
    exact ih ascending

end LiveProbe.Table
