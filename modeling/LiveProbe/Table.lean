/-!
Tables as lists of pairs in the order of insertion. Inserting under a known key replaces the
value in its place; an unknown key goes to the end.
-/
namespace LiveProbe.Table

variable {κ α : Type} [DecidableEq κ]

def insert (key : κ) (value : α) : List (κ × α) → List (κ × α)
  | [] => [(key, value)]
  | (k, v) :: rest => if k = key then (k, value) :: rest else (k, v) :: insert key value rest

def get? (key : κ) : List (κ × α) → Option α
  | [] => none
  | (k, v) :: rest => if k = key then some v else get? key rest

def contains (key : κ) (table : List (κ × α)) : Bool := (get? key table).isSome

def erase (key : κ) (table : List (κ × α)) : List (κ × α) := table.filter fun e => e.1 ≠ key

def keys (table : List (κ × α)) : List κ := table.map (·.1)

def insertAll (table : List (κ × α)) (entries : List (κ × α)) : List (κ × α) :=
  entries.foldl (fun t e => insert e.1 e.2 t) table

theorem get?_insert_self (key : κ) (value : α) (table : List (κ × α)) :
    get? key (insert key value table) = some value := by
  induction table with
  | nil => simp [insert, get?]
  | cons e rest ih =>
    obtain ⟨k, v⟩ := e
    by_cases h : k = key <;> simp [insert, get?, h, ih]

theorem get?_insert_of_ne {key other : κ} (h : other ≠ key) (value : α) (table : List (κ × α)) :
    get? other (insert key value table) = get? other table := by
  induction table with
  | nil => simp [insert, get?, Ne.symm h]
  | cons e rest ih =>
    obtain ⟨k, v⟩ := e
    by_cases hk : k = key
    · subst hk; simp [insert, get?, Ne.symm h]
    · by_cases ho : k = other
      · subst ho; simp [insert, get?, hk]
      · simp [insert, get?, hk, ho, ih]

theorem get?_eq_none_iff {key : κ} {table : List (κ × α)} :
    get? key table = none ↔ key ∉ keys table := by
  induction table with
  | nil => simp [get?, keys]
  | cons e rest ih =>
    obtain ⟨k, v⟩ := e
    by_cases h : k = key
    · simp [get?, keys, h]
    · simp only [get?, h, if_false, ih, keys, List.map_cons, List.mem_cons, not_or]
      exact ⟨fun hr => ⟨fun e => h e.symm, hr⟩, fun hr => hr.2⟩

theorem keys_insert (key : κ) (value : α) (table : List (κ × α)) :
    keys (insert key value table) = if key ∈ keys table then keys table else keys table ++ [key] := by
  induction table with
  | nil => simp [insert, keys]
  | cons e rest ih =>
    obtain ⟨k, v⟩ := e
    by_cases h : k = key
    · simp [insert, keys, h]
    · have hn : ¬ key = k := fun e => h e.symm
      simp only [keys] at ih
      by_cases known : key ∈ rest.map (·.1) <;> simp [insert, h, keys, ih, hn, known]

theorem nodup_keys_insert {key : κ} {value : α} {table : List (κ × α)} (h : (keys table).Nodup) :
    (keys (insert key value table)).Nodup := by
  rw [keys_insert]
  split
  · exact h
  · next absent =>
    rw [List.nodup_append]
    refine ⟨h, by simp, ?_⟩
    intro a ha b hb
    simp at hb
    subst hb
    exact fun e => absent (e ▸ ha)

theorem get?_erase_self (key : κ) (table : List (κ × α)) : get? key (erase key table) = none := by
  rw [get?_eq_none_iff]
  simp [keys, erase]

theorem get?_erase_of_ne {key other : κ} (h : other ≠ key) (table : List (κ × α)) :
    get? other (erase key table) = get? other table := by
  induction table with
  | nil => rfl
  | cons e rest ih =>
    obtain ⟨k, v⟩ := e
    by_cases hk : k = key
    · subst hk
      simp [erase, get?, Ne.symm h] at ih ⊢
      exact ih
    · simp [erase, get?, hk] at ih ⊢
      rw [ih]

end LiveProbe.Table
