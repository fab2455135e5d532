import LiveProbe.Table

/-!
Tables as partial functions. Every operation is told by what is found under each key afterwards;
the entries of a table are what is found only where no key stands twice.
-/
namespace LiveProbe.Table

variable {κ α β : Type} [DecidableEq κ]

theorem get?_insert (key other : κ) (value : α) (table : List (κ × α)) :
    get? other (insert key value table) = if other = key then some value else get? other table := by
  by_cases same : other = key
  · subst same
    simp [get?_insert_self]
  · simp [same, get?_insert_of_ne same]

theorem get?_erase (key other : κ) (table : List (κ × α)) :
    get? other (erase key table) = if other = key then none else get? other table := by
  by_cases same : other = key
  · subst same
    simp [get?_erase_self]
  · simp [same, get?_erase_of_ne same]

theorem get?_append (key : κ) (first second : List (κ × α)) :
    get? key (first ++ second) = (get? key first).or (get? key second) := by
  induction first with
  | nil => simp [get?]
  | cons e rest ih =>
    obtain ⟨k, v⟩ := e
    by_cases h : k = key <;> simp [get?, h, ih]

theorem get?_map_keyed (f : κ → α → β) (key : κ) (table : List (κ × α)) :
    get? key (table.map fun e => (e.1, f e.1 e.2)) = (get? key table).map (f key) := by
  induction table with
  | nil => rfl
  | cons e rest ih =>
    obtain ⟨k, v⟩ := e
    by_cases h : k = key
    · subst h
      simp [get?]
    · simp [get?, h, ih]

theorem get?_map_values (f : α → β) (key : κ) (table : List (κ × α)) :
    get? key (table.map fun e => (e.1, f e.2)) = (get? key table).map f :=
  get?_map_keyed (fun _ => f) key table

theorem contains_iff {key : κ} {table : List (κ × α)} :
    contains key table = true ↔ ∃ value, get? key table = some value := by
  simp [contains, Option.isSome_iff_exists]

theorem contains_eq_false_iff {key : κ} {table : List (κ × α)} :
    contains key table = false ↔ get? key table = none := by
  simp [contains]

theorem contains_iff_mem_keys {key : κ} {table : List (κ × α)} :
    contains key table = true ↔ key ∈ keys table := by
  rw [← Bool.not_eq_false, contains_eq_false_iff, get?_eq_none_iff, Classical.not_not]

theorem eq_nil_iff {table : List (κ × α)} : table = [] ↔ ∀ key, contains key table = false := by
  constructor
  · rintro rfl key
    rfl
  · intro absent
    refine List.eq_nil_iff_forall_not_mem.mpr fun e member => ?_
    have present := contains_iff_mem_keys.mpr (List.mem_map_of_mem (f := Prod.fst) member)
    rw [absent] at present
    cases present

theorem contains_insert (key other : κ) (value : α) (table : List (κ × α)) :
    contains other (insert key value table) = (decide (other = key) || contains other table) := by
  by_cases same : other = key <;> simp [contains, get?_insert, same]

theorem contains_erase (key other : κ) (table : List (κ × α)) :
    contains other (erase key table) = (!decide (other = key) && contains other table) := by
  by_cases same : other = key <;> simp [contains, get?_erase, same]

theorem mem_of_get? {key : κ} {value : α} {table : List (κ × α)}
    (found : get? key table = some value) : (key, value) ∈ table := by
  induction table with
  | nil => simp [get?] at found
  | cons e rest ih =>
    obtain ⟨k, v⟩ := e
    by_cases h : k = key
    · simp only [get?, h, if_true, Option.some.injEq] at found
      simp [h, found]
    · simp only [get?, h, if_false] at found
      exact List.mem_cons_of_mem _ (ih found)

theorem get?_of_mem {key : κ} {value : α} {table : List (κ × α)} (nodup : (keys table).Nodup)
    (member : (key, value) ∈ table) : get? key table = some value := by
  induction table with
  | nil => simp at member
  | cons e rest ih =>
    obtain ⟨k, v⟩ := e
    obtain ⟨fresh, nodupRest⟩ := List.nodup_cons.mp nodup
    rcases List.mem_cons.mp member with same | later
    · cases same
      simp [get?]
    · have apart : k ≠ key := fun same => fresh (same ▸ List.mem_map.mpr ⟨_, later, rfl⟩)
      simp [get?, apart, ih nodupRest later]

theorem mem_iff_get? {key : κ} {value : α} {table : List (κ × α)} (nodup : (keys table).Nodup) :
    (key, value) ∈ table ↔ get? key table = some value :=
  ⟨get?_of_mem nodup, mem_of_get?⟩

theorem insert_of_absent {key : κ} {table : List (κ × α)} (absent : get? key table = none)
    (value : α) : insert key value table = table ++ [(key, value)] := by
  induction table with
  | nil => rfl
  | cons e rest ih =>
    obtain ⟨k, v⟩ := e
    by_cases h : k = key
    · simp [get?, h] at absent
    · simp only [get?, h, if_false] at absent
      simp [insert, h, ih absent]

theorem erase_of_absent {key : κ} {table : List (κ × α)} (absent : get? key table = none) :
    erase key table = table := by
  rw [get?_eq_none_iff] at absent
  apply List.filter_eq_self.mpr
  intro e member
  have apart : e.1 ≠ key := fun same => absent (same ▸ List.mem_map.mpr ⟨e, member, rfl⟩)
  simp [apart]

omit [DecidableEq κ] in
theorem nodup_keys_filter {table : List (κ × α)} (nodup : (keys table).Nodup)
    (p : κ × α → Bool) : (keys (table.filter p)).Nodup :=
  nodup.sublist (List.filter_sublist.map _)

theorem nodup_keys_erase {table : List (κ × α)} (nodup : (keys table).Nodup) (key : κ) :
    (keys (erase key table)).Nodup := nodup_keys_filter nodup _

theorem get?_insertAll (key : κ) (table entries : List (κ × α)) :
    get? key (insertAll table entries) = (get? key entries.reverse).or (get? key table) := by
  induction entries generalizing table with
  | nil => simp [insertAll, get?]
  | cons e rest ih =>
    have unfolded : insertAll table (e :: rest) = insertAll (insert e.1 e.2 table) rest := rfl
    rw [unfolded, ih, List.reverse_cons, get?_append, get?_insert]
    obtain ⟨k, v⟩ := e
    by_cases same : key = k
    · subst same
      cases get? key rest.reverse <;> simp [get?]
    · have other : k ≠ key := fun h => same h.symm
      cases get? key rest.reverse <;> simp [get?, same, other]

theorem mem_insert {key : κ} {value : α} {e : κ × α} {table : List (κ × α)}
    (member : e ∈ insert key value table) : e.2 = value ∨ e ∈ table := by
  induction table with
  | nil => simp_all [insert]
  | cons first rest ih =>
    obtain ⟨k, v⟩ := first
    by_cases same : k = key
    · simp only [insert, same, if_true, List.mem_cons] at member
      rcases member with rfl | later
      · exact Or.inl rfl
      · exact Or.inr (List.mem_cons_of_mem _ later)
    · simp only [insert, same, if_false, List.mem_cons] at member
      rcases member with rfl | later
      · exact Or.inr List.mem_cons_self
      · exact (ih later).imp_right (List.mem_cons_of_mem _)

theorem length_insert_le (key : κ) (value : α) (table : List (κ × α)) :
    (insert key value table).length ≤ table.length + 1 := by
  have keysAfter := keys_insert key value table
  have length : (insert key value table).length = (keys (insert key value table)).length :=
    (List.length_map _).symm
  rw [length, keysAfter]
  split <;> simp [keys]

theorem mem_insertAll {e : κ × α} {table entries : List (κ × α)}
    (member : e ∈ insertAll table entries) : e ∈ table ∨ ∃ given ∈ entries, e.2 = given.2 := by
  induction entries generalizing table with
  | nil => exact Or.inl member
  | cons first rest ih =>
    rcases ih member with before | ⟨given, later, same⟩
    · rcases mem_insert before with same | before
      · exact Or.inr ⟨first, List.mem_cons_self, same⟩
      · exact Or.inl before
    · exact Or.inr ⟨given, List.mem_cons_of_mem _ later, same⟩

theorem length_insertAll_le (table entries : List (κ × α)) :
    (insertAll table entries).length ≤ table.length + entries.length := by
  induction entries generalizing table with
  | nil => simp [insertAll]
  | cons first rest ih =>
    have all := ih (insert first.1 first.2 table)
    have one := length_insert_le first.1 first.2 table
    simp only [insertAll, List.foldl_cons, List.length_cons] at all ⊢
    omega

omit [DecidableEq κ] in
theorem keys_cons (e : κ × α) (table : List (κ × α)) : keys (e :: table) = e.1 :: keys table := rfl

theorem eq_of_keys {table table' : List (κ × α)} (distinct : (keys table).Nodup)
    (order : keys table' = keys table)
    (found : ∀ key ∈ keys table, get? key table' = get? key table) : table' = table := by
  induction table generalizing table' with
  | nil => simpa [keys] using order
  | cons e rest ih =>
    cases table' with
    | nil => simp [keys] at order
    | cons e' rest' =>
      obtain ⟨k, v⟩ := e
      obtain ⟨k', v'⟩ := e'
      obtain ⟨rfl, following⟩ : k' = k ∧ keys rest' = keys rest := by
        simpa [keys_cons] using order
      obtain ⟨fresh, distinct⟩ := List.nodup_cons.mp distinct
      have first : v' = v := by
        simpa [get?] using found k' (by simp [keys_cons])
      have later : rest' = rest := by
        refine ih distinct following fun key member => ?_
        have apart : k' ≠ key := fun same => fresh (same ▸ member)
        simpa [get?, apart] using found key (List.mem_cons_of_mem _ member)
      rw [first, later]

theorem get?_reverse {table : List (κ × α)} (distinct : (keys table).Nodup) (key : κ) :
    get? key table.reverse = get? key table := by
  induction table with
  | nil => rfl
  | cons e rest ih =>
    obtain ⟨k, v⟩ := e
    obtain ⟨fresh, distinct⟩ := List.nodup_cons.mp distinct
    rw [List.reverse_cons, get?_append, ih distinct]
    by_cases same : k = key
    · subst same
      simp [get?, get?_eq_none_iff.mpr fresh]
    · simp [get?, same]

theorem keys_insertAll {entries : List (κ × α)} (distinct : (keys entries).Nodup)
    (table : List (κ × α)) :
    keys (insertAll table entries) =
      keys table ++ (keys entries).filter fun key => key ∉ keys table := by
  induction entries generalizing table with
  | nil => simp [insertAll, keys]
  | cons e rest ih =>
    obtain ⟨fresh, distinct⟩ := List.nodup_cons.mp distinct
    have first : keys (insertAll table (e :: rest)) =
        keys (insertAll (insert e.1 e.2 table) rest) := rfl
    rw [first, ih distinct, keys_insert, keys_cons]
    by_cases known : e.1 ∈ keys table
    · simp [known]
    · have others : ∀ key ∈ keys rest, decide (key ∉ keys table ++ [e.1]) =
          decide (key ∉ keys table) := by
        intro key member
        have apart : key ≠ e.1 := by
          intro same
          subst same
          exact fresh member
        simp [apart]
      rw [if_neg known, List.filter_congr others]
      simp [known]

theorem insertAll_of_nodup {entries : List (κ × α)} (distinct : (keys entries).Nodup) :
    insertAll [] entries = entries := by
  refine eq_of_keys distinct ?_ fun key _ => ?_
  · have nothing : keys ([] : List (κ × α)) = [] := rfl
    simp [keys_insertAll distinct, nothing]
  · simp [get?_insertAll, get?_reverse distinct, get?]

omit [DecidableEq κ] in
theorem keys_map_keyed (f : κ → α → β) (table : List (κ × α)) :
    keys (table.map fun e => (e.1, f e.1 e.2)) = keys table := by
  simp [keys]

theorem insertAll_append (table entries later : List (κ × α)) :
    insertAll table (entries ++ later) = insertAll (insertAll table entries) later :=
  List.foldl_append

theorem insert_map_values (f : α → β) (key : κ) (value : α) (table : List (κ × α)) :
    insert key (f value) (table.map fun e => (e.1, f e.2)) =
      (insert key value table).map fun e => (e.1, f e.2) := by
  induction table with
  | nil => rfl
  | cons e rest ih =>
    obtain ⟨k, v⟩ := e
    by_cases same : k = key <;> simp [insert, same, ih]

theorem insertAll_map_values (f : α → β) (table entries : List (κ × α)) :
    insertAll (table.map fun e => (e.1, f e.2)) (entries.map fun e => (e.1, f e.2)) =
      (insertAll table entries).map fun e => (e.1, f e.2) := by
  induction entries generalizing table with
  | nil => rfl
  | cons e rest ih =>
    have next := ih (insert e.1 e.2 table)
    rw [← insert_map_values] at next
    exact next

end LiveProbe.Table
