import LiveProbe.Json.Decode
import LiveProbe.Proofs.Json.Parts

/-!
Free-form documents written and read. What is read has its members in order and numbers that fit,
and is nested no deeper than the levels allow; a document of that kind is read back from its text.
-/
namespace LiveProbe

section Lists

variable {α β : Type}

theorem mapM_map_eq_some {read : β → Option α} {write : α → β} {as : List α}
    (restores : ∀ a ∈ as, read (write a) = some a) : (as.map write).mapM read = some as := by
  induction as with
  | nil => rfl
  | cons a rest ih =>
    obtain ⟨first, others⟩ := List.forall_mem_cons.mp restores
    rw [List.map_cons, List.mapM_cons, first, ih others]
    rfl

theorem exists_of_mem_mapM {read : β → Option α} {bs : List β} {as : List α}
    (reads : bs.mapM read = some as) {a : α} (member : a ∈ as) : ∃ b ∈ bs, read b = some a := by
  induction bs generalizing as with
  | nil =>
    cases reads
    cases member
  | cons b rest ih =>
    rw [List.mapM_cons] at reads
    obtain ⟨first, readsFirst, others, readsOthers, same⟩ := by
      simpa [Option.bind_eq_some_iff] using reads
    subst same
    rcases List.mem_cons.mp member with rfl | later
    · exact ⟨b, List.mem_cons_self, readsFirst⟩
    · obtain ⟨c, among, readsLater⟩ := ih readsOthers later
      exact ⟨c, List.mem_cons_of_mem _ among, readsLater⟩

end Lists

namespace Json

theorem insertSorted_eq (name : String) (value : Json) (members : List (String × Json)) :
    insertSorted name value members = Table.place name value members := by
  induction members with
  | nil => rfl
  | cons m rest ih => rw [insertSorted, Table.place, ih]

namespace Outline

theorem itemsToJson?_eq (levels : Nat) (items : List Outline) :
    itemsToJson? levels items = items.mapM (toJson? levels) := by
  induction items with
  | nil => rfl
  | cons v rest ih => rw [itemsToJson?, ih, List.mapM_cons]

def named? {α : Type} (read : Outline → Option α) (m : List Char × Outline) :
    Option (String × α) := do
  return (← textOfBody? m.1, ← read m.2)

theorem membersToJson?_eq (levels : Nat) (members : List (List Char × Outline))
    (sorted : List (String × Json)) : membersToJson? levels members sorted =
      (members.mapM (named? (toJson? levels))).map (Table.placeAll sorted) := by
  induction members generalizing sorted with
  | nil => rfl
  | cons m rest ih =>
    rw [membersToJson?, List.mapM_cons, named?]
    cases textOfBody? m.1 with
    | none => rfl
    | some n =>
      cases toJson? levels m.2 with
      | none => rfl
      | some v =>
        simp only [Option.bind_eq_bind, Option.bind_some, Option.pure_def, ih, insertSorted_eq]
        cases rest.mapM (named? (toJson? levels)) <;> rfl

theorem mapM_named? {α : Type} {read : Outline → Option α} {write : α → Json}
    {members : List (String × α)} (restores : ∀ m ∈ members, read (write m.2).outline = some m.2) :
    (outlineMembers (members.map fun m => (m.1, write m.2))).mapM (named? read) = some members := by
  rw [outlineMembers_eq, List.map_map]
  refine mapM_map_eq_some fun m member => ?_
  show (do return (← textOfBody? (body m.1), ← read (write m.2).outline)) = _
  rw [textOfBody?_body, restores m member]
  rfl

theorem exists_of_mem_named? {α : Type} {read : Outline → Option α}
    {members : List (List Char × Outline)} {given : List (String × α)}
    (reads : members.mapM (named? read) = some given) {m : String × α} (member : m ∈ given) :
    ∃ o, read o = some m.2 := by
  obtain ⟨⟨n, o⟩, -, readsOne⟩ := exists_of_mem_mapM reads member
  simp only [named?, Option.bind_eq_bind, Option.bind_eq_some_iff, Option.pure_def,
    Option.some.injEq] at readsOne
  obtain ⟨name, -, v, readsValue, rfl⟩ := readsOne
  exact ⟨o, readsValue⟩

theorem toJson?_outline {levels : Nat} {j : Json} (fits : j.depth ≤ levels) (sound : j.Every Sound)
    (whole : j.Every Whole) : toJson? levels j.outline = some j := by
  induction levels using Nat.strong_induction_on generalizing j with
  | _ levels ih =>
    rcases j with _ | b | n | s | items | members
    · rfl
    · rfl
    · rcases n with n | bits
      · have bounds : Fits n := sound (.number (.int n)) (by simp [parts])
        rw [outline, Number.numeral_int, toJson?, Numeral.value?_ofInt bounds]
        rfl
      · cases whole (.number (.float bits)) (by simp [parts])
    · rw [outline, toJson?, textOfBody?_body]
      rfl
    · obtain ⟨below, rfl, depths⟩ := depth_array_le.mp fits
      obtain ⟨-, sounds⟩ := every_array.mp sound
      obtain ⟨-, wholes⟩ := every_array.mp whole
      have read : (items.map outline).mapM (toJson? below) = some items :=
        mapM_map_eq_some fun v member =>
          ih below (Nat.lt_succ_self below) (depths v member) (sounds v member) (wholes v member)
      rw [outline, outlineItems_eq, toJson?, itemsToJson?_eq, read]
      rfl
    -- Members are put in their places one by one; as they come in order, each goes to the end.
    · obtain ⟨below, rfl, depths⟩ := depth_object_le.mp fits
      obtain ⟨ascending, sounds⟩ := every_object.mp sound
      obtain ⟨-, wholes⟩ := every_object.mp whole
      have read : (outlineMembers members).mapM (named? (toJson? below)) = some members := by
        have own : (outlineMembers (members.map fun m => (m.1, id m.2))).mapM
            (named? (toJson? below)) = some members :=
          mapM_named? fun m member => ih below (Nat.lt_succ_self below) (depths m member)
            (sounds m member) (wholes m member)
        rwa [show (members.map fun m => (m.1, id m.2)) = members from List.map_id _] at own
      have placed : Table.placeAll [] members = [] ++ members :=
        Table.placeAll_of_ascending ascending
      rw [outline, toJson?, membersToJson?_eq, read, Option.map_some, placed]
      rfl

theorem sound_of_toJson? {levels : Nat} {o : Outline} {j : Json}
    (reads : toJson? levels o = some j) : j.Every Sound ∧ j.depth ≤ levels := by
  induction levels using Nat.strong_induction_on generalizing o j with
  | _ levels ih =>
    rcases o with _ | b | n | text | items | members
    · cases reads
      exact ⟨by simp [Every, parts, Sound], Nat.zero_le _⟩
    · cases reads
      exact ⟨by simp [Every, parts, Sound], Nat.zero_le _⟩
    · obtain ⟨number, value, rfl⟩ := Option.map_eq_some_iff.mp reads
      refine ⟨?_, Nat.zero_le _⟩
      rcases number with n | bits
      · simpa [Every, parts, Sound] using Numeral.fits_of_value? value
      · simp [Every, parts, Sound]
    · obtain ⟨s, -, rfl⟩ := Option.map_eq_some_iff.mp reads
      exact ⟨by simp [Every, parts, Sound], Nat.zero_le _⟩
    · cases levels with
      | zero => cases reads
      | succ below =>
        rw [toJson?, itemsToJson?_eq] at reads
        obtain ⟨given, readsItems, rfl⟩ := Option.map_eq_some_iff.mp reads
        have each : ∀ v ∈ given, v.Every Sound ∧ v.depth ≤ below := by
          intro v member
          obtain ⟨o, -, readsOne⟩ := exists_of_mem_mapM readsItems member
          exact ih below (Nat.lt_succ_self below) readsOne
        exact ⟨every_array.mpr ⟨trivial, fun v member => (each v member).1⟩,
          depth_array_le.mpr ⟨below, rfl, fun v member => (each v member).2⟩⟩
    · cases levels with
      | zero => cases reads
      | succ below =>
        rw [toJson?, membersToJson?_eq, Option.map_map] at reads
        obtain ⟨given, readsMembers, rfl⟩ := Option.map_eq_some_iff.mp reads
        have each : ∀ m ∈ Table.placeAll [] given, m.2.Every Sound ∧ m.2.depth ≤ below := by
          intro m member
          have among := (Table.mem_placeAll member).resolve_left List.not_mem_nil
          obtain ⟨o, readsOne⟩ := exists_of_mem_named? readsMembers among
          exact ih below (Nat.lt_succ_self below) readsOne
        have ascending : Table.Ascending (Table.placeAll [] given) :=
          Table.ascending_placeAll Table.ascending_nil
        exact ⟨every_object.mpr ⟨ascending, fun m member => (each m member).1⟩,
          depth_object_le.mpr ⟨below, rfl, fun m member => (each m member).2⟩⟩

theorem toJson?_null {levels : Nat} {o : Outline} (reads : toJson? levels o = some .null) :
    o = .null := by
  rcases o with _ | b | n | text | items | members
  · rfl
  · cases reads
  · obtain ⟨_, _, same⟩ := Option.map_eq_some_iff.mp reads
    cases same
  · obtain ⟨_, _, same⟩ := Option.map_eq_some_iff.mp reads
    cases same
  · cases levels with
    | zero => cases reads
    | succ below =>
      obtain ⟨_, _, same⟩ := Option.map_eq_some_iff.mp reads
      cases same
  · cases levels with
    | zero => cases reads
    | succ below =>
      obtain ⟨_, _, same⟩ := Option.map_eq_some_iff.mp reads
      cases same

end Outline
end Json
end LiveProbe
