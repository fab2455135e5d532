import LiveProbe.Proofs.Payload.Records

/-!
What is asked of a payload: that what is written is read back, and that nothing else is read than
what can be written. Words, texts and numbers are payloads, and so are free-form documents and
lists, pairs and named values of payloads.
-/
namespace LiveProbe

open Json Outline

structure Freeform where
  given : List Json := []
  listed : List Json := []
  ordered : Prop := True

namespace Freeform

/-- What a value can hold: its documents are sound and what it keeps in order is in order. No field
that may be left out is given as null instead. -/
structure Proper (f : Freeform) : Prop where
  given : ∀ j ∈ f.given, j ≠ .null
  sound : ∀ j ∈ f.given ++ f.listed, j.Every Sound
  ordered : f.ordered

def Whole (f : Freeform) : Prop := ∀ j ∈ f.given ++ f.listed, j.Every Json.Whole

def join (fs : List Freeform) : Freeform where
  given := fs.flatMap (·.given)
  listed := fs.flatMap (·.listed)
  ordered := ∀ f ∈ fs, f.ordered

theorem proper_join (fs : List Freeform) : (join fs).Proper ↔ ∀ f ∈ fs, f.Proper := by
  have documents : (∀ j ∈ fs.flatMap (·.given) ++ fs.flatMap (·.listed), j.Every Sound) ↔
      ∀ f ∈ fs, ∀ j ∈ f.given ++ f.listed, j.Every Sound := by
    simp only [List.forall_mem_append, List.forall_mem_flatMap]
    exact ⟨fun both f member => ⟨both.1 f member, both.2 f member⟩,
      fun each => ⟨fun f member => (each f member).1, fun f member => (each f member).2⟩⟩
  constructor
  · intro proper f member
    exact ⟨List.forall_mem_flatMap.mp proper.given f member, documents.mp proper.sound f member,
      proper.ordered f member⟩
  · intro each
    exact ⟨List.forall_mem_flatMap.mpr fun f member => (each f member).given,
      documents.mpr fun f member => (each f member).sound, fun f member => (each f member).ordered⟩

theorem whole_join (fs : List Freeform) : (join fs).Whole ↔ ∀ f ∈ fs, f.Whole := by
  simp only [Whole, join, List.forall_mem_append, List.forall_mem_flatMap]
  exact ⟨fun both f member => ⟨both.1 f member, both.2 f member⟩,
    fun each => ⟨fun f member => (each f member).1, fun f member => (each f member).2⟩⟩

theorem proper_empty : ({} : Freeform).Proper := ⟨nofun, nofun, trivial⟩

/-- What holds of a whole just if it holds of its parts. -/
def Hereditary (C : Freeform → Prop) : Prop := ∀ fs, C (join fs) ↔ ∀ f ∈ fs, C f

theorem Hereditary.empty {C : Freeform → Prop} (hereditary : Hereditary C) : C {} := by
  have none : join [] = {} := by simp [join]
  exact none ▸ (hereditary []).mpr nofun

end Freeform

/-- How a payload is read and written, and what is free-form in it. -/
structure Payload (α : Type) where
  decode? : Nat → Outline → Option α
  encode : α → Json
  free : α → Freeform := fun _ => {}

namespace Payload

variable {α : Type} {p : Payload α} {below levels : Nat}

def Restored (p : Payload α) (levels : Nat) (x : α) : Prop :=
  p.decode? levels (p.encode x).outline = some x ∧ (p.encode x).Every Json.Whole

def Confined (p : Payload α) (levels : Nat) (x : α) : Prop :=
  (p.free x).Proper ∧ (p.encode x).depth ≤ levels

/-- Read from these levels, a value that is no deeper is read back, and what is read is proper and
no deeper. -/
structure Lawful (p : Payload α) (levels : Nat) : Prop where
  restores : ∀ x, (p.free x).Proper → (p.free x).Whole → (p.encode x).depth ≤ levels →
    p.Restored levels x
  confines : ∀ o x, p.decode? levels o = some x → p.Confined levels x

def plain (read : Outline → Option α) (write : α → Json) : Payload α where
  decode? _ := read
  encode := write

def document : Payload Json where
  decode? levels
    | .null => none
    | o => toJson? levels o
  encode j := j
  free j := { given := [j] }

def element : Payload Json where
  decode? := toJson?
  encode j := j
  free j := { listed := [j] }

def items (p : Payload α) : Payload (List α) where
  decode? := items? p.decode?
  encode xs := .array (xs.map p.encode)
  free xs := .join (xs.map p.free)

def named (p : Payload α) : Payload (List (String × α)) where
  decode? := members? p.decode?
  encode xs := .object (xs.map fun m => (m.1, p.encode m.2))
  free xs := .join (xs.map fun m => p.free m.2)

def pair (p : Payload α) : Payload (α × α) where
  decode?
    | levels + 1, .array [k, v] => do return (← p.decode? levels k, ← p.decode? levels v)
    | _, _ => none
  encode x := .array [p.encode x.1, p.encode x.2]
  free x := .join [p.free x.1, p.free x.2]

def nullable (p : Payload α) : Payload (Option α) where
  decode? levels o := optional (p.decode? levels) (some o)
  encode x := (x.map p.encode).getD .null
  free x := .join (x.toList.map p.free)

theorem lawful_plain {read : Outline → Option α} {write : α → Json}
    (restores : ∀ x, read (write x).outline = some x) (whole : ∀ x, (write x).Every Json.Whole)
    (shallow : ∀ x, (write x).depth = 0) : (plain read write).Lawful levels where
  restores x _ _ _ := ⟨restores x, whole x⟩
  confines _ x _ := ⟨Freeform.proper_empty, (shallow x).trans_le (Nat.zero_le levels)⟩

theorem proper_document {j : Json} : (document.free j).Proper ↔ j ≠ .null ∧ j.Every Sound := by
  constructor
  · intro proper
    exact ⟨proper.given j List.mem_cons_self, proper.sound j List.mem_cons_self⟩
  · rintro ⟨filled, sound⟩
    exact ⟨List.forall_mem_singleton.mpr filled, List.forall_mem_singleton.mpr sound, trivial⟩

theorem whole_document {j : Json} : (document.free j).Whole ↔ j.Every Json.Whole :=
  List.forall_mem_singleton

theorem lawful_document : document.Lawful levels where
  restores j proper whole fits := by
    obtain ⟨filled, sound⟩ := proper_document.mp proper
    have notNull : j.outline ≠ .null := by
      cases j <;> first | exact absurd rfl filled | exact nofun
    have written := whole_document.mp whole
    refine ⟨?_, written⟩
    simpa only [document, notNull] using toJson?_outline fits sound written
  confines o j reads := by
    simp only [document] at reads
    split at reads
    · cases reads
    · next filled =>
      obtain ⟨sound, fits⟩ := sound_of_toJson? reads
      refine ⟨proper_document.mpr ⟨?_, sound⟩, fits⟩
      rintro rfl
      exact filled (toJson?_null reads)

theorem lawful_element : element.Lawful levels where
  restores j proper whole fits :=
    ⟨toJson?_outline fits (proper.sound j List.mem_cons_self) (whole j List.mem_cons_self),
      whole j List.mem_cons_self⟩
  confines o j reads := by
    obtain ⟨sound, fits⟩ := sound_of_toJson? reads
    exact ⟨⟨nofun, List.forall_mem_singleton.mpr sound, trivial⟩, fits⟩

theorem exists_of_items? {read : Nat → Outline → Option α} {o : Outline} {xs : List α}
    (reads : items? read levels o = some xs) :
    ∃ below, ∃ os : List Outline, levels = below + 1 ∧ os.mapM (read below) = some xs := by
  rcases levels with _ | below
  · cases o <;> cases reads
  · cases o with
    | array os => exact ⟨below, os, rfl, reads⟩
    | _ => cases reads

theorem exists_of_members? {read : Nat → Outline → Option α} {o : Outline}
    {xs : List (String × α)} (reads : members? read levels o = some xs) :
    ∃ below, ∃ os : List (List Char × Outline), levels = below + 1 ∧
      os.mapM (named? (read below)) = some xs := by
  rcases levels with _ | below
  · cases o <;> cases reads
  · cases o with
    | object os => exact ⟨below, os, rfl, reads⟩
    | _ => cases reads

section Lists

variable (law : ∀ below < levels, p.Lawful below)
include law

theorem lawful_items : p.items.Lawful levels where
  restores xs proper whole fits := by
    obtain ⟨below, rfl, depths⟩ := depth_array_le.mp fits
    have propers := List.forall_mem_map.mp ((Freeform.proper_join _).mp proper)
    have wholes := List.forall_mem_map.mp ((Freeform.whole_join _).mp whole)
    have each : ∀ x ∈ xs, p.Restored below x := fun x member =>
      (law below (Nat.lt_succ_self below)).restores x (propers x member) (wholes x member)
        (depths _ (List.mem_map_of_mem member))
    constructor
    · show (outlineItems (xs.map p.encode)).mapM (p.decode? below) = _
      rw [outlineItems_eq, List.map_map]
      exact mapM_map_eq_some fun x member => (each x member).1
    · exact every_array.mpr ⟨trivial, List.forall_mem_map.mpr fun x member => (each x member).2⟩
  confines o xs reads := by
    obtain ⟨below, os, rfl, readsAll⟩ := exists_of_items? reads
    have each : ∀ x ∈ xs, p.Confined below x := by
      intro x member
      obtain ⟨o, -, readsOne⟩ := exists_of_mem_mapM readsAll member
      exact (law below (Nat.lt_succ_self below)).confines o x readsOne
    exact ⟨(Freeform.proper_join _).mpr (List.forall_mem_map.mpr fun x member => (each x member).1),
      depth_array_le.mpr ⟨below, rfl, List.forall_mem_map.mpr fun x member => (each x member).2⟩⟩

theorem lawful_named : p.named.Lawful levels where
  restores xs proper whole fits := by
    obtain ⟨below, rfl, depths⟩ := depth_object_le.mp fits
    have propers := List.forall_mem_map.mp ((Freeform.proper_join _).mp proper)
    have wholes := List.forall_mem_map.mp ((Freeform.whole_join _).mp whole)
    have each : ∀ m ∈ xs, p.Restored below m.2 := fun m member =>
      (law below (Nat.lt_succ_self below)).restores m.2 (propers m member) (wholes m member)
        (depths _ (List.mem_map_of_mem (f := fun m => (m.1, p.encode m.2)) member))
    constructor
    · exact mapM_named? fun m member => (each m member).1
    · exact every_object.mpr ⟨trivial, List.forall_mem_map.mpr fun m member => (each m member).2⟩
  confines o xs reads := by
    obtain ⟨below, os, rfl, readsAll⟩ := exists_of_members? reads
    have each : ∀ m ∈ xs, p.Confined below m.2 := by
      intro m member
      obtain ⟨o, readsOne⟩ := exists_of_mem_named? readsAll member
      exact (law below (Nat.lt_succ_self below)).confines o m.2 readsOne
    exact ⟨(Freeform.proper_join _).mpr (List.forall_mem_map.mpr fun m member => (each m member).1),
      depth_object_le.mpr ⟨below, rfl, List.forall_mem_map.mpr fun m member => (each m member).2⟩⟩

theorem lawful_pair : p.pair.Lawful levels where
  restores x proper whole fits := by
    obtain ⟨below, rfl, depths⟩ := depth_array_le.mp fits
    have propers := (Freeform.proper_join _).mp proper
    have wholes := (Freeform.whole_join _).mp whole
    simp only [List.forall_mem_cons, List.not_mem_nil, false_implies, implies_true, and_true]
      at propers wholes depths
    have here := law below (Nat.lt_succ_self below)
    have key := here.restores x.1 propers.1 wholes.1 depths.1
    have value := here.restores x.2 propers.2 wholes.2 depths.2
    constructor
    · show (do return (← p.decode? below (p.encode x.1).outline,
        ← p.decode? below (p.encode x.2).outline)) = _
      rw [key.1, value.1]
      rfl
    · exact every_array.mpr ⟨trivial, List.forall_mem_cons.mpr ⟨key.2,
        List.forall_mem_singleton.mpr value.2⟩⟩
  confines o x reads := by
    simp only [pair] at reads
    split at reads
    · next below k v =>
      obtain ⟨key, readsKey, value, readsValue, rfl⟩ := by
        simpa only [Option.bind_eq_bind, Option.bind_eq_some_iff, Option.pure_def,
          Option.some.injEq] using reads
      have here := law below (Nat.lt_succ_self below)
      obtain ⟨properKey, fitsKey⟩ := here.confines k key readsKey
      obtain ⟨properValue, fitsValue⟩ := here.confines v value readsValue
      exact ⟨(Freeform.proper_join _).mpr (List.forall_mem_cons.mpr ⟨properKey,
          List.forall_mem_singleton.mpr properValue⟩),
        depth_array_le.mpr ⟨below, rfl, List.forall_mem_cons.mpr ⟨fitsKey,
          List.forall_mem_singleton.mpr fitsValue⟩⟩⟩
    · cases reads

end Lists

/-! How the slots of a record are read. -/

theorem bind_of_eq_some {β γ : Type} {read : Option β} {next : β → Option γ} {x : β} {y : γ}
    (reads : read = some x) (goesOn : next x = some y) : (read >>= next) = some y := by
  rw [reads]
  exact goesOn

theorem outline_ne_null {j : Json} (filled : j ≠ .null) : j.outline ≠ .null := by
  cases j with
  | null => exact absurd rfl filled
  | _ => exact nofun

theorem required_eq {x : α} (restored : p.Restored below x) :
    required (p.decode? below) (some (p.encode x).outline) = some x := restored.1

theorem optional_eq {x : Option α} (filled : ∀ y ∈ x, p.encode y ≠ .null)
    (restored : ∀ y ∈ x, p.Restored below y) :
    Outline.optional (p.decode? below) ((x.map p.encode).map outline) = some x := by
  cases x with
  | none => rfl
  | some y =>
    have there := outline_ne_null (filled y rfl)
    show Outline.optional (p.decode? below) (some (p.encode y).outline) = _
    rw [Outline.optional.eq_3 _ _ there, (restored y rfl).1]
    rfl

theorem confined_of_required {part : Option Outline} {x : α} (law : p.Lawful below)
    (reads : required (p.decode? below) part = some x) : ∀ y ∈ some x, p.Confined below y := by
  rintro y ⟨⟩
  obtain ⟨o, -, readsPart⟩ := Option.bind_eq_some_iff.mp reads
  exact law.confines o x readsPart

theorem confined_of_optional {part : Option Outline} {x : Option α} (law : p.Lawful below)
    (reads : Outline.optional (p.decode? below) part = some x) : ∀ y ∈ x, p.Confined below y := by
  rintro y rfl
  rcases part with _ | o
  · cases reads
  · by_cases null : o = .null
    · rw [null] at reads
      cases reads
    · rw [Outline.optional.eq_3 _ _ null] at reads
      obtain ⟨_, readsPart, same⟩ := Option.map_eq_some_iff.mp reads
      exact law.confines o y (same ▸ readsPart)

theorem optional_document (levels : Nat) (part : Option Outline) :
    Outline.optional (toJson? levels) part = Outline.optional (document.decode? levels) part := by
  rcases part with _ | o
  · rfl
  · cases o <;> rfl

theorem optional_document_eq {x : Option Json} (restored : ∀ j ∈ x, document.Restored below j) :
    Outline.optional (toJson? below) ((x.map document.encode).map outline) = some x := by
  refine (optional_document below _).trans (optional_eq (fun j held => ?_) restored)
  rintro null
  obtain ⟨reads, -⟩ := restored j held
  change j = .null at null
  rw [null] at reads
  cases reads

theorem confined_nullable {x : Option α} (each : ∀ y ∈ x, p.Confined below y) :
    ∀ z ∈ some x, p.nullable.Confined below z := by
  rintro z ⟨⟩
  cases x with
  | none => exact ⟨(Freeform.proper_join _).mpr nofun, Nat.zero_le _⟩
  | some y =>
    obtain ⟨proper, fits⟩ := each y rfl
    exact ⟨(Freeform.proper_join _).mpr (List.forall_mem_singleton.mpr proper), fits⟩

theorem lawful_nullable (filled : ∀ x, p.encode x ≠ .null) (law : p.Lawful levels) :
    p.nullable.Lawful levels where
  restores x proper whole fits := by
    cases x with
    | none => exact ⟨rfl, by simp [nullable, Every, parts, Json.Whole]⟩
    | some y =>
      have restored := law.restores y ((Freeform.proper_join _).mp proper _ List.mem_cons_self)
        ((Freeform.whole_join _).mp whole _ List.mem_cons_self) fits
      refine ⟨?_, restored.2⟩
      have present : ∀ z ∈ some y, p.Restored levels z := by
        rintro z ⟨⟩
        exact restored
      exact optional_eq (fun z _ => filled z) present
  confines o x reads := by
    have present : Outline.optional (p.decode? levels) (some o) = some x := reads
    exact confined_nullable (confined_of_optional law present) x rfl

end Payload

structure Slot where
  {α : Type}
  name : String
  payload : Payload α
  value : Option α

namespace Slot

variable {slots : List Slot} {levels below : Nat}

def document (s : Slot) : Option Json := s.value.map s.payload.encode

theorem document_free (name : String) (value : Option Json) :
    document ⟨name, .document, value⟩ = value := Option.map_id'

def free (s : Slot) : Freeform := .join (s.value.toList.map s.payload.free)

theorem free_iff {C : Freeform → Prop} (hereditary : Freeform.Hereditary C) (s : Slot) :
    C s.free ↔ ∀ x ∈ s.value, C (s.payload.free x) := by
  refine (hereditary _).trans ?_
  simp only [List.forall_mem_map, Option.mem_toList, Option.mem_def]

def record (slots : List Slot) : Json := Json.record (slots.map fun s => (s.name, s.document))

def freeform (slots : List Slot) : Freeform := .join (slots.map free)

theorem freeform_iff {C : Freeform → Prop} (hereditary : Freeform.Hereditary C) :
    C (freeform slots) ↔ ∀ s ∈ slots, ∀ x ∈ s.value, C (s.payload.free x) := by
  refine (hereditary _).trans ?_
  simp only [List.forall_mem_map, free_iff hereditary]

theorem restored_record (distinct : (slots.map (·.name)).Nodup)
    (law : ∀ below < levels, ∀ s ∈ slots, s.payload.Lawful below)
    (proper : (freeform slots).Proper) (whole : (freeform slots).Whole)
    (fits : (record slots).depth ≤ levels) :
    ∃ below, levels = below + 1 ∧
      record? (slots.map (·.name)) levels (record slots).outline =
        some (slots.map fun s => s.document.map outline) ∧
      (∀ s ∈ slots, ∀ x ∈ s.value, s.payload.Restored below x) ∧
      (record slots).Every Json.Whole := by
  obtain ⟨below, rfl, depths⟩ := depth_record_le.mp fits
  have each : ∀ s ∈ slots, ∀ x ∈ s.value, s.payload.Restored below x := by
    intro s member x filled
    refine (law below (Nat.lt_succ_self below) s member).restores x
      ((freeform_iff Freeform.proper_join).mp proper s member x filled)
      ((freeform_iff Freeform.whole_join).mp whole s member x filled) ?_
    exact depths _ (List.mem_map_of_mem member) _ (Option.mem_map_of_mem _ filled)
  have names : (slots.map fun s => (s.name, s.document)).map (·.1) = slots.map (·.name) := by
    rw [List.map_map]
    rfl
  refine ⟨below, rfl, ?_, each, whole_record.mpr ?_⟩
  · have read := record?_record (names ▸ distinct) below
    rw [names, List.map_map] at read
    exact read
  · refine List.forall_mem_map.mpr fun s member v filled => ?_
    obtain ⟨x, held, rfl⟩ := Option.map_eq_some_iff.mp filled
    exact (each s member x held).2

theorem confined_record (each : ∀ s ∈ slots, ∀ x ∈ s.value, s.payload.Confined below x) :
    (freeform slots).Proper ∧ (record slots).depth ≤ below + 1 := by
  constructor
  · exact (freeform_iff Freeform.proper_join).mpr fun s member x held => (each s member x held).1
  · refine depth_record_le.mpr ⟨below, rfl, List.forall_mem_map.mpr fun s member v filled => ?_⟩
    obtain ⟨x, held, rfl⟩ := Option.map_eq_some_iff.mp filled
    exact (each s member x held).2

theorem lawful_record {α : Type} {p : Payload α} {slots : α → List Slot} (names : List String)
    (distinct : names.Nodup) (named : ∀ x, (slots x).map (·.name) = names)
    (encode : ∀ x, p.encode x = record (slots x))
    (free : ∀ C, Freeform.Hereditary C → ∀ x, C (p.free x) ↔ C (freeform (slots x)))
    (law : ∀ below < levels, ∀ x, ∀ s ∈ slots x, s.payload.Lawful below)
    (restores : ∀ below o x,
      record? names (below + 1) o = some ((slots x).map fun s => s.document.map outline) →
      (∀ s ∈ slots x, ∀ y ∈ s.value, s.payload.Restored below y) →
      p.decode? (below + 1) o = some x)
    (stops : ∀ o, p.decode? 0 o = none)
    (confines : ∀ below < levels, ∀ o x, p.decode? (below + 1) o = some x →
      ∀ s ∈ slots x, ∀ y ∈ s.value, s.payload.Confined below y) : p.Lawful levels where
  restores x proper whole fits := by
    rw [encode x] at fits
    obtain ⟨below, rfl, read, each, wholeAll⟩ := restored_record (named x ▸ distinct)
      (fun below less => law below less x) ((free _ Freeform.proper_join x).mp proper)
      ((free _ Freeform.whole_join x).mp whole) fits
    rw [named x] at read
    unfold Payload.Restored
    rw [encode x]
    exact ⟨restores below _ x read each, wholeAll⟩
  confines o x reads := by
    rcases levels with _ | below
    · cases (stops o).symm.trans reads
    · obtain ⟨proper, fits⟩ := confined_record (confines below (Nat.lt_succ_self below) o x reads)
      exact ⟨(free _ Freeform.proper_join x).mpr proper, (encode x).symm ▸ fits⟩

end Slot
end LiveProbe
