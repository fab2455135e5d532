import LiveProbe.Proofs.Capture.Tree
import LiveProbe.Proofs.Payload.Laws

/-!
Captured values written and read. A node takes one level, its lists one more and pairs a further
one, so the levels left say how far down nodes are read back.
-/
namespace LiveProbe

open Json Outline
open Payload (bind_of_eq_some required_eq optional_eq optional_document optional_document_eq
  confined_of_required confined_of_optional)

namespace Payload

variable {levels : Nat}

def text : Payload String := plain string? .string

def flag : Payload Bool := plain bool? .bool

def word32 : Payload UInt32 := plain uint32? fun n => .nat n.toNat

def word64 : Payload UInt64 := plain uint64? fun n => .nat n.toNat

def choice {α : Type} (choices : List (String × α)) (word : α → String) : Payload α where
  decode? := choice? choices
  encode x := .string (word x)

theorem whole_of_scalar {j : Json} (alone : j.parts = [j]) (whole : Json.Whole j) :
    j.Every Json.Whole := by
  intro part member
  rw [alone, List.mem_singleton] at member
  exact member ▸ whole

theorem lawful_text : text.Lawful levels :=
  lawful_plain textOfBody?_body (fun _ => whole_of_scalar rfl trivial) fun _ => rfl

theorem lawful_flag : flag.Lawful levels :=
  lawful_plain (fun _ => rfl) (fun _ => whole_of_scalar rfl trivial) fun _ => rfl

theorem nat?_outline {limit n : Nat} (below : n < limit) (word : limit ≤ UInt64.size) :
    nat? limit (Json.nat n).outline = some n := by
  have size : UInt64.size = 18446744073709551616 := rfl
  have fits : Fits n := by
    constructor <;> omega
  rw [Json.nat, outline, Number.numeral_int, nat?, Numeral.value?_ofInt fits]
  simp [below]

theorem lawful_word32 : word32.Lawful levels := by
  refine lawful_plain (fun n => ?_) (fun _ => whole_of_scalar rfl trivial) fun _ => rfl
  rw [uint32?, nat?_outline n.toNat_lt_size (by decide)]
  simp

theorem lawful_word64 : word64.Lawful levels := by
  refine lawful_plain (fun n => ?_) (fun _ => whole_of_scalar rfl trivial) fun _ => rfl
  rw [uint64?, nat?_outline n.toNat_lt_size (by decide)]
  simp

theorem lawful_choice {α : Type} {choices : List (String × α)} {word : α → String}
    (found : ∀ x, Table.get? (word x) choices = some x) : (choice choices word).Lawful levels where
  restores x _ _ _ := by
    refine ⟨?_, whole_of_scalar rfl trivial⟩
    have read : choice? choices levels (.string (body (word x))) =
        textOfBody? (body (word x)) >>= fun s => Table.get? s choices := by
      cases levels <;> rfl
    refine read.trans ?_
    rw [textOfBody?_body]
    exact found x
  confines _ _ _ := ⟨Freeform.proper_empty, Nat.zero_le levels⟩

end Payload

namespace CapturedValue

def free (v : CapturedValue) : Freeform :=
  .join (v.nodes.map fun n => .join (n.value.toList.map Payload.document.free))

def payload : Payload CapturedValue := { decode?, encode, free }

def slots (v : CapturedValue) : List Slot :=
  [⟨"type", .text, some v.typeName⟩, ⟨"value", .document, v.value⟩, ⟨"isNull", .flag, v.isNull⟩,
    ⟨"elements", payload.items, v.elements⟩, ⟨"entries", payload.pair.items, v.entries⟩,
    ⟨"fields", payload.named, v.fields⟩,
    ⟨"notCapturedReason", .choice Omission.words Omission.word, v.omission⟩,
    ⟨"size", .word64, v.size⟩]

theorem encodeElements_eq (vs : List CapturedValue) : encodeElements vs = vs.map encode := by
  induction vs with
  | nil => rfl
  | cons v rest ih => rw [encodeElements, ih, List.map_cons]

theorem encodeEntries_eq (es : List (CapturedValue × CapturedValue)) :
    encodeEntries es = es.map payload.pair.encode := by
  induction es with
  | nil => rfl
  | cons e rest ih =>
    rw [encodeEntries, ih, List.map_cons]
    rfl

theorem encodeFields_eq (fs : List (String × CapturedValue)) :
    encodeFields fs = fs.map fun m => (m.1, m.2.encode) := by
  induction fs with
  | nil => rfl
  | cons f rest ih => rw [encodeFields, ih, List.map_cons]

theorem encode_eq (v : CapturedValue) : v.encode = Slot.record v.slots := by
  obtain ⟨typeName, value, isNull, elements, entries, fields, omission, size⟩ := v
  rw [Slot.record, Json.record, slots]
  simp only [List.map_cons, List.map_nil, List.flatMap_cons, List.flatMap_nil, List.append_nil,
    Slot.document_free]
  cases elements <;> cases entries <;> cases fields <;>
    simp only [encode, encodeElements_eq, encodeEntries_eq, encodeFields_eq] <;> rfl

theorem forall_children {P : CapturedValue → Prop} {v : CapturedValue} :
    (∀ u ∈ v.children, P u) ↔ (∀ us ∈ v.elements, ∀ u ∈ us, P u) ∧
      (∀ es ∈ v.entries, ∀ e ∈ es, ∀ u ∈ [e.1, e.2], P u) ∧
      (∀ fs ∈ v.fields, ∀ f ∈ fs, P f.2) := by
  obtain ⟨typeName, value, isNull, elements, entries, fields, omission, size⟩ := v
  simp only [children, List.forall_mem_append, List.forall_mem_flatMap, List.forall_mem_map,
    and_assoc]
  refine and_congr ?_ (and_congr ?_ ?_)
  · cases elements <;> simp
  · cases entries <;> simp
  · cases fields <;> simp

theorem free_iff_nodes {C : Freeform → Prop} (hereditary : Freeform.Hereditary C)
    (v : CapturedValue) :
    C v.free ↔ ∀ n ∈ v.nodes, ∀ j ∈ n.value, C (Payload.document.free j) := by
  refine (hereditary _).trans (List.forall_mem_map.trans (forall₂_congr fun n _ => ?_))
  exact Slot.free_iff hereditary ⟨"value", .document, n.value⟩

theorem free_iff {C : Freeform → Prop} (hereditary : Freeform.Hereditary C) (v : CapturedValue) :
    C v.free ↔ C (Slot.freeform v.slots) := by
  have parts : C v.free ↔
      (∀ j ∈ v.value, C (Payload.document.free j)) ∧ ∀ u ∈ v.children, C u.free := by
    simp only [free_iff_nodes hereditary]
    rw [nodes_eq, List.forall_mem_cons, List.forall_mem_flatMap]
  have elements : ∀ us, C (payload.items.free us) ↔ ∀ u ∈ us, C u.free := fun us =>
    (hereditary _).trans List.forall_mem_map
  have fields : ∀ fs, C (payload.named.free fs) ↔ ∀ f ∈ fs, C f.2.free := fun fs =>
    (hereditary _).trans List.forall_mem_map
  have entries : ∀ es, C (payload.pair.items.free es) ↔ ∀ e ∈ es, ∀ u ∈ [e.1, e.2], C u.free := by
    intro es
    refine (hereditary _).trans (List.forall_mem_map.trans (forall₂_congr fun e _ => ?_))
    exact (hereditary _).trans (List.forall_mem_map (f := payload.free) (l := [e.1, e.2]))
  have text : ∀ s, C (Payload.text.free s) := fun _ => hereditary.empty
  have flag : ∀ b, C (Payload.flag.free b) := fun _ => hereditary.empty
  have word : ∀ n, C (Payload.word64.free n) := fun _ => hereditary.empty
  have choice : ∀ o, C ((Payload.choice Omission.words Omission.word).free o) :=
    fun _ => hereditary.empty
  rw [parts, forall_children, Slot.freeform_iff hereditary]
  simp only [slots, List.forall_mem_cons (l := _ :: _), List.forall_mem_singleton, elements,
    entries, fields, text, flag, word, choice, implies_true, true_and, and_true]

theorem free_scalar {C : Freeform → Prop} (hereditary : Freeform.Hereditary C) (typeName : String)
    (j : Json) : C (scalar typeName j).free ↔ C (Payload.document.free j) := by
  have alone : (scalar typeName j).nodes = [scalar typeName j] := nodes_eq _
  rw [free_iff_nodes hereditary, alone, List.forall_mem_singleton]
  simp [scalar]

theorem decodeElements?_eq (levels : Nat) :
    decodeElements? levels = payload.items.decode? levels := by
  funext o
  cases levels <;> cases o <;> rfl

theorem decodeFields?_eq (levels : Nat) : decodeFields? levels = payload.named.decode? levels := by
  funext o
  cases levels <;> cases o <;> rfl

theorem decodePair?_eq (levels : Nat) : decodePair? levels = payload.pair.decode? levels := by
  funext o
  rw [decodePair?.eq_def]
  rfl

theorem decodeEntries?_eq (levels : Nat) :
    decodeEntries? levels = payload.pair.items.decode? levels := by
  funext o
  rcases levels with _ | levels
  · cases o <;> rfl
  · cases o with
    | array os =>
      show os.mapM (decodePair? levels) = os.mapM (payload.pair.decode? levels)
      rw [decodePair?_eq]
    | _ => rfl

theorem lawful (levels : Nat) : payload.Lawful levels := by
  induction levels using Nat.strong_induction_on with
  | _ levels ih =>
    -- A child is read two levels below its parent, a key or its value three.
    have elements : ∀ below < levels, payload.items.Lawful below := fun below less =>
      Payload.lawful_items fun least lower => ih least (lower.trans less)
    have entries : ∀ below < levels, payload.pair.items.Lawful below := fun below less =>
      Payload.lawful_items fun least lower => Payload.lawful_pair fun last under =>
        ih last (under.trans (lower.trans less))
    have fields : ∀ below < levels, payload.named.Lawful below := fun below less =>
      Payload.lawful_named fun least lower => ih least (lower.trans less)
    refine Slot.lawful_record ["type", "value", "isNull", "elements", "entries", "fields",
      "notCapturedReason", "size"] (by decide) (fun _ => rfl) encode_eq (fun C => free_iff) ?_ ?_
      (fun _ => rfl) ?_
    · intro below less v
      simp only [slots, List.forall_mem_cons (l := _ :: _), List.forall_mem_singleton]
      exact ⟨Payload.lawful_text, Payload.lawful_document, Payload.lawful_flag,
        elements below less, entries below less, fields below less,
        Payload.lawful_choice Omission.get?_word, Payload.lawful_word64⟩
    · intro below o v read each
      simp only [slots, List.forall_mem_cons (l := _ :: _), List.forall_mem_singleton] at each
      obtain ⟨typeName, value, isNull, elements, entries, fields, omission, size⟩ := each
      show decode? (below + 1) o = some v
      rw [decode?, decodeElements?_eq, decodeEntries?_eq, decodeFields?_eq]
      refine bind_of_eq_some read ?_
      refine bind_of_eq_some (required_eq (typeName _ rfl)) ?_
      refine bind_of_eq_some (optional_document_eq value) ?_
      refine bind_of_eq_some (optional_eq (fun _ _ => nofun) isNull) ?_
      refine bind_of_eq_some (optional_eq (fun _ _ => nofun) elements) ?_
      refine bind_of_eq_some (optional_eq (fun _ _ => nofun) entries) ?_
      refine bind_of_eq_some (optional_eq (fun _ _ => nofun) fields) ?_
      refine bind_of_eq_some (optional_eq (fun _ _ => nofun) omission) ?_
      refine bind_of_eq_some (optional_eq (fun _ _ => nofun) size) ?_
      cases v
      rfl
    · intro below less o v reads
      change decode? (below + 1) o = some v at reads
      rw [decode?, decodeElements?_eq, decodeEntries?_eq, decodeFields?_eq, node?] at reads
      obtain ⟨found, -, reads⟩ := Option.bind_eq_some_iff.mp reads
      split at reads
      · obtain ⟨typeName, readsType, value, readsValue, isNull, readsNull, es, readsElements, ps,
          readsEntries, fs, readsFields, omission, readsOmission, size, readsSize, rfl⟩ := by
          simpa only [Option.bind_eq_bind, Option.bind_eq_some_iff, Option.pure_def,
            Option.some.injEq] using reads
        rw [optional_document] at readsValue
        simp only [slots, List.forall_mem_cons (l := _ :: _), List.forall_mem_singleton]
        exact ⟨confined_of_required Payload.lawful_text readsType,
          confined_of_optional Payload.lawful_document readsValue,
          confined_of_optional Payload.lawful_flag readsNull,
          confined_of_optional (elements below less) readsElements,
          confined_of_optional (entries below less) readsEntries,
          confined_of_optional (fields below less) readsFields,
          confined_of_optional (Payload.lawful_choice Omission.get?_word) readsOmission,
          confined_of_optional Payload.lawful_word64 readsSize⟩
      · cases reads

end CapturedValue

namespace CapturedVars

def payload : Payload CapturedVars where
  decode? := decode?
  encode := encode
  free := CapturedValue.payload.named.free

theorem payload_eq : payload = CapturedValue.payload.named := by
  have written : encode = CapturedValue.payload.named.encode := by
    funext vars
    exact congrArg Json.object (CapturedValue.encodeFields_eq vars)
  unfold payload
  rw [written]
  rfl

theorem free_iff {C : Freeform → Prop} (hereditary : Freeform.Hereditary C) (vars : CapturedVars) :
    C (payload.free vars) ↔ ∀ x ∈ vars, C x.2.free :=
  (hereditary _).trans List.forall_mem_map

theorem lawful (levels : Nat) : payload.Lawful levels :=
  payload_eq ▸ Payload.lawful_named fun below _ => CapturedValue.lawful below

end CapturedVars

namespace CaptureScope

def slots (s : CaptureScope) : List Slot :=
  [⟨"arguments", CapturedVars.payload, s.arguments⟩, ⟨"locals", CapturedVars.payload, s.locals⟩,
    ⟨"throwable", .document, s.throwable⟩]

def payload : Payload CaptureScope := { decode?, encode, free := fun s => Slot.freeform s.slots }

theorem encode_eq (s : CaptureScope) : s.encode = Slot.record s.slots := by
  rw [Slot.record, Json.record, slots]
  simp only [List.map_cons, List.map_nil, List.flatMap_cons, List.flatMap_nil, List.append_nil,
    Slot.document_free]
  rw [encode, List.append_assoc]
  rfl

theorem lawful (levels : Nat) : payload.Lawful levels := by
  refine Slot.lawful_record ["arguments", "locals", "throwable"] (by decide) (fun _ => rfl)
    encode_eq (fun _ _ _ => Iff.rfl) ?_ ?_ (fun _ => rfl) ?_
  · intro below _ s
    simp only [slots, List.forall_mem_cons (l := _ :: _), List.forall_mem_singleton]
    exact ⟨CapturedVars.lawful below, CapturedVars.lawful below, Payload.lawful_document⟩
  · intro below o s read each
    simp only [slots, List.forall_mem_cons (l := _ :: _), List.forall_mem_singleton] at each
    obtain ⟨arguments, locals, throwable⟩ := each
    refine bind_of_eq_some read ?_
    refine bind_of_eq_some (optional_eq (fun _ _ => nofun) arguments) ?_
    refine bind_of_eq_some (optional_eq (fun _ _ => nofun) locals) ?_
    exact bind_of_eq_some (optional_document_eq throwable) rfl
  · intro below _ o s reads
    obtain ⟨found, -, reads⟩ := Option.bind_eq_some_iff.mp reads
    split at reads
    · obtain ⟨arguments, readsArguments, locals, readsLocals, throwable, readsThrowable, rfl⟩ := by
        simpa only [Option.bind_eq_bind, Option.bind_eq_some_iff, Option.pure_def,
          Option.some.injEq] using reads
      rw [optional_document] at readsThrowable
      simp only [slots, List.forall_mem_cons (l := _ :: _), List.forall_mem_singleton]
      exact ⟨confined_of_optional (CapturedVars.lawful below) readsArguments,
        confined_of_optional (CapturedVars.lawful below) readsLocals,
        confined_of_optional Payload.lawful_document readsThrowable⟩
    · cases reads

end CaptureScope

namespace Captures

variable {levels : Nat}

def linesPayload : Payload (List (UInt32 × CaptureScope)) where
  decode? := decodeLines?
  encode := encodeLines
  free lines := .join ({ ordered := Table.Ascending lines } ::
    lines.map fun l => CaptureScope.payload.free l.2)

theorem insertLine_eq {α : Type} (line : UInt32) (scope : α) (lines : List (UInt32 × α)) :
    insertLine line scope lines = Table.place line scope lines := by
  induction lines with
  | nil => rfl
  | cons l rest ih => rw [insertLine, Table.place, ih]

theorem foldl_insertLine {α : Type} (table lines : List (UInt32 × α)) :
    lines.foldl (fun sorted l => insertLine l.1 l.2 sorted) table = Table.placeAll table lines := by
  simp only [Table.placeAll, insertLine_eq]

theorem body_toString (n : Nat) : body (toString n) = Decimal.digits n := by
  have digits : (toString n).toList = Decimal.digits n := by
    rw [Nat.toString_eq_ofList_toDigits, String.toList_ofList]
    rfl
  rw [body, digits]
  refine (List.flatMap_congr fun c member => ?_).trans (List.flatMap_singleton' _)
  exact escapeChar_digit (Numeral.isDigit_of_mem_digits member)

theorem lineOfBody?_body (line : UInt32) :
    lineOfBody? (body (toString line.toNat)) = some line := by
  have bound := line.toNat_lt_size
  have size : UInt32.size = 4294967296 := rfl
  have fits : Fits line.toNat := by
    constructor <;> omega
  have read : Numeral.ofText? (Decimal.digits line.toNat) = some (.ofInt line.toNat) :=
    Numeral.ofText?_signed false line.toNat
  rw [lineOfBody?, body_toString, read]
  simp only [Option.bind_eq_bind, Option.bind_some, Numeral.value?_ofInt fits]
  rw [if_pos ⟨Int.natCast_nonneg _, by omega⟩]
  simp

theorem lawful_lines (levels : Nat) : linesPayload.Lawful levels where
  restores lines proper whole fits := by
    obtain ⟨below, rfl, depths⟩ := depth_object_le.mp fits
    obtain ⟨inOrder, propers⟩ := List.forall_mem_cons.mp ((Freeform.proper_join _).mp proper)
    obtain ⟨-, wholes⟩ := List.forall_mem_cons.mp ((Freeform.whole_join _).mp whole)
    let write (l : UInt32 × CaptureScope) : String × Json := (toString l.1.toNat, l.2.encode)
    have each : ∀ l ∈ lines, CaptureScope.payload.Restored below l.2 := fun l member =>
      (CaptureScope.lawful below).restores l.2 (List.forall_mem_map.mp propers l member)
        (List.forall_mem_map.mp wholes l member)
        (depths _ (List.mem_map_of_mem (f := write) member))
    have read : (outlineMembers (lines.map write)).mapM (fun m => do
        return (← lineOfBody? m.1, ← CaptureScope.decode? below m.2)) = some lines := by
      rw [outlineMembers_eq, List.map_map]
      refine mapM_map_eq_some fun l member => ?_
      refine bind_of_eq_some (lineOfBody?_body l.1) ?_
      exact bind_of_eq_some (each l member).1 rfl
    constructor
    · refine bind_of_eq_some read ?_
      have placed : Table.placeAll [] lines = [] ++ lines :=
        Table.placeAll_of_ascending inOrder.ordered
      rw [foldl_insertLine, placed]
      rfl
    · exact every_object.mpr ⟨trivial, List.forall_mem_map.mpr fun l member => (each l member).2⟩
  confines o lines reads := by
    change decodeLines? levels o = some lines at reads
    unfold decodeLines? at reads
    split at reads
    · next below members =>
      obtain ⟨given, readsAll, same⟩ := Option.bind_eq_some_iff.mp reads
      obtain rfl : Table.placeAll [] given = lines := by
        rw [← foldl_insertLine]
        exact Option.some.inj same
      have each : ∀ l ∈ Table.placeAll [] given, CaptureScope.payload.Confined below l.2 := by
        intro l member
        have among := (Table.mem_placeAll member).resolve_left List.not_mem_nil
        obtain ⟨m, -, readsOne⟩ := exists_of_mem_mapM readsAll among
        simp only [Option.bind_eq_bind, Option.bind_eq_some_iff, Option.pure_def,
          Option.some.injEq] at readsOne
        obtain ⟨line, -, scope, readsScope, rfl⟩ := readsOne
        exact (CaptureScope.lawful below).confines m.2 scope readsScope
      have ascending : Table.Ascending (Table.placeAll [] given) :=
        Table.ascending_placeAll Table.ascending_nil
      refine ⟨(Freeform.proper_join _).mpr (List.forall_mem_cons.mpr
          ⟨⟨nofun, nofun, ascending⟩, List.forall_mem_map.mpr fun l member => (each l member).1⟩),
        depth_object_le.mpr ⟨below, rfl, List.forall_mem_map.mpr fun l member => (each l member).2⟩⟩
    · cases reads

def slots (c : Captures) : List Slot :=
  [⟨"entry", CaptureScope.payload, c.entry⟩, ⟨"return", CaptureScope.payload, c.exit⟩,
    ⟨"lines", linesPayload, c.lines⟩]

def payload : Payload Captures := { decode?, encode, free := fun c => Slot.freeform c.slots }

theorem encode_eq (c : Captures) : c.encode = Slot.record c.slots := by
  rw [Slot.record, Json.record, slots]
  simp only [List.map_cons, List.map_nil, List.flatMap_cons, List.flatMap_nil, List.append_nil]
  rw [encode, List.append_assoc]
  rfl

theorem lawful (levels : Nat) : payload.Lawful levels := by
  refine Slot.lawful_record ["entry", "return", "lines"] (by decide) (fun _ => rfl) encode_eq
    (fun _ _ _ => Iff.rfl) ?_ ?_ (fun _ => rfl) ?_
  · intro below _ c
    simp only [slots, List.forall_mem_cons (l := _ :: _), List.forall_mem_singleton]
    exact ⟨CaptureScope.lawful below, CaptureScope.lawful below, lawful_lines below⟩
  · intro below o c read each
    simp only [slots, List.forall_mem_cons (l := _ :: _), List.forall_mem_singleton] at each
    obtain ⟨entry, exit, lines⟩ := each
    refine bind_of_eq_some read ?_
    refine bind_of_eq_some (optional_eq (fun _ _ => nofun) entry) ?_
    refine bind_of_eq_some (optional_eq (fun _ _ => nofun) exit) ?_
    exact bind_of_eq_some (optional_eq (fun _ _ => nofun) lines) rfl
  · intro below _ o c reads
    obtain ⟨found, -, reads⟩ := Option.bind_eq_some_iff.mp reads
    split at reads
    · obtain ⟨entry, readsEntry, exit, readsExit, lines, readsLines, rfl⟩ := by
        simpa only [Option.bind_eq_bind, Option.bind_eq_some_iff, Option.pure_def,
          Option.some.injEq] using reads
      simp only [slots, List.forall_mem_cons (l := _ :: _), List.forall_mem_singleton]
      exact ⟨confined_of_optional (CaptureScope.lawful below) readsEntry,
        confined_of_optional (CaptureScope.lawful below) readsExit,
        confined_of_optional (lawful_lines below) readsLines⟩
    · cases reads

end Captures
end LiveProbe
