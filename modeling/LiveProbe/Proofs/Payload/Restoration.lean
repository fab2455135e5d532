import LiveProbe.Payload.Document
import LiveProbe.Proofs.Json.Scanning
import LiveProbe.Proofs.Payload.Envelopes

/-!
Payloads as texts. What is written is read back, and a text that is read as something stands for
the same as the text it would be written as.
-/
namespace LiveProbe

open Json Outline

namespace Payload

variable {α : Type} {p : Payload α}

/-- Reading undoes writing, on values and after reading any text. -/
structure ReadsBack (p : Payload α) (read? : String → Option α) : Prop where
  restores : ∀ x, (p.free x).Proper → (p.free x).Whole → (p.encode x).depth ≤ levelLimit →
    read? (p.encode x).compact = some x
  settles : ∀ text x, read? text = some x → (p.free x).Whole →
    read? (p.encode x).compact = some x

theorem readPayload?_compact (law : p.Lawful levelLimit) {x : α} (proper : (p.free x).Proper)
    (whole : (p.free x).Whole) (fits : (p.encode x).depth ≤ levelLimit) :
    readPayload? p.decode? (p.encode x).compact = some x := by
  obtain ⟨reads, written⟩ := law.restores x proper whole fits
  rw [readPayload?, ofText?_compact written]
  exact reads

theorem readsBack (law : p.Lawful levelLimit) : p.ReadsBack (readPayload? p.decode?) where
  restores _ proper whole fits := readPayload?_compact law proper whole fits
  settles text x reads whole := by
    obtain ⟨o, -, readsOutline⟩ := Option.bind_eq_some_iff.mp reads
    obtain ⟨proper, fits⟩ := law.confines o x readsOutline
    exact readPayload?_compact law proper whole fits

end Payload

/-- Reading undoes writing, whatever the payload is. -/
theorem payloads_read_back :
    CapturedValue.payload.ReadsBack readCapturedValue? ∧
    CapturedVars.payload.ReadsBack readCapturedVars? ∧
    CaptureScope.payload.ReadsBack readCaptureScope? ∧
    Captures.payload.ReadsBack readCaptures? ∧
    SnapshotLocation.payload.ReadsBack readLocation? ∧
    StackFrame.payload.ReadsBack readFrame? ∧
    StatusEnvelope.payload.ReadsBack readStatus? ∧
    SnapshotEnvelope.payload.ReadsBack readSnapshot? :=
  ⟨Payload.readsBack (CapturedValue.lawful levelLimit),
    Payload.readsBack (CapturedVars.lawful levelLimit),
    Payload.readsBack (CaptureScope.lawful levelLimit),
    Payload.readsBack (Captures.lawful levelLimit),
    Payload.readsBack (SnapshotLocation.lawful levelLimit),
    Payload.readsBack (StackFrame.lawful levelLimit),
    Payload.readsBack (StatusEnvelope.lawful levelLimit),
    Payload.readsBack (SnapshotEnvelope.lawful levelLimit)⟩

def ledger : Json :=
  .object [("a", .array [.string "\"\\\n", .null, .nat 18446744073709551615])]

theorem ledger_sound : ledger.Every Sound := by
  simp [ledger, nat, Every, parts, itemParts, memberParts, Sound, Fits, Table.Ascending, Table.keys]

theorem ledger_whole : ledger.Every Json.Whole := by
  simp [ledger, nat, Every, parts, itemParts, memberParts, Json.Whole]

def namesakes : CapturedVars :=
  [("n", .scalar "i64" (.int (-9223372036854775808))), ("n", .scalar "Value" ledger)]

theorem payloads_read_back_namesakes :
    readCapturedVars? (CapturedVars.encode namesakes).compact = some namesakes := by
  refine payloads_read_back.2.1.restores namesakes ?_ ?_ (by decide)
  · refine (CapturedVars.free_iff Freeform.proper_join _).mpr (List.forall_mem_cons.mpr
      ⟨?_, List.forall_mem_singleton.mpr ?_⟩)
    · refine (CapturedValue.free_scalar Freeform.proper_join _ _).mpr
        (Payload.proper_document.mpr ⟨Json.noConfusion, ?_⟩)
      simp [int, Every, parts, Sound, Fits]
    · exact (CapturedValue.free_scalar Freeform.proper_join _ _).mpr
        (Payload.proper_document.mpr ⟨Json.noConfusion, ledger_sound⟩)
  · refine (CapturedVars.free_iff Freeform.whole_join _).mpr (List.forall_mem_cons.mpr
      ⟨?_, List.forall_mem_singleton.mpr ?_⟩)
    · refine (CapturedValue.free_scalar Freeform.whole_join _ _).mpr (Payload.whole_document.mpr ?_)
      simp [int, Every, parts, Json.Whole]
    · exact (CapturedValue.free_scalar Freeform.whole_join _ _).mpr
        (Payload.whole_document.mpr ledger_whole)

end LiveProbe
