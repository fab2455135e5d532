import LiveProbe.Payload.Snapshot
import LiveProbe.Proofs.Payload.Captured

/-!
Envelopes written and read. What is in them is made of captured values, texts and numbers, so they
are lawful where those are.
-/
namespace LiveProbe

open Json Outline
open Payload (bind_of_eq_some required_eq optional_eq confined_of_required confined_of_optional
  confined_nullable lawful_text lawful_word32 lawful_word64 lawful_choice lawful_items
  lawful_nullable lawful_element)

namespace StackFrame

def slots (f : StackFrame) : List Slot :=
  [⟨"fileName", .text, some f.file⟩, ⟨"function", .text, some f.function⟩,
    ⟨"lineNumber", .word32, some f.line⟩]

def payload : Payload StackFrame := { decode?, encode, free := fun f => Slot.freeform f.slots }

theorem lawful (levels : Nat) : payload.Lawful levels := by
  refine Slot.lawful_record ["fileName", "function", "lineNumber"] (by decide) (fun _ => rfl)
    (fun _ => rfl) (fun _ _ _ => Iff.rfl) ?_ ?_ (fun _ => rfl) ?_
  · intro below _ f
    simp only [slots, List.forall_mem_cons (l := _ :: _), List.forall_mem_singleton]
    exact ⟨lawful_text, lawful_text, lawful_word32⟩
  · intro below o f read each
    simp only [slots, List.forall_mem_cons (l := _ :: _), List.forall_mem_singleton] at each
    obtain ⟨file, function, line⟩ := each
    refine bind_of_eq_some read ?_
    refine bind_of_eq_some (required_eq (file _ rfl)) ?_
    refine bind_of_eq_some (required_eq (function _ rfl)) ?_
    exact bind_of_eq_some (required_eq (line _ rfl)) rfl
  · intro below _ o f reads
    obtain ⟨found, -, readsSlots⟩ := Option.bind_eq_some_iff.mp reads
    split at readsSlots
    · obtain ⟨file, readsFile, function, readsFunction, line, readsLine, rfl⟩ := by
        simpa only [Option.bind_eq_bind, Option.bind_eq_some_iff, Option.pure_def,
          Option.some.injEq] using readsSlots
      simp only [slots, List.forall_mem_cons (l := _ :: _), List.forall_mem_singleton]
      exact ⟨confined_of_required lawful_text readsFile,
        confined_of_required lawful_text readsFunction,
        confined_of_required lawful_word32 readsLine⟩
    · cases readsSlots

end StackFrame

namespace SnapshotLocation

def slots (l : SnapshotLocation) : List Slot :=
  [⟨"file", .text, l.file⟩, ⟨"lines", Payload.word32.items, l.lines⟩, ⟨"method", .text, l.method⟩,
    ⟨"type", .text, l.typeName⟩]

def payload : Payload SnapshotLocation where
  decode? := decode?
  encode := encode
  free l := Slot.freeform l.slots

theorem encode_eq (l : SnapshotLocation) : l.encode = Slot.record l.slots := by
  rw [Slot.record, Json.record, slots]
  simp only [List.map_cons, List.map_nil, List.flatMap_cons, List.flatMap_nil, List.append_nil]
  rfl

theorem lawful (levels : Nat) : payload.Lawful levels := by
  refine Slot.lawful_record ["file", "lines", "method", "type"] (by decide)
    (fun _ => rfl) encode_eq (fun _ _ _ => Iff.rfl) ?_ ?_ (fun _ => rfl) ?_
  · intro below _ l
    simp only [slots, List.forall_mem_cons (l := _ :: _), List.forall_mem_singleton]
    exact ⟨lawful_text, lawful_items fun _ _ => lawful_word32, lawful_text, lawful_text⟩
  · intro below o l read each
    simp only [slots, List.forall_mem_cons (l := _ :: _), List.forall_mem_singleton] at each
    obtain ⟨file, lines, method, typeName⟩ := each
    refine bind_of_eq_some read ?_
    refine bind_of_eq_some (optional_eq (fun _ _ => nofun) file) ?_
    refine bind_of_eq_some (optional_eq (fun _ _ => nofun) lines) ?_
    refine bind_of_eq_some (optional_eq (fun _ _ => nofun) method) ?_
    exact bind_of_eq_some (optional_eq (fun _ _ => nofun) typeName) rfl
  · intro below _ o l reads
    obtain ⟨found, -, readsSlots⟩ := Option.bind_eq_some_iff.mp reads
    split at readsSlots
    · obtain ⟨file, readsFile, lines, readsLines, method, readsMethod, typeName, readsTypeName,
        rfl⟩ := by
        simpa only [Option.bind_eq_bind, Option.bind_eq_some_iff, Option.pure_def,
          Option.some.injEq] using readsSlots
      simp only [slots, List.forall_mem_cons (l := _ :: _), List.forall_mem_singleton]
      exact ⟨confined_of_optional lawful_text readsFile,
        confined_of_optional (lawful_items fun _ _ => lawful_word32) readsLines,
        confined_of_optional lawful_text readsMethod,
        confined_of_optional lawful_text readsTypeName⟩
    · cases readsSlots

end SnapshotLocation

namespace SnapshotProbe

def slots (p : SnapshotProbe) : List Slot :=
  [⟨"id", .text, some p.id⟩, ⟨"version", .word32, some p.version⟩,
    ⟨"location", SnapshotLocation.payload, some p.location⟩]

def payload : Payload SnapshotProbe := { decode?, encode, free := fun p => Slot.freeform p.slots }

theorem lawful (levels : Nat) : payload.Lawful levels := by
  refine Slot.lawful_record ["id", "version", "location"] (by decide)
    (fun _ => rfl) (fun _ => rfl) (fun _ _ _ => Iff.rfl) ?_ ?_ (fun _ => rfl) ?_
  · intro below _ p
    simp only [slots, List.forall_mem_cons (l := _ :: _), List.forall_mem_singleton]
    exact ⟨lawful_text, lawful_word32, SnapshotLocation.lawful below⟩
  · intro below o p read each
    simp only [slots, List.forall_mem_cons (l := _ :: _), List.forall_mem_singleton] at each
    obtain ⟨id, version, location⟩ := each
    refine bind_of_eq_some read ?_
    refine bind_of_eq_some (required_eq (id _ rfl)) ?_
    refine bind_of_eq_some (required_eq (version _ rfl)) ?_
    exact bind_of_eq_some (required_eq (location _ rfl)) rfl
  · intro below _ o p reads
    obtain ⟨found, -, readsSlots⟩ := Option.bind_eq_some_iff.mp reads
    split at readsSlots
    · obtain ⟨id, readsId, version, readsVersion, location, readsLocation, rfl⟩ := by
        simpa only [Option.bind_eq_bind, Option.bind_eq_some_iff, Option.pure_def,
          Option.some.injEq] using readsSlots
      simp only [slots, List.forall_mem_cons (l := _ :: _), List.forall_mem_singleton]
      exact ⟨confined_of_required lawful_text readsId,
        confined_of_required lawful_word32 readsVersion,
        confined_of_required (SnapshotLocation.lawful below) readsLocation⟩
    · cases readsSlots

end SnapshotProbe

namespace Snapshot

def slots (s : Snapshot) : List Slot :=
  [⟨"id", .text, some s.id⟩, ⟨"timestamp", .word64, some s.timestamp⟩,
    ⟨"evaluationErrors", Payload.element.items, some s.evaluationErrors⟩,
    ⟨"probe", SnapshotProbe.payload, some s.probe⟩, ⟨"language", .text, some s.language⟩,
    ⟨"stack", StackFrame.payload.items, some s.stack⟩,
    ⟨"captures", Captures.payload.nullable, some s.captures⟩]

def payload : Payload Snapshot := { decode?, encode, free := fun s => Slot.freeform s.slots }

theorem encode_eq (s : Snapshot) : s.encode = Slot.record s.slots := by
  have errors : s.evaluationErrors.map Payload.element.encode = s.evaluationErrors :=
    List.map_id' _
  rw [encode, ← errors]
  rfl

theorem lawful (levels : Nat) : payload.Lawful levels := by
  refine Slot.lawful_record ["id", "timestamp", "evaluationErrors", "probe", "language", "stack",
    "captures"] (by decide) (fun _ => rfl) encode_eq (fun _ _ _ => Iff.rfl) ?_ ?_ (fun _ => rfl) ?_
  · intro below _ s
    simp only [slots, List.forall_mem_cons (l := _ :: _), List.forall_mem_singleton]
    exact ⟨lawful_text, lawful_word64, lawful_items fun _ _ => lawful_element,
      SnapshotProbe.lawful below, lawful_text, lawful_items fun least _ => StackFrame.lawful least,
      lawful_nullable (fun _ => nofun) (Captures.lawful below)⟩
  · intro below o s read each
    simp only [slots, List.forall_mem_cons (l := _ :: _), List.forall_mem_singleton] at each
    obtain ⟨id, timestamp, errors, probe, language, stack, captures⟩ := each
    refine bind_of_eq_some read ?_
    refine bind_of_eq_some (required_eq (id _ rfl)) ?_
    refine bind_of_eq_some (required_eq (timestamp _ rfl)) ?_
    refine bind_of_eq_some (required_eq (errors _ rfl)) ?_
    refine bind_of_eq_some (required_eq (probe _ rfl)) ?_
    refine bind_of_eq_some (required_eq (language _ rfl)) ?_
    refine bind_of_eq_some (required_eq (stack _ rfl)) ?_
    exact bind_of_eq_some (captures _ rfl).1 rfl
  · intro below _ o s reads
    obtain ⟨found, -, readsSlots⟩ := Option.bind_eq_some_iff.mp reads
    split at readsSlots
    · obtain ⟨id, readsId, timestamp, readsTimestamp, errors, readsErrors, probe, readsProbe,
        language, readsLanguage, stack, readsStack, captures, readsCaptures, rfl⟩ := by
        simpa only [Option.bind_eq_bind, Option.bind_eq_some_iff, Option.pure_def,
          Option.some.injEq] using readsSlots
      simp only [slots, List.forall_mem_cons (l := _ :: _), List.forall_mem_singleton]
      exact ⟨confined_of_required lawful_text readsId,
        confined_of_required lawful_word64 readsTimestamp,
        confined_of_required (lawful_items fun _ _ => lawful_element) readsErrors,
        confined_of_required (SnapshotProbe.lawful below) readsProbe,
        confined_of_required lawful_text readsLanguage,
        confined_of_required (lawful_items fun least _ => StackFrame.lawful least) readsStack,
        confined_nullable (confined_of_optional (Captures.lawful below) readsCaptures)⟩
    · cases readsSlots

end Snapshot

namespace SnapshotLogger

def slots (l : SnapshotLogger) : List Slot :=
  [⟨"name", .text, l.name⟩, ⟨"method", .text, l.method⟩, ⟨"thread_name", .text, l.threadName⟩,
    ⟨"thread_id", .text, some l.threadId⟩, ⟨"version", .word32, some l.version⟩]

def payload : Payload SnapshotLogger := { decode?, encode, free := fun l => Slot.freeform l.slots }

theorem lawful (levels : Nat) : payload.Lawful levels := by
  refine Slot.lawful_record ["name", "method", "thread_name", "thread_id", "version"] (by decide)
    (fun _ => rfl) (fun _ => rfl) (fun _ _ _ => Iff.rfl) ?_ ?_ (fun _ => rfl) ?_
  · intro below _ l
    simp only [slots, List.forall_mem_cons (l := _ :: _), List.forall_mem_singleton]
    exact ⟨lawful_text, lawful_text, lawful_text, lawful_text, lawful_word32⟩
  · intro below o l read each
    simp only [slots, List.forall_mem_cons (l := _ :: _), List.forall_mem_singleton] at each
    obtain ⟨name, method, threadName, threadId, version⟩ := each
    refine bind_of_eq_some read ?_
    refine bind_of_eq_some (optional_eq (fun _ _ => nofun) name) ?_
    refine bind_of_eq_some (optional_eq (fun _ _ => nofun) method) ?_
    refine bind_of_eq_some (optional_eq (fun _ _ => nofun) threadName) ?_
    refine bind_of_eq_some (required_eq (threadId _ rfl)) ?_
    exact bind_of_eq_some (required_eq (version _ rfl)) rfl
  · intro below _ o l reads
    obtain ⟨found, -, readsSlots⟩ := Option.bind_eq_some_iff.mp reads
    split at readsSlots
    · obtain ⟨name, readsName, method, readsMethod, threadName, readsThreadName, threadId,
        readsThreadId, version, readsVersion, rfl⟩ := by
        simpa only [Option.bind_eq_bind, Option.bind_eq_some_iff, Option.pure_def,
          Option.some.injEq] using readsSlots
      simp only [slots, List.forall_mem_cons (l := _ :: _), List.forall_mem_singleton]
      exact ⟨confined_of_optional lawful_text readsName,
        confined_of_optional lawful_text readsMethod,
        confined_of_optional lawful_text readsThreadName,
        confined_of_required lawful_text readsThreadId,
        confined_of_required lawful_word32 readsVersion⟩
    · cases readsSlots

end SnapshotLogger

namespace SnapshotEnvelope

def slots (e : SnapshotEnvelope) : List Slot :=
  [⟨"service", .text, some e.service⟩, ⟨"debugger.snapshot", Snapshot.payload, some e.snapshot⟩,
    ⟨"duration", .word64, e.duration⟩, ⟨"host", .text, e.host⟩,
    ⟨"logger", SnapshotLogger.payload, some e.logger⟩, ⟨"ddsource", .text, some e.source⟩,
    ⟨"message", .text, some e.message⟩, ⟨"timestamp", .word64, some e.timestamp⟩]

def payload : Payload SnapshotEnvelope where
  decode? := decode?
  encode := encode
  free e := Slot.freeform e.slots

theorem lawful (levels : Nat) : payload.Lawful levels := by
  refine Slot.lawful_record ["service", "debugger.snapshot", "duration", "host", "logger",
    "ddsource", "message", "timestamp"] (by decide) (fun _ => rfl) (fun _ => rfl) (fun _ _ _ => Iff.rfl) ?_ ?_ (fun _ => rfl) ?_
  · intro below _ e
    simp only [slots, List.forall_mem_cons (l := _ :: _), List.forall_mem_singleton]
    exact ⟨lawful_text, Snapshot.lawful below, lawful_word64, lawful_text,
      SnapshotLogger.lawful below, lawful_text, lawful_text, lawful_word64⟩
  · intro below o e read each
    simp only [slots, List.forall_mem_cons (l := _ :: _), List.forall_mem_singleton] at each
    obtain ⟨service, snapshot, duration, host, logger, source, message, timestamp⟩ := each
    refine bind_of_eq_some read ?_
    refine bind_of_eq_some (required_eq (service _ rfl)) ?_
    refine bind_of_eq_some (required_eq (snapshot _ rfl)) ?_
    refine bind_of_eq_some (optional_eq (fun _ _ => nofun) duration) ?_
    refine bind_of_eq_some (optional_eq (fun _ _ => nofun) host) ?_
    refine bind_of_eq_some (required_eq (logger _ rfl)) ?_
    refine bind_of_eq_some (required_eq (source _ rfl)) ?_
    refine bind_of_eq_some (required_eq (message _ rfl)) ?_
    exact bind_of_eq_some (required_eq (timestamp _ rfl)) rfl
  · intro below _ o e reads
    obtain ⟨found, -, readsSlots⟩ := Option.bind_eq_some_iff.mp reads
    split at readsSlots
    · obtain ⟨service, readsService, snapshot, readsSnapshot, duration, readsDuration, host,
        readsHost, logger, readsLogger, source, readsSource, message, readsMessage, timestamp,
        readsTimestamp, rfl⟩ := by
        simpa only [Option.bind_eq_bind, Option.bind_eq_some_iff, Option.pure_def,
          Option.some.injEq] using readsSlots
      simp only [slots, List.forall_mem_cons (l := _ :: _), List.forall_mem_singleton]
      exact ⟨confined_of_required lawful_text readsService,
        confined_of_required (Snapshot.lawful below) readsSnapshot,
        confined_of_optional lawful_word64 readsDuration,
        confined_of_optional lawful_text readsHost,
        confined_of_required (SnapshotLogger.lawful below) readsLogger,
        confined_of_required lawful_text readsSource,
        confined_of_required lawful_text readsMessage,
        confined_of_required lawful_word64 readsTimestamp⟩
    · cases readsSlots

end SnapshotEnvelope

structure Diagnostics where
  probeId : String
  probeVersion : UInt32
  runtimeId : String
  parentId : Option String
  status : ProbeStatus

namespace Diagnostics

def slots (d : Diagnostics) : List Slot :=
  [⟨"probeId", .text, some d.probeId⟩, ⟨"probeVersion", .word32, some d.probeVersion⟩,
    ⟨"runtimeId", .text, some d.runtimeId⟩, ⟨"parentId", Payload.text.nullable, some d.parentId⟩,
    ⟨"status", .choice ProbeStatus.words ProbeStatus.word, some d.status⟩]

def decode? (levels : Nat) (o : Outline) : Option Diagnostics := do
  let [id, version, runtimeId, parentId, status] ←
    record? ["probeId", "probeVersion", "runtimeId", "parentId", "status"] levels o | none
  return {
    probeId := ← required Outline.string? id
    probeVersion := ← required uint32? version
    runtimeId := ← required Outline.string? runtimeId
    parentId := ← Outline.optional Outline.string? parentId
    status := ← required (choice? ProbeStatus.words (levels - 1)) status }

theorem decode?_eq_some {levels : Nat} {o : Outline} {d : Diagnostics} :
    decode? levels o = some d ↔ ∃ id version runtimeId parentId status,
      record? ["probeId", "probeVersion", "runtimeId", "parentId", "status"] levels o =
        some [id, version, runtimeId, parentId, status] ∧
      required Outline.string? id = some d.probeId ∧
      required uint32? version = some d.probeVersion ∧
      required Outline.string? runtimeId = some d.runtimeId ∧
      Outline.optional Outline.string? parentId = some d.parentId ∧
      required (choice? ProbeStatus.words (levels - 1)) status = some d.status := by
  constructor
  · intro reads
    obtain ⟨found, readsRecord, readsSlots⟩ := Option.bind_eq_some_iff.mp reads
    split at readsSlots
    · obtain ⟨id, readsId, version, readsVersion, runtimeId, readsRuntimeId, parentId,
        readsParentId, status, readsStatus, rfl⟩ := by
        simpa only [Option.bind_eq_bind, Option.bind_eq_some_iff, Option.pure_def,
          Option.some.injEq] using readsSlots
      exact ⟨_, _, _, _, _, readsRecord, readsId, readsVersion, readsRuntimeId, readsParentId,
        readsStatus⟩
    · cases readsSlots
  · rintro ⟨id, version, runtimeId, parentId, status, readsRecord, readsId, readsVersion,
      readsRuntimeId, readsParentId, readsStatus⟩
    refine bind_of_eq_some readsRecord ?_
    refine bind_of_eq_some readsId ?_
    refine bind_of_eq_some readsVersion ?_
    refine bind_of_eq_some readsRuntimeId ?_
    refine bind_of_eq_some readsParentId ?_
    exact bind_of_eq_some readsStatus rfl

def payload : Payload Diagnostics where
  decode? := decode?
  encode d := Slot.record d.slots
  free d := Slot.freeform d.slots

theorem lawful (levels : Nat) : payload.Lawful levels := by
  refine Slot.lawful_record ["probeId", "probeVersion", "runtimeId", "parentId", "status"]
    (by decide) (fun _ => rfl) (fun _ => rfl) (fun _ _ _ => Iff.rfl) ?_ ?_ (fun _ => rfl) ?_
  · intro below _ d
    simp only [slots, List.forall_mem_cons (l := _ :: _), List.forall_mem_singleton]
    exact ⟨lawful_text, lawful_word32, lawful_text,
      lawful_nullable (fun _ => nofun) lawful_text, lawful_choice ProbeStatus.get?_word⟩
  · intro below o d read each
    simp only [slots, List.forall_mem_cons (l := _ :: _), List.forall_mem_singleton] at each
    obtain ⟨id, version, runtimeId, parentId, status⟩ := each
    exact decode?_eq_some.mpr ⟨_, _, _, _, _, read, required_eq (id _ rfl),
      required_eq (version _ rfl), required_eq (runtimeId _ rfl), (parentId _ rfl).1,
      required_eq (status _ rfl)⟩
  · intro below _ o d reads
    obtain ⟨id, version, runtimeId, parentId, status, -, readsId, readsVersion, readsRuntimeId,
      readsParentId, readsStatus⟩ := decode?_eq_some.mp reads
    simp only [slots, List.forall_mem_cons (l := _ :: _), List.forall_mem_singleton]
    exact ⟨confined_of_required lawful_text readsId,
      confined_of_required lawful_word32 readsVersion,
      confined_of_required lawful_text readsRuntimeId,
      confined_nullable (confined_of_optional lawful_text readsParentId),
      confined_of_required (lawful_choice ProbeStatus.get?_word) readsStatus⟩

def wrapping (d : Diagnostics) : List Slot := [⟨"diagnostics", payload, some d⟩]

def wrapped : Payload Diagnostics where
  decode? levels o := do
    let [diagnostics] ← record? ["diagnostics"] levels o | none
    required (decode? (levels - 1)) diagnostics
  encode d := Slot.record d.wrapping
  free d := Slot.freeform d.wrapping

theorem wrapped_decode?_eq_some {levels : Nat} {o : Outline} {d : Diagnostics} :
    wrapped.decode? levels o = some d ↔ ∃ inner,
      record? ["diagnostics"] levels o = some [some inner] ∧
        decode? (levels - 1) inner = some d := by
  constructor
  · intro reads
    obtain ⟨found, readsRecord, readsSlots⟩ := Option.bind_eq_some_iff.mp reads
    split at readsSlots
    · obtain ⟨inner, rfl, readsInner⟩ := Option.bind_eq_some_iff.mp readsSlots
      exact ⟨inner, readsRecord, readsInner⟩
    · cases readsSlots
  · rintro ⟨inner, readsRecord, readsInner⟩
    exact bind_of_eq_some readsRecord readsInner

theorem lawful_wrapped (levels : Nat) : wrapped.Lawful levels := by
  refine Slot.lawful_record ["diagnostics"] (by decide) (fun _ => rfl) (fun _ => rfl)
    (fun _ _ _ => Iff.rfl) ?_ ?_ (fun _ => rfl) ?_
  · intro below _ d
    exact List.forall_mem_singleton.mpr (lawful below)
  · intro below o d read each
    have inner := List.forall_mem_singleton.mp each
    exact wrapped_decode?_eq_some.mpr ⟨_, read, (inner d rfl).1⟩
  · intro below _ o d reads
    obtain ⟨inner, -, readsInner⟩ := wrapped_decode?_eq_some.mp reads
    refine List.forall_mem_singleton.mpr ?_
    rintro y ⟨⟩
    exact (lawful below).confines inner d readsInner

end Diagnostics

namespace StatusEnvelope

def diagnostics (e : StatusEnvelope) : Diagnostics :=
  ⟨e.probeId, e.probeVersion, e.runtimeId, e.parentId, e.status⟩

def slots (e : StatusEnvelope) : List Slot :=
  [⟨"service", .text, some e.service⟩, ⟨"timestamp", .word64, some e.timestamp⟩,
    ⟨"message", .text, some e.message⟩, ⟨"ddsource", .text, some e.source⟩,
    ⟨"debugger", Diagnostics.wrapped, some e.diagnostics⟩]

def payload : Payload StatusEnvelope := { decode?, encode, free := fun e => Slot.freeform e.slots }

theorem lawful (levels : Nat) : payload.Lawful levels := by
  refine Slot.lawful_record ["service", "timestamp", "message", "ddsource", "debugger"]
    (by decide) (fun _ => rfl) (fun _ => rfl) (fun _ _ _ => Iff.rfl) ?_ ?_ (fun _ => rfl) ?_
  · intro below _ e
    simp only [slots, List.forall_mem_cons (l := _ :: _), List.forall_mem_singleton]
    exact ⟨lawful_text, lawful_word64, lawful_text, lawful_text, Diagnostics.lawful_wrapped below⟩
  · intro below o e read each
    simp only [slots, List.forall_mem_cons (l := _ :: _), List.forall_mem_singleton] at each
    obtain ⟨service, timestamp, message, source, debugger⟩ := each
    obtain ⟨inner, readsOuter, readsInner⟩ :=
      Diagnostics.wrapped_decode?_eq_some.mp (debugger _ rfl).1
    obtain ⟨id, version, runtimeId, parentId, status, readsRecord, readsId, readsVersion,
      readsRuntimeId, readsParentId, readsStatus⟩ := Diagnostics.decode?_eq_some.mp readsInner
    refine bind_of_eq_some read ?_
    refine bind_of_eq_some rfl (bind_of_eq_some readsOuter ?_)
    refine bind_of_eq_some rfl (bind_of_eq_some readsRecord ?_)
    refine bind_of_eq_some (required_eq (service _ rfl)) ?_
    refine bind_of_eq_some (required_eq (timestamp _ rfl)) ?_
    refine bind_of_eq_some (required_eq (message _ rfl)) ?_
    refine bind_of_eq_some (required_eq (source _ rfl)) ?_
    refine bind_of_eq_some readsId ?_
    refine bind_of_eq_some readsVersion ?_
    refine bind_of_eq_some readsRuntimeId ?_
    refine bind_of_eq_some readsParentId ?_
    exact bind_of_eq_some readsStatus rfl
  · intro below _ o e reads
    obtain ⟨found, -, readsSlots⟩ := Option.bind_eq_some_iff.mp reads
    split at readsSlots
    · obtain ⟨outer, rfl, readsDebugger⟩ := Option.bind_eq_some_iff.mp readsSlots
      obtain ⟨found, readsOuter, readsWrapped⟩ := Option.bind_eq_some_iff.mp readsDebugger
      split at readsWrapped
      · obtain ⟨inner, rfl, readsDiagnostics⟩ := Option.bind_eq_some_iff.mp readsWrapped
        obtain ⟨found, readsInner, readsRest⟩ := Option.bind_eq_some_iff.mp readsDiagnostics
        split at readsRest
        · obtain ⟨service, readsService, timestamp, readsTimestamp, message, readsMessage, source,
            readsSource, id, readsId, version, readsVersion, runtimeId, readsRuntimeId, parentId,
            readsParentId, status, readsStatus, rfl⟩ := by
            simpa only [Option.bind_eq_bind, Option.bind_eq_some_iff, Option.pure_def,
              Option.some.injEq] using readsRest
          have debugger : required (Diagnostics.wrapped.decode? below) (some outer) =
              some ⟨id, version, runtimeId, parentId, status⟩ :=
            Diagnostics.wrapped_decode?_eq_some.mpr ⟨inner, readsOuter,
              Diagnostics.decode?_eq_some.mpr ⟨_, _, _, _, _, readsInner, readsId, readsVersion,
                readsRuntimeId, readsParentId, readsStatus⟩⟩
          simp only [slots, List.forall_mem_cons (l := _ :: _), List.forall_mem_singleton]
          exact ⟨confined_of_required lawful_text readsService,
            confined_of_required lawful_word64 readsTimestamp,
            confined_of_required lawful_text readsMessage,
            confined_of_required lawful_text readsSource,
            confined_of_required (Diagnostics.lawful_wrapped below) debugger⟩
        · cases readsRest
      · cases readsWrapped
    · cases readsSlots

end StatusEnvelope
end LiveProbe
