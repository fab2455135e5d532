import LiveProbe.Proofs.World.Observation

/-!
What the snapshots of a call show of its arguments. The arguments are walked once, when the body has
run, so that both ends of the call show them as the body has left them.
-/
namespace LiveProbe

namespace SnapshotEnvelope

def entryArguments (s : SnapshotEnvelope) : Option CapturedVars :=
  (s.snapshot.captures.bind (·.entry)).bind (·.arguments)

def exitArguments (s : SnapshotEnvelope) : Option CapturedVars :=
  (s.snapshot.captures.bind (·.exit)).bind (·.arguments)

/-- It is a snapshot of a probe, and if that captures, it shows the arguments at both ends. -/
def Shows (s : SnapshotEnvelope) (k : KnownProbe) (arguments : CapturedVars) : Prop :=
  s.probeId = k.probe.id ∧ (k.probe.capturing = true →
    s.entryArguments = some arguments ∧ s.exitArguments = some arguments)

end SnapshotEnvelope

theorem Reporter.shows_snapshot (r : Reporter) (heap : Heap) (k : KnownProbe) (hit : MethodHit) :
    (r.snapshot heap k.probe (.method hit)).Shows k
      (r.capturer.captureArgs heap hit.args.positional hit.args.named) := by
  refine ⟨rfl, fun capturing => ?_⟩
  simp [snapshot, capturing, SnapshotEnvelope.entryArguments, SnapshotEnvelope.exitArguments,
    captures, methodCaptures]

namespace Action

variable {run : Runner} {args : CallArgs} {w after : World} {n i : Nat} {m : MethodName}
  {saved : Body} {returned : Value} {e : Engine}

theorem perform_of_current (ran : perform run args saved w = (.ok returned, after))
    (current : w.slot n m = i) (callback : Callback) :
    perform run args (.hooked n m i callback saved) w =
      (fire run (.method ⟨args, returned, after.elapsed, after.stack⟩) callback >>= fun _ =>
        pure returned) after := by
  show (perform run args saved >>= fun returned => if w.slot n m = i then _ else _) w = _
  rw [bind_apply, ran]
  dsimp only
  rw [if_pos current, get_bind_apply]

/-- A hook tells of the probes of its group when the body that it was laid on has returned. Every
snapshot that is told shows the arguments, at the entry as at the return, as they are by then. -/
theorem perform_captured (ran : perform run args saved w = (.ok returned, after))
    (current : w.slot n m = i) (there : after.engines[n]? = some e) (group : Nat) :
    let arguments := e.reporter.capturer.captureArgs after.heap args.positional args.named
    ∃ told : List Notice,
      (perform run args (.hooked n m i (.probes n group) saved) w).2.journal =
          after.journal ++ told.map .notice ∧
        (∀ s, .snapshot s ∈ told → ∃ k ∈ e.probes.membersOf group, s.Shows k arguments) ∧
        (after.poisoned = [] → ∀ k ∈ Probes.granted (e.probes.membersOf group) e.probes,
          ∃ s, .snapshot s ∈ told ∧ s.Shows k arguments) := by
  intro arguments
  let hit : MethodHit := ⟨args, returned, after.elapsed, after.stack⟩
  let told := e.reporter.tellings after.heap (.method hit) after.poisoned e.propagate
    (e.probes.membersOf group) e.probes
  have journal : (reportAll n group (.method hit) after).2.journal =
      after.journal ++ told.map .notice := (reportAll_apply there group (.method hit)).1
  refine ⟨told, ?_, fun s member => ?_, fun calm k listed => ?_⟩
  · rw [perform_of_current ran current, bind_pure_apply]
    exact journal
  · obtain ⟨k, listed, rfl⟩ := Reporter.mem_of_snapshot_mem_tellings _ member
    exact ⟨k, listed, Reporter.shows_snapshot _ _ _ _⟩
  · refine ⟨_, ?_, Reporter.shows_snapshot e.reporter after.heap k hit⟩
    show _ ∈ e.reporter.tellings _ _ _ _ _ _
    rw [calm, Reporter.tellings_of_calm, List.mem_flatMap]
    exact ⟨k, listed, by simp [Reporter.report]⟩

end Action

namespace World.Sample

def storing : Code := [.set 0 "x" (.integer 2)]

def stocked : World :=
  { run [defining storing, probing true] with heap := ⟨#[[("x", .integer 1)]]⟩ }

def handing : CallArgs := { positional := [.object "P" 0] }

def snapshots (w : World) : List SnapshotEnvelope :=
  w.journal.filterMap fun o => match o with
    | .notice (.snapshot s) => some s
    | _ => none

end World.Sample

open World.Sample in
theorem Action.perform_captured_stored :
    let body := Body.hooked 0 method 1 (.probes 0 1) (.program storing)
    ∃ e s arguments, stocked.engines[0]? = some e ∧
      .notice (.snapshot s) ∈ (Action.perform (Action.runCode 1) handing body stocked).2.journal ∧
      arguments = e.reporter.capturer.captureArgs (stocked.heap.set 0 "x" (.integer 2))
        handing.positional [] ∧
      s.entryArguments = some arguments ∧ s.exitArguments = some arguments := by
  intro body
  obtain ⟨e, there⟩ : ∃ e, stocked.engines[0]? = some e := by
    rw [← Option.isSome_iff_exists]
    decide +kernel
  have only : stocked.engines[0]?.map
      (fun e => Probes.granted (e.probes.membersOf 1) e.probes) = some [probe true] := by
    decide +kernel
  rw [there] at only
  have granted : Probes.granted (e.probes.membersOf 1) e.probes = [probe true] :=
    Option.some.inj only
  have member : probe true ∈ Probes.granted (e.probes.membersOf 1) e.probes := by
    rw [granted]
    exact List.mem_singleton_self _
  have ran : Action.perform (Action.runCode 1) handing (.program storing) stocked =
      (.ok .nil, { stocked with heap := stocked.heap.set 0 "x" (.integer 2) }) := rfl
  have calm : stocked.poisoned = [] := World.history_calm rfl 1 settings origin [] _
  obtain ⟨told, journal, -, complete⟩ := Action.perform_captured (n := 0) (m := method) (i := 1) ran
    (by decide +kernel) there 1
  obtain ⟨s, listed, -, shows⟩ := complete calm _ member
  refine ⟨e, s, _, there, ?_, rfl, shows rfl⟩
  rw [journal]
  exact List.mem_append_right _ (List.mem_map_of_mem listed)

namespace World.Sample

def holding (n : String) : String :=
  "\x7b\"arg1\":\x7b\"type\":\"P\",\"fields\":\x7b\"x\":\x7b\"type\":\"Integer\"," ++
    "\"value\":" ++ n ++ "\x7d\x7d\x7d\x7d"

def shown (arguments : CapturedVars) : String := (CapturedVars.encode arguments).compact

end World.Sample

open World.Sample in
/-- A body that changes what it was given: the snapshot shows at the entry what the body has
left. -/
theorem Action.call_not_captured_at_entry :
    let ended := (Action.call (Action.runCode 1) method handing stocked).2
    shown (settings.capturer.captureArgs stocked.heap handing.positional handing.named) =
        holding "1" ∧
      (snapshots ended).map (fun s => s.entryArguments.map shown) = [some (holding "2")] := by
  decide +kernel

end LiveProbe
