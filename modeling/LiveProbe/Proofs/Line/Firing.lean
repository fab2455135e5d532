import LiveProbe.Proofs.Line.Posting
import LiveProbe.Proofs.Traffic.Crowd

/-!
What a line calls when it runs. One without code calls nothing; one with code calls the hook that
was set there last, once, unless that hook has been taken back, or its trace is bound to a unit of
another path.
-/
namespace LiveProbe

namespace Action

def tellLine (run : Runner) (path : String) (line : UInt32) (locals : Vars) (c : Callback) :
    Action Unit := do
  fire run (.line { path, line, locals, stack := (← get).stack }) c

def runLine (run : Runner) (path : String) (line : UInt32) (locals : Vars)
    (callbacks : List Callback) : Action Unit := do
  let w ← get
  match w.stack with
  | frame :: rest =>
    set { w with stack := { frame with file := path, line } :: rest }
    callbacks.forM (tellLine run path line locals)
  | [] => inFrame ⟨path, "<main>", line⟩ (callbacks.forM (tellLine run path line locals))

theorem traceLine_eq (run : Runner) (traces : List LineTrace) (path : String) (line : UInt32)
    (locals : Vars) : traceLine run traces path line locals =
      ((traces.filter (concerns path line)).map (·.callback)).forM
        (tellLine run path line locals) := by
  unfold traceLine
  induction traces with
  | nil => rfl
  | cons t rest ih =>
    rw [List.filter_cons]
    cases concerned : concerns path line t with
    | true =>
      show (_ >>= fun _ => rest.forM _) = (_ >>= fun _ => List.forM _ _)
      rw [ih]
      simp only [concerned, if_true]
      rfl
    | false =>
      show (_ >>= fun _ => rest.forM _) = _
      rw [ih]
      simp only [concerned, Bool.false_eq_true, if_false, pure_bind]

theorem executeLine_eq (run : Runner) (path : String) (line : UInt32) (locals : Vars) (w : World) :
    executeLine run path line locals w =
      (if w.host.executes path line then
        runLine run path line locals (w.host.callbacksAt path line) else pure ()) w := by
  unfold executeLine
  rw [get_bind_apply]
  dsimp only
  by_cases executes : w.host.executes path line = true
  · have traced := traceLine_eq run (w.host.tracesOf path line) path line locals
    rw [if_pos executes, if_pos executes]
    unfold runLine
    rw [get_bind_apply]
    cases w.stack with
    | cons frame rest => exact congrFun traced _
    | nil => exact congrArg (fun x => inFrame ⟨path, "<main>", line⟩ x w) traced
  · rw [if_neg executes, if_neg executes]

end Action

theorem Host.callbacksAt_of_idle {h : Host} {path : String} {line : UInt32}
    (idle : h.executes path line = false) : h.callbacksAt path line = [] := by
  unfold Host.callbacksAt Host.tracesOf
  simp [idle]

namespace Hooking

variable {s : Hooking} {b : Lineup}

theorem Meets.filter_concerns (meets : s.Meets b) (path : String) (line : UInt32) :
    s.host.traces.filter (Action.concerns path line) = s.host.tracesAt (.ofPath path line) := by
  unfold Host.tracesAt
  apply List.filter_congr
  intro t member
  have entry : (t.only, t.id) ∈ s.hooks.lines.map fun e => (some e.1, e.2.id) :=
    meets.anchored.traced ▸ List.mem_map.mpr ⟨t, member, rfl⟩
  obtain ⟨e, -, pair⟩ := List.mem_map.mp entry
  have only : some e.1 = t.only := (Prod.mk.inj pair).1
  unfold Action.concerns
  rw [← only]
  simp

theorem Meets.callbacksAt (meets : s.Meets b) {path : String} {line : UInt32}
    (executes : s.host.executes path line = true) :
    s.host.callbacksAt path line = (b.fires s.host path line).toList := by
  unfold Host.callbacksAt Host.tracesOf Lineup.fires
  rw [if_pos executes, List.filter_comm, meets.filter_concerns]
  have holds := meets.holds (.ofPath path line)
  cases posted : b.posted (.ofPath path line) with
  | none =>
    rw [posted] at holds
    rw [holds.2]
    rfl
  | some p =>
    rw [posted] at holds
    obtain ⟨id, -, traces⟩ := holds
    rw [traces]
    obtain ⟨callback, unit⟩ := p
    cases unit with
    | none => rfl
    | some u =>
      cases loaded : (s.host.unitsOf path).any (·.id == u) <;>
        simp [SourceLine.ofPath, loaded, Option.filter]

end Hooking

end LiveProbe
