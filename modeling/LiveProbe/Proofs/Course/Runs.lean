import LiveProbe.Proofs.Course.Steps
import LiveProbe.Proofs.Line.Firing

/-!
What a host with an engine on it tells, whatever runs on it. All that happens is a sequence of
steps: code that is nested in calls and lines takes its own steps while what they have found is due,
and goes back to it.
-/
namespace LiveProbe

open Relation (ReflTransGen)

def Action.fireEach (run : Runner) (x : World → Execution) (callbacks : List Callback) :
    Action Unit := callbacks.forM fun callback => get >>= fun w => fire run (x w) callback

theorem Action.fireEach_cons_apply (run : Runner) (x : World → Execution) (callback : Callback)
    (rest : List Callback) (w : World) : fireEach run x (callback :: rest) w =
      (fire run (x w) callback >>= fun _ => fireEach run x rest) w := by
  show ((get >>= fun w => fire run (x w) callback) >>= fun _ => fireEach run x rest) w = _
  rw [bind_apply, get_bind_apply, bind_apply]

namespace Course

variable {propagate untargeted : Bool} {r : Reporter} {failing : List String} {c start : Course}
  {due : List (List Callback)} {w : World}

/-- A world is come to while some callbacks are due. -/
def Leads (start : Course) (due : List (List Callback)) (w : World) : Prop := start.Reaches ⟨w, due⟩

theorem Leads.drift (leads : start.Leads due w) {w' : World} (apart : w.Drifts w') :
    start.Leads due w' := ReflTransGen.tail leads (.drifts apart)

theorem Leads.warn (leads : start.Leads due w) (warning : Warning) :
    start.Leads due (w.warn warning) := leads.drift ⟨rfl, rfl, rfl, rfl⟩

theorem Leads.done {callbacks : List Callback} (leads : start.Leads (callbacks :: due) w) :
    start.Leads due w := ReflTransGen.tail leads .ends

theorem Leads.applyAll (documents : List Json) :
    ∀ {w : World} {s : Setup}, start.Leads due w → w.Around s →
      ∃ w', start.Leads due w' ∧ w'.Around (s.applyAll documents).2 ∧ w'.poisoned = w.poisoned := by
  induction documents with
  | nil => exact fun {w s} leads around => ⟨w, leads, around, rfl⟩
  | cons document rest ih =>
    intro w s leads around
    have applied := around.inSetup (·.applyDocument document)
    have poisoned := World.poisoned_inSetup 0 (·.applyDocument document) w
    have led : start.Leads due (w.inSetup 0 (·.applyDocument document)).2 :=
      ReflTransGen.tail leads (.applies document)
    unfold Setup.applyAll
    rcases answered : s.applyDocument document with ⟨answer, s'⟩
    rw [answered] at applied
    cases answer with
    | ok _ =>
      obtain ⟨w', led', around', poisoned'⟩ := ih led applied
      exact ⟨w', led', around', poisoned'.trans poisoned⟩
    | error e =>
      have warned := applied.warn (.documentRefused e)
      have led' := led.warn (.documentRefused e)
      dsimp only
      split
      · exact ⟨_, led', warned, poisoned⟩
      · obtain ⟨w', led'', around', poisoned'⟩ := ih led' warned
        exact ⟨w', led'', around', poisoned'.trans poisoned⟩

theorem drifts_of_around {w' : World} {s : Setup} (around : w.Around s) (around' : w'.Around s)
    (poisoned : w'.poisoned = w.poisoned) : w.Drifts w' where
  host := around'.host.trans around.host.symm
  engines := around'.engines.trans around.engines.symm
  journal := around'.journal.trans around.journal.symm
  poisoned := poisoned

theorem Leads.process (leads : start.Leads due w) {s : Setup} (around : w.Around s)
    (documents : List Json) : start.Leads due (w.inSetup 0 (·.process documents)).2 := by
  obtain ⟨w', led, applied, poisoned⟩ := leads.applyAll documents around
  have processed := around.inSetup (·.process documents)
  have whole := World.poisoned_inSetup 0 (·.process documents) w
  unfold Setup.process at processed
  rcases answered : s.applyAll documents with ⟨answer, s'⟩
  rw [answered] at applied processed
  cases answer with
  | error e => exact led.drift (drifts_of_around applied processed (whole.trans poisoned.symm))
  | ok statuses =>
    let named := Setup.documentIds documents
    have cleared := applied.inSetup (·.keepProbes named)
    have led' : start.Leads due (w'.inSetup 0 (·.keepProbes named)).2 :=
      ReflTransGen.tail led (.keeps named)
    have same := (World.poisoned_inSetup 0 (·.keepProbes named) w').trans poisoned
    dsimp only at processed cleared
    rcases removed : s'.keepProbes named with ⟨result, s''⟩
    rw [removed] at processed cleared
    cases result with
    | ok _ => exact led'.drift (drifts_of_around cleared processed (whole.trans same.symm))
    | error e =>
      exact (led'.warn (.staleProbesStay e)).drift
        (drifts_of_around (cleared.warn (.staleProbesStay e)) processed (whole.trans same.symm))

namespace Sound

variable (sound : start.Sound propagate untargeted r failing)
include sound

theorem around (leads : start.Leads due w) :
    ∃ s, w.Around s ∧ s.Serving propagate untargeted r due.flatten := by
  obtain ⟨e, only, serving⟩ := (sound.reaches leads).hosts
  exact ⟨_, ⟨rfl, only, rfl, rfl⟩, serving⟩

theorem tolerant (due : List (List Callback)) : World.Tolerant (start.Leads due) where
  congr w w' host engines journal poisoned leads := leads.drift ⟨host, engines, journal, poisoned⟩
  load path lines w leads := ReflTransGen.tail leads (.loads path lines)
  process n documents w leads := by
    obtain ⟨s, around, -⟩ := sound.around leads
    cases n with
    | zero => exact leads.process around documents
    | succ n =>
      have nobody : w.engines[n + 1]? = none := by
        rw [around.engines]
        rfl
      rw [World.inSetup_of_none nobody]
      exact leads

section Runner

variable {run : Runner}

theorem fireEach (x : World → Execution) (callbacks : List Callback) :
    ∀ {w : World}, start.Leads (callbacks :: due) w →
      start.Leads due (Action.fireEach run x callbacks w).2 := by
  induction callbacks with
  | nil => exact Leads.done
  | cons callback rest ih =>
    intro w leads
    have fired : start.Leads (rest :: due) (Action.fire run (x w) callback w).2 := by
      obtain ⟨s, -, -, -, serves⟩ := sound.around leads
      -- a callback that acts for probes runs no code
      obtain ⟨g, t, k, rfl, -⟩ := serves callback List.mem_cons_self
      exact ReflTransGen.tail leads (.fires (x w))
    rw [Action.fireEach_cons_apply, Action.bind_apply]
    rcases ended : Action.fire run (x w) callback w with ⟨e | _, w'⟩
    · rw [ended] at fired
      exact fired.done
    · rw [ended] at fired
      exact ih fired

variable (runs : ∀ due args code, Action.Respects (start.Leads due) (run args code))
include runs

theorem observed (args : CallArgs) (code : Code) {callbacks : List Callback}
    (leads : start.Leads (callbacks :: due) w) :
    start.Leads due (Action.observed run args code callbacks w).2 := by
  have ran := runs (callbacks :: due) args code w leads
  unfold Action.observed
  rw [Action.bind_apply]
  rcases ended : run args code w with ⟨e | returned, w'⟩
  · rw [ended] at ran
    exact ran.done
  · rw [ended] at ran
    have told : start.Leads due (Action.fireAll run args returned callbacks w').2 :=
      sound.fireEach (fun w => .method ⟨args, returned, w.elapsed, w.stack⟩) callbacks ran
    rwa [Action.bind_pure_apply]

theorem call (due : List (List Callback)) (m : MethodName) (args : CallArgs) :
    Action.Respects (start.Leads due) (Action.call run m args) := by
  intro w leads
  obtain ⟨s, around, serving⟩ := sound.around leads
  cases found : w.host.body? m with
  | none =>
    rw [Action.call_of_undefined run args found]
    exact leads
  | some body =>
    obtain ⟨code, bound, stacked⟩ := serving.stacked (around.host ▸ found)
    have entered : start.Leads ((body.live fun n => w.slot n m).map (·.2) :: due)
        { w with stack := Action.frameOf m :: w.stack } :=
      Leads.drift (ReflTransGen.tail leads (.calls found)) ⟨rfl, rfl, rfl, rfl⟩
    have left := sound.observed runs args code entered
    rw [Action.call_of_stacked run args found stacked, Action.bind_pure_apply]
    exact left.drift ⟨rfl, rfl, rfl, rfl⟩

omit runs in
theorem executeLine (due : List (List Callback)) (path : String) (line : UInt32) (locals : Vars) :
    Action.Respects (start.Leads due) (Action.executeLine run path line locals) := by
  intro w leads
  rw [Action.executeLine_eq]
  split
  · have found : start.Leads (w.host.callbacksAt path line :: due) w :=
      ReflTransGen.tail leads (.runs path line)
    have fired : ∀ w', w.Drifts w' → start.Leads due (Action.fireEach run
        (fun w => .line ⟨path, line, locals, w.stack⟩) (w.host.callbacksAt path line) w').2 :=
      fun w' apart => sound.fireEach _ _ (found.drift apart)
    unfold Action.runLine
    rw [Action.get_bind_apply]
    cases w.stack with
    | cons frame rest =>
      exact fired { w with stack := { frame with file := path, line } :: rest } ⟨rfl, rfl, rfl, rfl⟩
    | nil =>
      exact (fired { w with stack := ⟨path, "<main>", line⟩ :: w.stack }
        ⟨rfl, rfl, rfl, rfl⟩).drift ⟨rfl, rfl, rfl, rfl⟩
  · exact leads

end Runner

theorem runCode (fuel : Nat) : ∀ due args code,
    Action.Respects (start.Leads due) (Action.runCode fuel args code) := by
  induction fuel with
  | zero => exact fun _ _ _ => Action.respects_throw _
  | succ fuel ih =>
    intro due args code
    refine Action.respects_foldlM code (fun i _ _ => ?_) _
    exact Action.respects_instruct_of (sound.tolerant due) args (sound.call ih due)
      (sound.executeLine due) i fun typeName methods _ w leads =>
        ReflTransGen.tail leads (.defines typeName methods)

theorem take (fuel : Nat) (leads : start.Leads due w) (event : Event) :
    start.Leads due (w.take fuel event) := by
  cases event with
  | define typeName methods => exact ReflTransGen.tail leads (.defines typeName methods)
  | load path lines => exact ReflTransGen.tail leads (.loads path lines)
  | call m args => exact sound.call (sound.runCode fuel) due m args w leads
  | line path line locals => exact sound.executeLine due path line locals w leads
  | process documents => exact (sound.tolerant due).process 0 documents w leads
  | store heap => exact leads.drift ⟨rfl, rfl, rfl, rfl⟩
  | deliver => exact ReflTransGen.tail leads .delivers

theorem after (fuel : Nat) (events : List Event) :
    ∀ {w : World}, start.Leads due w → start.Leads due (w.after fuel events) := by
  induction events with
  | nil => exact id
  | cons event rest ih => exact fun leads => ih (sound.take fuel leads event)

end Sound
end Course

namespace World

variable (fuel : Nat) (settings : Settings) (origin : Origin) (before later : List Event)
  (w : World)

open Sample in
example :
    let clock := fun _ n => [0, 500000000, 1100000000].getD n 0
    let calls := List.replicate 3 (Event.call method {})
    let w := history 1 Sample.settings { Sample.origin with clock } [] [defining [], probing true] {}
    (w.after 1 calls).journal.length = w.journal.length + 4 := by
  decide +kernel

open Sample in
example :
    let w := run [defining [.process 0 []], probing false]
    installed w = [some (probe false)] ∧
      (w.take 1 (.call method {})).journal.length = w.journal.length := by
  decide +kernel

end World
end LiveProbe
