import LiveProbe.Proofs.Traffic.Crowd
import LiveProbe.Proofs.World.Reporting

/-!
Calls and lines that nobody comes between. Where programs leave host and engine alone, the sections
of a call, taken one after the other, come to the call itself, and those of a line to the line.
-/
namespace LiveProbe

open LiveProbe.Action

namespace Crowd

variable {opens : Job → Prop} {s : Crowd} {w : World}

/-- An activation can go on without a break until what is told is left of it. -/
def Ends (opens : Job → Prop) (s : Crowd) (a : Activation) (setup : Setup)
    (next : Multiset Activation) : Prop :=
  Reaches opens { s with activations := a ::ₘ s.activations }
    { traffic := { s.traffic with setup }, activations := next + s.activations }

theorem Ends.of_runs {a b : Activation} {part setup : Setup} {next : Multiset Activation}
    (first : a.Runs s.traffic.setup part {b})
    (rest : Ends opens { s with traffic := { s.traffic with setup := part } } b setup next) :
    Ends opens s a setup next :=
  .head (.goes rfl first) rest

theorem Ends.trans {a b : Activation} {part setup : Setup} {next : Multiset Activation}
    (first : Ends opens s a part {b})
    (rest : Ends opens { s with traffic := { s.traffic with setup := part } } b setup next) :
    Ends opens s a setup next :=
  Relation.ReflTransGen.trans first rest

theorem ends_last {a : Activation} {setup : Setup} {next : Multiset Activation}
    (last : a.Runs s.traffic.setup setup next) : Ends opens s a setup next :=
  .single (.goes rfl last)

/-- Programs return, and leave host and engine alone. -/
def Idle (run : Runner) : Prop :=
  ∀ args code w s, World.Around w s →
    ∃ v w', run args code w = (.ok v, w') ∧ w'.Around s

variable {run : Runner}

theorem ends_fire (opens : Job → Prop) (idle : Idle run) (around : w.Around s.traffic.setup)
    (x : Execution) (callback : Callback) (due : List Callback) :
    ∃ setup, (fire run x callback w).2.Around setup ∧
      Ends opens s (.leaving (callback :: due)) setup
        (Activation.rest due (fire run x callback w).1) := by
  have fired : ∃ setup, (fire (fun _ _ => pure .nil) x callback w).2.Around setup ∧
      Ends opens s (.leaving (callback :: due)) setup
        (Activation.rest due (fire (fun _ _ => pure .nil) x callback w).1) := by
    obtain ⟨setup, now, -⟩ := around.fired (List.mem_singleton_self callback) x
    exact ⟨setup, now, ends_last (.fired around now)⟩
  cases callback with
  | record label => exact fired
  | probes engine g => exact fired
  | script code =>
    obtain ⟨v, w', ran, kept⟩ := idle (argsOf x) code w _ around
    have ran : fire run x (.script code) w = (.ok (), w') := by
      show (run (argsOf x) code >>= fun _ => pure ()) w = _
      rw [bind_apply, ran]
      rfl
    rw [ran]
    exact ⟨_, kept, ends_last (.fired (x := x) kept kept)⟩

theorem slot_of_around (around : w.Around s.traffic.setup)
    (number : s.traffic.setup.engine.number = 0) {manager : Nat}
    (own : manager = s.traffic.setup.engine.number) (m : MethodName) :
    w.slot manager m = s.traffic.setup.engine.hooks.slot m := by
  rw [own, number, World.slot, around.engines]
  rfl

theorem ends_perform (opens : Job → Prop) (idle : Idle run) (args : CallArgs) (body : Body) :
    ∀ {s : Crowd} {w : World} (due : List Callback), s.traffic.setup.engine.number = 0 →
      w.Around s.traffic.setup → ∃ setup, (perform run args body w).2.Around setup ∧
        Ends opens s (.entering body due) setup
          (Activation.rest due (perform run args body w).1) := by
  induction body with
  | program code =>
    intro s w due _ around
    obtain ⟨v, w', ran, kept⟩ := idle args code w _ around
    have ran : perform run args (.program code) w = (.ok v, w') := ran
    rw [ran]
    exact ⟨_, kept, ends_last .returned⟩
  | replaced serial label =>
    intro s w due _ around
    exact ⟨s.traffic.setup.note (.intercepted label w.stack),
      ⟨around.host, around.engines, congrArg (· ++ _) around.journal, around.warnings⟩,
      ends_last .replaced⟩
  | wrapped serial label saved ih =>
    intro s w due number around
    let noted := s.traffic.setup.note (.intercepted label w.stack)
    obtain ⟨setup, now, ends⟩ := ih (s := { s with traffic := { s.traffic with setup := noted } })
      (w := w.note (.intercepted label w.stack)) due number
      ⟨around.host, around.engines, congrArg (· ++ _) around.journal, around.warnings⟩
    refine ⟨setup, ?_⟩
    have started : perform run args (.wrapped serial label saved) w =
        (perform run args saved >>= fun returned => pure (.array [.string label, returned]))
          (w.note (.intercepted label w.stack)) := rfl
    rw [started, bind_apply]
    revert now ends
    rcases perform run args saved (w.note (.intercepted label w.stack)) with ⟨v | e, w'⟩
    all_goals exact fun now ends => ⟨now, .of_runs .wrapped ends⟩
  | hooked manager m installation callback saved ih =>
    intro s w due number around
    have looked := fun own : manager = s.traffic.setup.engine.number =>
      slot_of_around around number own m
    let x (v : Value) (w : World) : Execution :=
      .method { args, returned := v, elapsed := w.elapsed, stack := w.stack }
    let tell (v : Value) : Action Value :=
      if w.slot manager m = installation then
        get >>= fun w => fire run (x v w) callback >>= fun _ => pure v
      else pure v
    have started : perform run args (.hooked manager m installation callback saved) w =
        (perform run args saved >>= tell) w := rfl
    rw [started, bind_apply]
    by_cases current : w.slot manager m = installation
    · obtain ⟨part, now, ends⟩ := ih (callback :: due) number around
      have found : Activation.Runs s.traffic.setup
          (.entering (.hooked manager m installation callback saved) due) s.traffic.setup
          {.entering saved (callback :: due)} :=
        .found fun own => (looked own).symm.trans current
      revert now ends
      rcases perform run args saved w with ⟨e | v, w'⟩
      · exact fun now ends => ⟨part, now, .of_runs found ends⟩
      · intro now ends
        obtain ⟨setup, told, rest⟩ := ends_fire opens
          (s := { s with traffic := { s.traffic with setup := part } }) idle now (x v w') callback
          due
        have fired : tell v w' = (fire run (x v w') callback >>= fun _ => pure v) w' := by
          have told : tell v = get >>= _ := if_pos current
          rw [told]
          rfl
        refine ⟨setup, ?_⟩
        dsimp only
        rw [fired, bind_apply]
        revert told rest
        rcases fire run (x v w') callback w' with ⟨e | u, w''⟩
        all_goals exact fun told rest => ⟨told, (Ends.of_runs found ends).trans rest⟩
    · obtain ⟨setup, now, ends⟩ := ih due number around
      have passed : Activation.Runs s.traffic.setup
          (.entering (.hooked manager m installation callback saved) due) s.traffic.setup
          {.entering saved due} := .passed fun own same => current ((looked own).trans same)
      refine ⟨setup, ?_⟩
      revert now ends
      rcases perform run args saved w with ⟨e | v, w'⟩
      · exact fun now ends => ⟨now, .of_runs passed ends⟩
      · intro now ends
        have silent : tell v = pure v := if_neg current
        dsimp only
        rw [silent]
        exact ⟨now, .of_runs passed ends⟩

theorem reaches_call (idle : Idle run) (number : s.traffic.setup.engine.number = 0)
    (around : w.Around s.traffic.setup) {m : MethodName} {body : Body}
    (defined : s.traffic.setup.host.body? m = some body) (args : CallArgs) :
    ∃ setup, (call run m args w).2.Around setup ∧
      Reaches opens s { s with traffic := { s.traffic with setup } } := by
  obtain ⟨setup, now, ends⟩ := ends_perform opens (s := s)
    (w := { w with stack := frameOf m :: w.stack }) idle args body [] number
    ⟨around.host, around.engines, around.journal, around.warnings⟩
  have begun : Reaches opens s { s with activations := .entering body [] ::ₘ s.activations } :=
    .single (.calls defined)
  have called : call run m args w =
      (inFrame (frameOf m) (perform run args body) >>= fun v => pure (.ok v)) w := by
    unfold call
    rw [get_bind_apply, around.host, defined]
  refine ⟨setup, ?_⟩
  rw [called, bind_apply]
  unfold inFrame
  revert now ends
  rcases perform run args body { w with stack := frameOf m :: w.stack } with ⟨e | v, w'⟩
  all_goals
    intro now ends
    refine ⟨⟨now.host, now.engines, now.journal, now.warnings⟩, begun.trans ?_⟩
  · have finished : Reaches opens _ _ := ends
    rwa [Activation.rest, Multiset.zero_add] at finished
  · have finished := Relation.ReflTransGen.tail (show Reaches opens _ _ from ends)
      (.goes (Multiset.singleton_add _ _) .finished)
    rwa [Multiset.zero_add] at finished

theorem ends_traceLine (opens : Job → Prop) (idle : Idle run) (path : String) (line : UInt32)
    (locals : Vars) (traces : List LineTrace) : ∀ {s : Crowd} {w : World}, w.Around s.traffic.setup →
      ∃ setup, (traceLine run traces path line locals w).2.Around setup ∧
        Ends opens s (.leaving ((traces.filter (concerns path line)).map (·.callback)))
          setup 0 := by
  induction traces with
  | nil =>
    intro s w around
    exact ⟨_, around, ends_last .finished⟩
  | cons t rest ih =>
    intro s w around
    let x (w : World) : Execution := .line { path, line, locals, stack := w.stack }
    let tell : Action Unit :=
      if concerns path line t = true then get >>= fun w => fire run (x w) t.callback else pure ()
    have unfolded : traceLine run (t :: rest) path line locals w =
        (tell >>= fun _ => traceLine run rest path line locals) w := rfl
    rw [unfolded, bind_apply]
    by_cases concerned : concerns path line t = true
    · have told : tell = get >>= fun w => fire run (x w) t.callback := if_pos concerned
      rw [told, get_bind_apply, List.filter_cons_of_pos concerned, List.map_cons]
      obtain ⟨part, now, first⟩ := ends_fire opens (s := s) idle around (x w) t.callback
        ((rest.filter (concerns path line)).map (·.callback))
      revert now first
      rcases fire run (x w) t.callback w with ⟨e | u, w'⟩
      · exact fun now first => ⟨part, now, first⟩
      · intro now first
        obtain ⟨setup, now', ends⟩ :=
          ih (s := { s with traffic := { s.traffic with setup := part } }) now
        exact ⟨setup, now', first.trans ends⟩
    · have silent : tell = pure () := if_neg concerned
      rw [silent, List.filter_cons_of_neg concerned]
      exact ih around

theorem reaches_line (idle : Idle run) (around : w.Around s.traffic.setup) (path : String)
    (line : UInt32) (locals : Vars) :
    ∃ setup, (executeLine run path line locals w).2.Around setup ∧
      Reaches opens s { s with traffic := { s.traffic with setup } } := by
  have ends : ∀ w' : World, w'.Around s.traffic.setup → ∃ setup,
      (traceLine run (w.host.tracesOf path line) path line locals w').2.Around setup ∧
        Reaches opens s { s with traffic := { s.traffic with setup } } := by
    intro w' around'
    obtain ⟨setup, now, ends⟩ := ends_traceLine opens idle path line locals
      (w.host.tracesOf path line) around'
    rw [around.host] at ends
    have begun : Reaches opens s { s with
        activations := .leaving (s.traffic.setup.host.callbacksAt path line) ::ₘ s.activations } :=
      .single .line
    have finished : Reaches opens _ _ := begun.trans ends
    rw [Multiset.zero_add] at finished
    exact ⟨setup, now, finished⟩
  unfold executeLine
  rw [get_bind_apply]
  dsimp only
  split
  · cases framed : w.stack with
    | cons frame rest =>
      exact ends { w with stack := { frame with file := path, line } :: rest }
        ⟨around.host, around.engines, around.journal, around.warnings⟩
    | nil =>
      obtain ⟨setup, now, reaches⟩ := ends
        { w with stack := ⟨path, "<main>", line⟩ :: w.stack }
        ⟨around.host, around.engines, around.journal, around.warnings⟩
      exact ⟨setup, ⟨now.host, now.engines, now.journal, now.warnings⟩, reaches⟩
  · exact ⟨_, around, .refl⟩

end Crowd
end LiveProbe
