import LiveProbe.Proofs.Dispatch.Simulation

/-!
What a call does, whatever managers of one host have been asked for before. The method does what it
was defined as last, once, and then the hooks that are installed on it and current are told, one
for each manager at most. No other hook, and no former body, is ever run.
-/
namespace LiveProbe

def Switchboard.dispatch (b : Switchboard) (run : Runner) (m : MethodName) (args : CallArgs)
    (callbacks : List Callback) : Action (Except Error Value) := do
  match b.defined m with
  | none => return .error (.targetNotDefined m.display)
  | some code =>
    return .ok (← Action.inFrame (Action.frameOf m) (Action.observed run args code callbacks))

theorem Action.call_of_undefined (run : Runner) (args : CallArgs) {m : MethodName} {w : World}
    (undefined : w.host.body? m = none) :
    call run m args w = (pure (.error (.targetNotDefined m.display)) : Action _) w := by
  unfold call
  rw [get_bind_apply, undefined]

theorem Action.call_of_found (run : Runner) (args : CallArgs) {m : MethodName} {body : Body}
    {w : World} (found : w.host.body? m = some body) :
    call run m args w =
      (inFrame (frameOf m) (perform run args body) >>= fun returned => pure (.ok returned)) w := by
  unfold call
  rw [get_bind_apply, found]

theorem Action.call_of_stacked (run : Runner) (args : CallArgs) {m : MethodName} {code : Code}
    {bound : Nat → Nat} {body : Body} {w : World} (found : w.host.body? m = some body)
    (stacked : body.Stacked m code bound) :
    call run m args w = (do
      let returned ← inFrame (frameOf m)
        (observed run args code ((body.live fun n => w.slot n m).map fun e => e.2))
      return .ok returned : Action (Except Error Value)) w := by
  have started : inFrame (frameOf m) (perform run args body) w = inFrame (frameOf m)
      (observed run args code ((body.live fun n => w.slot n m).map (·.2))) w := by
    unfold inFrame
    rw [perform_of_stacked run args stacked]
    rfl
  rw [call_of_found run args found]
  exact bind_congr_apply started _

namespace World

variable {b : Switchboard} {w : World} {n : Nat}

theorem Mirrored.mem_live (mirrored : Mirrored b w) {m : MethodName} {body : Body} {code : Code}
    (found : w.host.body? m = some body) (stacked : body.Stacked m code w.numbers)
    {callback : Callback} :
    (n, callback) ∈ body.live (fun k => w.slot k m) ↔ b.Fires n m callback := by
  have layer : ∀ i, w.host.layer? m n i = body.layer? n i := fun i => by
    rw [Host.layer?, found]
    rfl
  rw [stacked.mem_live]
  constructor
  · intro laid
    obtain ⟨saved, live⟩ := laid
    have positive := stacked.positive (by rw [live]; rfl)
    cases manager : w.engines[n]? with
    | none =>
      rw [World.slot, manager] at positive
      exact absurd positive (Nat.lt_irrefl 0)
    | some e =>
      have slot : w.slot n m = e.hooks.slot m := by
        rw [World.slot, manager]
        rfl
      obtain ⟨d, desk⟩ := mirrored.exists_desk manager
      have seated := (mirrored.desks n e d manager desk).seated m
      rw [mirrored.managers n e manager, ← slot] at seated
      refine ⟨d, desk, ?_⟩
      cases ticket : d.installed m with
      | none =>
        rw [ticket] at seated
        rw [seated.2] at positive
        exact absurd positive (Nat.lt_irrefl 0)
      | some t =>
        rw [ticket] at seated
        obtain ⟨saved', -, -, -, laid⟩ := seated
        rw [layer, live] at laid
        split at laid
        · rename_i current
          cases laid
          rw [← current]
        · cases laid
  · intro fires
    obtain ⟨d, desk, ticket⟩ := fires
    obtain ⟨e, manager⟩ := mirrored.exists_manager desk
    have slot : w.slot n m = e.hooks.slot m := by
      rw [World.slot, manager]
      rfl
    have seated := (mirrored.desks n e d manager desk).seated m
    rw [mirrored.managers n e manager, ← slot, ticket] at seated
    obtain ⟨saved, -, -, -, laid⟩ := seated
    rw [layer] at laid
    exact ⟨saved, laid⟩

theorem Mirrored.isInstalled (mirrored : Mirrored b w) (n : Nat) (m : MethodName) :
    w.engines[n]?.any (·.hooks.isInstalled (.method m)) = b.isHooked n m := by
  unfold Switchboard.isHooked
  cases manager : w.engines[n]? with
  | none =>
    have outside : b.desks[n]? = none := by
      rw [List.getElem?_eq_none_iff, ← mirrored.count]
      exact List.getElem?_eq_none_iff.mp manager
    rw [outside]
    rfl
  | some e =>
    obtain ⟨d, desk⟩ := mirrored.exists_desk manager
    rw [desk]
    exact (mirrored.desks n e d manager desk).isInstalled m

theorem Mirrored.not_fires (mirrored : Mirrored b w) {m : MethodName}
    (undefined : w.host.body? m = none) (callback : Callback) : ¬ b.Fires n m callback := by
  intro ⟨d, desk, ticket⟩
  obtain ⟨e, manager⟩ := mirrored.exists_manager desk
  have seated := (mirrored.desks n e d manager desk).seated m
  rw [ticket] at seated
  obtain ⟨saved, -, -, known, -⟩ := seated
  rw [undefined] at known
  cases known

theorem Mirrored.call (mirrored : Mirrored b w) (m : MethodName) :
    ∃ fired : List (Nat × Callback), (fired.map (·.1)).Nodup ∧
      (∀ n callback, (n, callback) ∈ fired ↔ b.Fires n m callback) ∧
      ∀ run args, Action.call run m args w = b.dispatch run m args (fired.map (·.2)) w := by
  have chained := mirrored.chained m
  unfold Host.Chained at chained
  cases found : w.host.body? m with
  | none =>
    rw [found] at chained
    refine ⟨[], List.nodup_nil, fun n callback => ?_, fun run args => ?_⟩
    · exact iff_of_false List.not_mem_nil (mirrored.not_fires found callback)
    · unfold Switchboard.dispatch
      rw [chained]
      exact Action.call_of_undefined run args found
  | some body =>
    rw [found] at chained
    obtain ⟨code, defined, stacked⟩ := chained
    refine ⟨body.live fun k => w.slot k m, stacked.nodup_live,
      fun n callback => mirrored.mem_live found stacked, fun run args => ?_⟩
    unfold Switchboard.dispatch
    rw [defined]
    exact Action.call_of_stacked run args found stacked

/-- Whatever managers of one host have been asked for, in whatever order: a call of a method does
what it was defined as last, once, and then tells, of each manager, the hook that is installed on
the method and has been since the method was defined. -/
theorem obeyed_call (engines : List Engine) (commands : List Command) (w : World)
    (m : MethodName) :
    let b := commands.foldl Switchboard.obey (Switchboard.idle engines.length)
    let w' := commands.foldl obey (w.manned engines)
    (∀ n, w'.engines[n]?.any (·.hooks.isInstalled (.method m)) = b.isHooked n m) ∧
      ∃ fired : List (Nat × Callback), (fired.map (·.1)).Nodup ∧
        (∀ n callback, (n, callback) ∈ fired ↔ b.Fires n m callback) ∧
        ∀ run args, Action.call run m args w' = b.dispatch run m args (fired.map (·.2)) w' :=
  have mirrored := (mirrored_manned engines w).obeyAll commands
  ⟨fun n => mirrored.isInstalled n m, mirrored.call m⟩

end World
end LiveProbe
