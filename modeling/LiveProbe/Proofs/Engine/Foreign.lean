import LiveProbe.Proofs.Engine.Entering
import LiveProbe.Proofs.Engine.Following
import LiveProbe.Proofs.Hook.Foreign

/-!
An engine on a host that others trace lines of. Whatever the engine does for its probes, it does in
the same way where the foreign traces are left out, and removing probes leaves these as they are.
-/
namespace LiveProbe.Setup

variable {s s' : Setup} {foreign : List Nat}

def without (foreign : List Nat) (s : Setup) : Setup := { s with host := s.host.without foreign }

/-- An operation does the same without the foreign traces, and lets them be. -/
structure Blind {α : Type} (foreign : List Nat) (f : Setup → α × Setup) (s : Setup) : Prop where
  same : f (s.without foreign) = ((f s).1, (f s).2.without foreign)
  apart : (f s).2.held.Apart foreign

theorem Blind.hooking {α : Type} {f : Hooking → α × Hooking}
    (blind : Hooking.Blind foreign f s.held) : Blind foreign (Setup.hooking f) s := by
  refine ⟨?_, blind.apart⟩
  unfold Setup.hooking
  rw [show (⟨(s.without foreign).host, (s.without foreign).engine.hooks,
    (s.without foreign).warnings⟩ : Hooking) = s.held.without foreign from rfl, blind.same]
  rfl

section Blind

variable (apart : s.held.Apart foreign)

include apart

theorem requestHook_blind (t : HookTarget) : Blind foreign (requestHook t) s := by
  have hooked := Blind.hooking (apart.hookWhenDefined s.engine.code t
    (.probes s.engine.number s.engine.probes.nextGroup))
  exact ⟨hooked.same, hooked.apart⟩

theorem addProbe_blind (p : Probe) : Blind foreign (addProbe p) s := by
  have admission : (s.without foreign).engine.probes.admission p =
      s.engine.probes.admission p := rfl
  refine ⟨?_, ?_⟩ <;> unfold addProbe
  · rw [admission]
    rcases s.engine.probes.admission p with e | _ | group | target
    · rfl
    · rfl
    · dsimp only
      unfold enterGroup enter
      cases joined : s.engine.probes.groupInstalled group <;>
        rw [show (s.without foreign).engine.probes.groupInstalled group = _ from joined] <;> rfl
    · dsimp only
      rw [(requestHook_blind apart target).same]
      rcases s.requestHook target with ⟨e | installed, t⟩
      · rfl
      · cases installed <;> rfl
  · rcases s.engine.probes.admission p with e | _ | group | target
    · exact apart
    · exact apart
    · show ((s.enterGroup group p).held).Apart foreign
      rw [(restaffed_enterGroup group p s).1.held]
      exact apart
    · have after := (requestHook_blind apart target).apart
      dsimp only
      rcases answer : s.requestHook target with ⟨e | installed, t⟩ <;> rw [answer] at after
      · exact after
      · show ((t.enterFirst target p installed).held).Apart foreign
        rw [(restaffed_enterFirst target p installed t).1.held]
        exact after

theorem removePending_blind (e : String × KnownProbe) :
    Blind foreign (fun s => ((), s.removePending e)) s := by
  refine ⟨?_, ?_⟩ <;> unfold removePending <;> dsimp only
  · cases e.2.probe.target with
    | error _ => rfl
    | ok target =>
      cases target with
      | none => rfl
      | some target =>
        dsimp only [onProbes, setProbes, without]
        rcases Probes.leave target e.1 (s.engine.probes.dropPending e.1) with ⟨last, ps⟩
        cases last <;> rfl
  · cases e.2.probe.target with
    | error _ => exact apart
    | ok target =>
      cases target with
      | none => exact apart
      | some target =>
        dsimp only [onProbes, setProbes]
        rcases Probes.leave target e.1 (s.engine.probes.dropPending e.1) with ⟨last, ps⟩
        cases last
        · exact apart
        · exact apart.forget target

theorem removeInstalled_blind (id : String) (k : KnownProbe) :
    Blind foreign (removeInstalled id k) s := by
  refine ⟨?_, ?_⟩ <;> unfold removeInstalled
  · cases k.probe.target with
    | error _ => rfl
    | ok target =>
      cases target with
      | none => rfl
      | some target =>
        dsimp only
        rw [show (s.without foreign).engine = s.engine from rfl]
        cases s.engine.probes.sharesHook target id with
        | true => rfl
        | false =>
          simp only [Bool.false_eq_true, if_false]
          rw [(Blind.hooking (apart.unhook target)).same]
          rcases s.hooking (Hooking.unhook target) with ⟨e | _, t⟩ <;> rfl
  · cases k.probe.target with
    | error _ => exact apart
    | ok target =>
      cases target with
      | none => exact apart
      | some target =>
        dsimp only
        cases s.engine.probes.sharesHook target id with
        | true => exact apart
        | false =>
          have after := (Blind.hooking (apart.unhook target)).apart
          simp only [Bool.false_eq_true, if_false]
          rcases answer : s.hooking (Hooking.unhook target) with ⟨e | _, t⟩ <;>
            rw [answer] at after
          · exact after.of_parts rfl rfl
          · exact after

end Blind

theorem foldl_removePending_blind (gone : List (String × KnownProbe)) :
    ∀ {s : Setup}, s.held.Apart foreign →
      Blind foreign (fun s => ((), gone.foldl removePending s)) s := by
  induction gone with
  | nil =>
    intro s apart
    exact ⟨rfl, apart⟩
  | cons e rest ih =>
    intro s apart
    obtain ⟨same, after⟩ := removePending_blind apart e
    obtain ⟨later, apart'⟩ := ih after
    refine ⟨?_, apart'⟩
    dsimp only [Prod.mk.injEq] at same later ⊢
    rw [List.foldl_cons, (Prod.mk.inj same).2]
    exact later

theorem removeAllInstalled_blind (gone : List (String × KnownProbe)) :
    ∀ {s : Setup}, s.held.Apart foreign → Blind foreign (removeAllInstalled gone) s := by
  induction gone with
  | nil =>
    intro s apart
    exact ⟨rfl, apart⟩
  | cons e rest ih =>
    intro s apart
    obtain ⟨same, after⟩ := removeInstalled_blind apart e.1 e.2
    obtain ⟨later, apart'⟩ := ih after
    refine ⟨?_, apart'⟩
    unfold removeAllInstalled
    dsimp only
    rw [same, later]

def prune (pending installed : List (String × KnownProbe)) (s : Setup) :
    Except Error Unit × Setup :=
  let s := pending.foldl removePending s
  let (result, s) := s.removeAllInstalled installed
  (if s.engine.propagate then result else .ok (), s)

theorem installed_foldl_removePending (gone : List (String × KnownProbe)) (s : Setup) :
    (gone.foldl removePending s).engine.probes.installed = s.engine.probes.installed := by
  have left : ∀ (t : HookTarget) (id : String) (ps : Probes),
      (Probes.leave t id ps).2.installed = ps.installed := by
    intro t id ps
    unfold Probes.leave
    split
    · rfl
    · dsimp only
      split <;> rfl
  induction gone generalizing s with
  | nil => rfl
  | cons e rest ih =>
    rw [List.foldl_cons, ih]
    unfold removePending
    cases e.2.probe.target with
    | error _ => rfl
    | ok target =>
      cases target with
      | none => rfl
      | some target =>
        have after := left target e.1 (s.engine.probes.dropPending e.1)
        dsimp only [onProbes, setProbes]
        rcases gone : Probes.leave target e.1 (s.engine.probes.dropPending e.1) with ⟨last, ps⟩
        rw [gone] at after
        cases last <;> exact after

theorem keepProbes_eq_prune (named : List String) (s : Setup) :
    s.keepProbes named = s.prune (Probes.others named s.engine.probes.pending)
      (Probes.others named s.engine.probes.installed) := by
  have installed := installed_foldl_removePending (Probes.others named s.engine.probes.pending) s
  unfold keepProbes prune
  dsimp only
  rw [installed]

theorem prune_blind (apart : s.held.Apart foreign)
    (pending installed : List (String × KnownProbe)) :
    Blind foreign (prune pending installed) s := by
  obtain ⟨same, after⟩ := foldl_removePending_blind pending apart
  obtain ⟨later, apart'⟩ := removeAllInstalled_blind installed after
  refine ⟨?_, apart'⟩
  unfold prune
  dsimp only
  rw [(Prod.mk.inj same).2, later]
  rfl

theorem hookInstalled_without (t : HookTarget) (s : Setup) :
    (s.without foreign).hookInstalled t = (s.hookInstalled t).without foreign := by
  unfold hookInstalled
  rw [show (s.without foreign).engine.observer = s.engine.observer from rfl]
  split
  · exact List.foldl_hom (without foreign) fun _ _ => rfl
  · rfl
  · rfl

theorem Blind.landing {f : Hooking → List HookTarget × Hooking}
    (blind : Hooking.Blind foreign f s.held) :
    Blind foreign (fun s => ((), (s.hooking f).1.foldl hookInstalled (s.hooking f).2)) s := by
  obtain ⟨same, after⟩ := Blind.hooking blind
  refine ⟨?_, ?_⟩ <;> dsimp only
  · rw [same]
    exact congrArg _ (List.foldl_hom (without foreign) fun s t => hookInstalled_without t s)
  · rw [held_foldl_hookInstalled]
    exact after

theorem typeDefined_blind (apart : s.held.Apart foreign) (typeName : String) :
    Blind foreign (fun s => ((), s.typeDefined typeName)) s :=
  have landed := Blind.landing (apart.installPendingMethods s.engine.code typeName)
  ⟨landed.same, landed.apart⟩

theorem fileKnown_blind (apart : s.held.Apart foreign) (path : String) :
    Blind foreign (fun s => ((), s.fileKnown path)) s :=
  have landed := Blind.landing (apart.installPendingLines s.engine.code path)
  ⟨landed.same, landed.apart⟩

/-! Removing probes removes no foreign trace. -/

theorem host_removePending (s : Setup) (e : String × KnownProbe) :
    (s.removePending e).host = s.host := by
  unfold removePending
  cases e.2.probe.target with
  | error _ => rfl
  | ok target =>
    cases target with
    | none => rfl
    | some target =>
      dsimp only [onProbes, setProbes]
      rcases Probes.leave target e.1 (s.engine.probes.dropPending e.1) with ⟨last, ps⟩
      cases last <;> rfl

theorem host_foldl_removePending (gone : List (String × KnownProbe)) (s : Setup) :
    (gone.foldl removePending s).host = s.host := by
  induction gone generalizing s with
  | nil => rfl
  | cons e rest ih => exact (ih (s.removePending e)).trans (host_removePending s e)

theorem removeInstalled_spares (apart : s.held.Apart foreign) (id : String) (k : KnownProbe) :
    Hooking.Spares foreign s.host (s.removeInstalled id k).2.host := by
  have spares : ∀ target, Hooking.Spares foreign s.host (s.hooking (Hooking.unhook target)).2.host :=
    fun target => apart.unhook_spares target
  unfold removeInstalled
  cases k.probe.target with
  | error _ => exact Hooking.Spares.of_traces rfl
  | ok target =>
    cases target with
    | none => exact Hooking.Spares.of_traces rfl
    | some target =>
      dsimp only
      cases s.engine.probes.sharesHook target id with
      | true => exact Hooking.Spares.of_traces rfl
      | false =>
        have removed := spares target
        simp only [Bool.false_eq_true, if_false]
        rcases answer : s.hooking (Hooking.unhook target) with ⟨e | _, t⟩ <;>
          rw [answer] at removed <;> exact removed

theorem removeAllInstalled_spares (gone : List (String × KnownProbe)) :
    ∀ {s : Setup}, s.held.Apart foreign →
      Hooking.Spares foreign s.host (s.removeAllInstalled gone).2.host := by
  induction gone with
  | nil =>
    intro s _
    exact Hooking.Spares.of_traces rfl
  | cons e rest ih =>
    intro s apart
    exact (removeInstalled_spares apart e.1 e.2).trans
      (ih (removeInstalled_blind apart e.1 e.2).apart)

theorem prune_spares (apart : s.held.Apart foreign)
    (pending installed : List (String × KnownProbe)) :
    Hooking.Spares foreign s.host (s.prune pending installed).2.host := by
  have first := host_foldl_removePending pending s
  have second := removeAllInstalled_spares installed (foldl_removePending_blind pending apart).apart
  rw [first] at second
  exact second

/-- All traces on the host but the foreign ones are those of the engine, which is coherent with
them. -/
structure Tidy (foreign : List Nat) (s : Setup) : Prop where
  apart : s.held.Apart foreign
  coherent : Coherent [] (s.without foreign)

theorem Blind.tidy {α : Type} {f : Setup → α × Setup} (blind : Blind foreign f s)
    (coherent : Coherent [] (f (s.without foreign)).2) : Tidy foreign (f s).2 := by
  refine ⟨blind.apart, ?_⟩
  rw [blind.same] at coherent
  exact coherent

end LiveProbe.Setup
