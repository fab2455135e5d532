import LiveProbe.Proofs.Engine.Launch
import LiveProbe.Proofs.World.Respect

/-!
The history of a host with one engine. The host runs for a while, then the engine is put on it and
starts, and the host runs on. What holds of the engine when it has started, and is kept by all that
can happen to it, holds ever after.
-/
namespace LiveProbe

/-- What can happen while a host runs. -/
inductive Event where
  | define (typeName : String) (methods : List (String × Code))
  | load (path : String) (lines : List UInt32)
  | call (m : MethodName) (args : CallArgs)
  | line (path : String) (line : UInt32) (locals : Vars)
  | process (documents : List Json)
  | store (heap : Heap)
  | deliver

def Event.Within (D : DefinitionKind) : Event → Prop
  | .define typeName methods => D typeName methods
  | _ => True

theorem Event.within_any (event : Event) : event.Within fun _ _ => True := by
  cases event <;> trivial

/-- A predicate of a setup that is kept by all that can happen to host and engine but definitions.
Either the engine alone is told of units, or nobody is. -/
structure Setup.Steady (J : Setup → Prop) : Prop where
  congr : ∀ s s' : Setup, s'.host = s.host → s'.engine = s.engine → J s → J s'
  load : ∀ path lines s, J s →
    let s' : Setup := { s with host := (s.host.load path lines).2 }
    s.host.compileObservers.map (·.2) = [] ∧ J s' ∨
      s.host.compileObservers.map (·.2) = [.engine 0] ∧
        J (s'.unitLoaded (s.host.load path lines).1)
  process : ∀ documents s, J s → J (s.process documents).2
  turn : ∀ k s, J s → J (s.onProbes (Probes.takeTurn k)).2
  told : ∀ n s, J s → J (s.tell n)
  settled : ∀ s, J s → J s.settleDelivery

/-- A predicate of a setup that is kept by all that can happen to host and engine. Either the
engine alone is told of definitions and units, or nobody is. -/
structure Setup.Stable (J : Setup → Prop) : Prop extends Steady J where
  define : ∀ typeName (methods : List (String × Code)) s, J s →
    let bodies := methods.map fun e => (e.1, Body.program e.2)
    let s' : Setup := { s with host := s.host.define typeName bodies }
    s.host.definitionObservers.map (·.2) = [] ∧ J s' ∨
      s.host.definitionObservers.map (·.2) = [.engine 0] ∧ J (s'.typeDefined typeName)

namespace World

def take (fuel : Nat) (w : World) : Event → World
  | .define typeName methods => w.define typeName methods
  | .load path lines => (w.load path lines).2
  | .call m args => (Action.call (Action.runCode fuel) m args w).2
  | .line path line locals => (Action.executeLine (Action.runCode fuel) path line locals w).2
  | .process documents => (w.inSetup 0 (·.process documents)).2
  | .store heap => { w with heap }
  | .deliver => w.updateSetup 0 Setup.settleDelivery

def after (fuel : Nat) (events : List Event) (w : World) : World := events.foldl (take fuel) w

def fresh (w : World) : World := { w with host := {}, engines := [] }

def launch (settings : Settings) (origin : Origin) (w : World) : World :=
  { w with engines := w.engines ++ [Engine.complete w.engines.length settings origin] }.updateSetup
    w.engines.length Setup.start

/-- A new host runs, an engine starts on it, and the host runs on. -/
def history (fuel : Nat) (settings : Settings) (origin : Origin) (before later : List Event)
    (w : World) : World :=
  ((w.fresh.after fuel before).launch settings origin).after fuel later

theorem Confined.take {D : DefinitionKind} {P : World → Prop} (confined : Confined D P)
    (fuel : Nat) {w : World} (holds : P w) {event : Event} (within : event.Within D) :
    P (w.take fuel event) := by
  have runs := Action.respects_runCode confined fuel
  cases event with
  | define typeName methods => exact confined.define typeName methods w within holds
  | load path lines => exact confined.load path lines w holds
  | call m args => exact Action.respects_call confined runs m args w holds
  | line path line locals =>
    exact Action.respects_executeLine confined runs path line locals w holds
  | process documents => exact confined.process 0 documents w holds
  | store heap => exact confined.congr w _ rfl rfl rfl holds
  | deliver => exact confined.settled 0 w holds

theorem Confined.after {D : DefinitionKind} {P : World → Prop} (confined : Confined D P)
    (fuel : Nat) (events : List Event) :
    ∀ {w : World}, (∀ event ∈ events, event.Within D) → P w → P (w.after fuel events) := by
  induction events with
  | nil => exact fun _ holds => holds
  | cons event rest ih =>
    intro w within holds
    obtain ⟨first, later⟩ := List.forall_mem_cons.mp within
    exact ih later (confined.take fuel holds first)

theorem Lasting.take {P : World → Prop} (lasting : Lasting P) (fuel : Nat) {w : World} (holds : P w)
    (event : Event) : P (w.take fuel event) :=
  lasting.confined.take fuel holds (event.within_any)

theorem Lasting.after {P : World → Prop} (lasting : Lasting P) (fuel : Nat) (events : List Event)
    {w : World} : P w → P (w.after fuel events) :=
  lasting.confined.after fuel events fun event _ => event.within_any

theorem define_eq (typeName : String) (methods : List (String × Code)) (w : World) :
    w.define typeName methods = (w.host.definitionObservers.map (·.2)).foldl (tellDefined typeName)
      { w with host := w.host.define typeName (methods.map fun e => (e.1, .program e.2)) } := rfl

theorem load_eq (path : String) (lines : List UInt32) (w : World) :
    (w.load path lines).2 =
      (w.host.compileObservers.map (·.2)).foldl (tellLoaded (w.host.load path lines).1)
        { w with host := (w.host.load path lines).2 } := rfl

/-! Before the engine is there, nobody observes the host. -/

def Vacant (w : World) : Prop := w.engines = [] ∧ Setup.Pristine w.host

theorem vacant_fresh (w : World) : w.fresh.Vacant :=
  ⟨rfl, rfl, rfl, rfl, fun _ _ => rfl, rfl, fun _ _ found => by cases found⟩

theorem Vacant.inSetup {w : World} (vacant : w.Vacant) {α : Type} (n : Nat)
    (f : Setup → α × Setup) : (w.inSetup n f).2.Vacant := by
  have nobody : w.engines[n]? = none := by
    rw [vacant.1]
    rfl
  rw [inSetup_of_none nobody]
  exact vacant

theorem lasting_vacant : Lasting Vacant where
  congr w w' host engines _ vacant := by
    unfold Vacant
    rw [host, engines]
    exact vacant
  define typeName methods w vacant := by
    obtain ⟨none, traces, definitions, compiles, willing, lists, plain⟩ := vacant
    rw [define_eq, definitions]
    exact ⟨none, traces, definitions, compiles, willing, lists, plain.define typeName methods⟩
  load path lines w vacant := by
    obtain ⟨none, traces, definitions, compiles, willing, lists, plain⟩ := vacant
    rw [load_eq, compiles]
    exact ⟨none, traces, definitions, compiles, willing, lists, plain⟩
  process n documents w vacant := vacant.inSetup n _
  turn n k w vacant := vacant.inSetup n _
  told n f w vacant := vacant.inSetup n _
  settled n w vacant := vacant.inSetup n _

/-! Afterwards there is one engine, and what is true of it stays true. -/

/-- There is one engine, and something holds of its setup. -/
def Hosts (J : Setup → Prop) (w : World) : Prop :=
  ∃ e, w.engines = [e] ∧ J ⟨w.host, e, w.journal, w.warnings⟩

theorem Hosts.mono {J J' : Setup → Prop} {w : World} (hosts : w.Hosts J)
    (weaker : ∀ s, J s → J' s) : w.Hosts J' := by
  obtain ⟨e, only, holds⟩ := hosts
  exact ⟨e, only, weaker _ holds⟩

theorem Hosts.and {J J' : Setup → Prop} {w : World} (first : w.Hosts J) (second : w.Hosts J') :
    w.Hosts fun s => J s ∧ J' s := by
  obtain ⟨e, only, holds⟩ := first
  obtain ⟨e', only', holds'⟩ := second
  obtain rfl := List.singleton_inj.mp (only'.symm.trans only)
  exact ⟨e', only, holds, holds'⟩

theorem Hosts.inFirst {J J' : Setup → Prop} {w : World} (hosts : w.Hosts J) {α : Type}
    {f : Setup → α × Setup} (becomes : ∀ s, J s → J' (f s).2) : (w.inSetup 0 f).2.Hosts J' := by
  obtain ⟨e, only, holds⟩ := hosts
  have found : w.engines[0]? = some e := by rw [only]; rfl
  unfold World.inSetup
  rw [found, only]
  exact ⟨_, rfl, becomes _ holds⟩

theorem Hosts.inSetup {J : Setup → Prop} {w : World} (hosts : w.Hosts J) {α : Type}
    {f : Setup → α × Setup} (kept : ∀ s, J s → J (f s).2) (n : Nat) :
    (w.inSetup n f).2.Hosts J := by
  cases n with
  | zero => exact hosts.inFirst kept
  | succ n =>
    obtain ⟨e, only, holds⟩ := hosts
    have nobody : w.engines[n + 1]? = none := by rw [only]; rfl
    rw [inSetup_of_none nobody]
    exact ⟨e, only, holds⟩

theorem Hosts.define {J J' : Setup → Prop} {w : World} (hosts : w.Hosts J) {typeName : String}
    {methods : List (String × Code)} (defined : ∀ s : Setup, J s →
      let bodies := methods.map fun e => (e.1, Body.program e.2)
      let s' : Setup := { s with host := s.host.define typeName bodies }
      s.host.definitionObservers.map (·.2) = [] ∧ J' s' ∨
        s.host.definitionObservers.map (·.2) = [.engine 0] ∧ J' (s'.typeDefined typeName)) :
    (w.define typeName methods).Hosts J' := by
  obtain ⟨e, only, holds⟩ := hosts
  rw [define_eq]
  rcases defined _ holds with ⟨unheard, kept⟩ | ⟨heard, kept⟩
  · rw [unheard]
    exact ⟨e, only, kept⟩
  · rw [heard]
    simp only [List.foldl_cons, List.foldl_nil, tellDefined, updateSetup, World.inSetup, only]
    exact ⟨_, rfl, kept⟩

theorem Hosts.load {J : Setup → Prop} (steady : Setup.Steady J) {w : World} (hosts : w.Hosts J)
    (path : String) (lines : List UInt32) : (w.load path lines).2.Hosts J := by
  obtain ⟨e, only, holds⟩ := hosts
  rw [load_eq]
  rcases steady.load path lines _ holds with ⟨unheard, kept⟩ | ⟨heard, kept⟩
  · rw [unheard]
    exact ⟨e, only, kept⟩
  · rw [heard]
    simp only [List.foldl_cons, List.foldl_nil, tellLoaded, updateSetup, World.inSetup, only]
    exact ⟨_, rfl, kept⟩

theorem steady_hosts {J : Setup → Prop} (steady : Setup.Steady J) : Steady (Hosts J) where
  congr w w' host engines _ hosts := by
    obtain ⟨e, only, holds⟩ := hosts
    have same := steady.congr ⟨w.host, e, w.journal, w.warnings⟩
      ⟨w'.host, e, w'.journal, w'.warnings⟩ host rfl holds
    exact ⟨e, engines.trans only, same⟩
  load path lines w hosts := hosts.load steady path lines
  process n documents w hosts := hosts.inSetup (steady.process documents) n
  turn n k w hosts := hosts.inSetup (steady.turn k) n
  told n f w hosts := hosts.inSetup (fun s => steady.told (f s) s) n
  settled n w hosts := hosts.inSetup steady.settled n

theorem lasting_hosts {J : Setup → Prop} (stable : Setup.Stable J) : Lasting (Hosts J) where
  toSteady := steady_hosts stable.toSteady
  define typeName methods _ hosts := hosts.define (stable.define typeName methods)

theorem Vacant.launch {J : Setup → Prop} {w : World} (vacant : w.Vacant) (settings : Settings)
    (origin : Origin)
    (started : ∀ s, s = Setup.unstarted settings origin w.host w.journal w.warnings → J s.start) :
    (w.launch settings origin).Hosts J := by
  unfold World.launch
  rw [vacant.1]
  exact ⟨_, rfl, started _ rfl⟩

theorem history_hosts {J : Setup → Prop} (stable : Setup.Stable J) (settings : Settings)
    (origin : Origin)
    (started : ∀ h journal warnings, Setup.Pristine h →
      J (Setup.unstarted settings origin h journal warnings).start)
    (fuel : Nat) (before later : List Event) (w : World) :
    (w.history fuel settings origin before later).Hosts J := by
  have vacant := lasting_vacant.after fuel before (vacant_fresh w)
  have launched : ((w.fresh.after fuel before).launch settings origin).Hosts J := by
    apply vacant.launch settings origin
    intro s same
    rw [same]
    exact started _ _ _ vacant.2
  exact (lasting_hosts stable).after fuel later launched

end World

namespace Setup

variable {propagate untargeted : Bool}

theorem Coherent.of_hosted {inflight : List HookTarget} {s s' : Setup}
    (coherent : Coherent inflight s) (host : s'.host = s.host) (engine : s'.engine = s.engine) :
    Unmoved s s' ∧ Coherent inflight s' := by
  obtain ⟨h, e, journal, warnings⟩ := s
  obtain ⟨h', e', journal', warnings'⟩ := s'
  subst host engine
  have unmoved : Unmoved ⟨h', e', journal, warnings⟩ ⟨h', e', journal', warnings'⟩ :=
    ⟨⟨rfl, fun _ => rfl, rfl, rfl, rfl⟩, rfl, fun t => by cases t <;> simp [Hooking.Same, held]⟩
  exact ⟨unmoved, coherent.of_unmoved unmoved
    (coherent.anchored.of_methods rfl rfl rfl rfl rfl coherent.anchored.home)⟩

theorem stable_composed : Stable (Composed propagate) where
  congr s s' host engine composed := by
    obtain ⟨unmoved, coherent⟩ := composed.coherent.of_hosted host engine
    exact composed.of_backdrop unmoved.backdrop coherent
  define typeName methods s composed := by
    have defined := composed.define typeName (methods.map fun e => (e.1, .program e.2))
    rw [composed.definitions]
    cases s.engine.hooks.definitions with
    | none => exact Or.inl ⟨rfl, defined⟩
    | some id => exact Or.inr ⟨rfl, defined.typeDefined typeName⟩
  load path lines s composed := by
    have loaded := composed.load path lines
    rw [composed.compiles]
    cases s.engine.code.bind (·.subscription) with
    | none => exact Or.inl ⟨rfl, loaded⟩
    | some id => exact Or.inr ⟨rfl, loaded.unitLoaded _⟩
  process documents s composed := composed.process documents
  turn k s composed := composed.takeTurn k
  told n s composed := composed.tell n
  settled s composed := composed.settleDelivery

theorem stable_attuned : Stable (Attuned propagate untargeted) where
  congr s s' host engine attuned := by
    obtain ⟨unmoved, coherent⟩ := attuned.composed.coherent.of_hosted host engine
    exact attuned.of_backdrop unmoved.backdrop coherent (attuned.aware.of_unmoved unmoved)
  define typeName methods s attuned := Or.inr
    ⟨attuned.definitionObservers,
      attuned.define typeName (methods.map fun e => (e.1, .program e.2))⟩
  load path lines s attuned := Or.inr ⟨attuned.compileObservers, attuned.load path lines⟩
  process documents s attuned := attuned.process documents
  turn k s attuned := attuned.takeTurn k
  told n s attuned := attuned.tell n
  settled s attuned := attuned.settleDelivery

end Setup

theorem World.history_attuned (fuel : Nat) (settings : Settings) (origin : Origin)
    (before later : List Event) (w : World) :
    (w.history fuel settings origin before later).Hosts
      (Setup.Attuned settings.propagate settings.untargetedTracing) :=
  history_hosts Setup.stable_attuned settings origin
    (fun _ journal warnings pristine =>
      Setup.attuned_start pristine settings origin journal warnings)
    fuel before later w

end LiveProbe
