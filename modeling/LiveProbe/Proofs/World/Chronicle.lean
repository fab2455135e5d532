import LiveProbe.Proofs.Engine.Retirement
import LiveProbe.Proofs.World.Upkeep

/-!
What every method was defined as last, in whatever order a host runs, engines start on it, do their
work and are shut down. With one engine on the host, a method is what it was defined as last, or has
its hook on that.
-/
namespace LiveProbe

namespace Setup

variable {s : Setup} {propagate : Bool} {latest : Definitions}

theorem kept_rooted (latest : Definitions) :
    Kept (fun _ _ => False) fun s => s.held.Rooted latest where
  congr s s' host hooks _ _ rooted := by
    refine rooted.congr (fun m => ?_) ?_ ?_ ?_
    · show s'.host.body? m = s.host.body? m
      rw [host]
    · exact congrArg (·.refuses) host
    · exact congrArg (·.manager) hooks
    · exact congrArg (·.methods) hooks
  refused {_ s t e} _ _ _ rooted := rooted.hookWhenDefined s.engine.code t _
  founded {_ s t p installed} _ _ _ _ rooted := by
    rw [(restaffed_enterFirst t p installed (s.requestHook t).2).1.held]
    exact rooted.hookWhenDefined s.engine.code t _
  joined {_ s t g p} _ _ _ rooted := by
    rw [(restaffed_enterGroup g p s).1.held]
    exact rooted
  dismissed {_ s k t} _ _ here rooted := by
    rw [(removePending_parts here s).2.1]
    split
    · exact rooted.forget t
    · exact rooted
  removed {_ s k t} composed installs here rooted := by
    rw [(composed.removeInstalled_parts installs here).2]
    split
    · exact rooted
    · exact rooted.unhook t
  attended {_ s} typeName _ rooted := by
    rw [held_typeDefined]
    exact rooted.installPendingMethods s.engine.code typeName
  discovered {_ s} path _ rooted := by
    rw [held_fileKnown]
    exact rooted.installPendingLines s.engine.code path
  turned _ _ rooted := rooted
  defined _ _ none := none.elim
  loaded _ _ rooted := rooted.congr (fun _ => rfl) rfl rfl rfl

/-- An engine that is composed, whose hooks are laid on what was defined last. -/
def Chronicled (propagate : Bool) (latest : Definitions) (s : Setup) : Prop :=
  Composed propagate s ∧ s.held.Rooted latest

theorem steady_chronicled (propagate : Bool) (latest : Definitions) :
    Steady (Chronicled propagate latest) :=
  (kept_rooted latest).steady_of stable_composed.toSteady fun _ composed => composed

theorem Chronicled.define (chronicled : s.Chronicled propagate latest) (typeName : String)
    (methods : List (String × Code)) :
    let bodies := methods.map fun e => (e.1, Body.program e.2)
    let s' : Setup := { s with host := s.host.define typeName bodies }
    let latest' := latest.enter typeName methods
    s.host.definitionObservers.map (·.2) = [] ∧ s'.Chronicled propagate latest' ∨
      s.host.definitionObservers.map (·.2) = [.engine 0] ∧
        (s'.typeDefined typeName).Chronicled propagate latest' := by
  intro bodies s' latest'
  obtain ⟨composed, rooted⟩ := chronicled
  have redefined : s'.held.Rooted latest' := rooted.define typeName methods
  have composed' : Composed propagate s' := composed.define typeName bodies
  exact (stable_composed.define typeName methods s composed).imp
    (fun unheard => ⟨unheard.1, unheard.2, redefined⟩)
    fun heard => ⟨heard.1, heard.2, (kept_rooted latest').attended typeName composed' redefined⟩

theorem chronicled_start {h : Host} (pristine : Pristine h)
    (bodies : ∀ m, h.body? m = (latest m).map .program) (settings : Settings) (origin : Origin)
    (journal : List Occurrence) (warnings : List Warning) :
    (unstarted settings origin h journal warnings).start.Chronicled settings.propagate latest := by
  refine ⟨composed_start settings origin journal warnings pristine, ?_⟩
  obtain ⟨registry, tracked, -⟩ :=
    track_unstarted pristine.lists settings origin journal warnings
  unfold start
  rw [tracked]
  exact .bare pristine.willing rfl bodies

end Setup

namespace World

variable {w w' : World} {latest : Definitions}

def shutDown (n : Nat) (w : World) : World := w.updateSetup n Setup.shutdown

/-- What every method was defined as last, in a world that a new host has come to, and how. -/
inductive Chronicle : Definitions → World → Prop
  | fresh (w : World) : Chronicle (fun _ => none) w.fresh
  | drifts {latest : Definitions} {w w' : World} (host : w'.host = w.host)
    (engines : w'.engines = w.engines) (poisoned : w'.poisoned = w.poisoned)
    (before : Chronicle latest w) : Chronicle latest w'
  | defines {latest : Definitions} {w : World} (typeName : String) (methods : List (String × Code))
    (before : Chronicle latest w) :
    Chronicle (latest.enter typeName methods) (w.define typeName methods)
  | loads {latest : Definitions} {w : World} (path : String) (lines : List UInt32)
    (before : Chronicle latest w) : Chronicle latest (w.load path lines).2
  | launches {latest : Definitions} {w : World} (settings : Settings) (origin : Origin)
    (unmanned : w.engines = []) (before : Chronicle latest w) :
    Chronicle latest (w.launch settings origin)
  | processes {latest : Definitions} {w : World} (n : Nat) (documents : List Json)
    (before : Chronicle latest w) : Chronicle latest (w.inSetup n (·.process documents)).2
  | turns {latest : Definitions} {w : World} (n : Nat) (k : KnownProbe)
    (before : Chronicle latest w) :
    Chronicle latest (w.inSetup n fun s => s.onProbes (Probes.takeTurn k)).2
  | tells {latest : Definitions} {w : World} (n : Nat) (f : Setup → Notice)
    (before : Chronicle latest w) : Chronicle latest (w.updateSetup n fun s => s.tell (f s))
  | delivers {latest : Definitions} {w : World} (n : Nat) (before : Chronicle latest w) :
    Chronicle latest (w.updateSetup n Setup.settleDelivery)
  | shutsDown {latest : Definitions} {w : World} (n : Nat) (before : Chronicle latest w) :
    Chronicle latest (w.shutDown n)

theorem lasting_chronicle : Lasting fun w => ∃ latest, Chronicle latest w where
  congr _ _ host engines poisoned := fun ⟨latest, before⟩ =>
    ⟨latest, .drifts host engines poisoned before⟩
  load path lines _ := fun ⟨latest, before⟩ => ⟨latest, .loads path lines before⟩
  process n documents _ := fun ⟨latest, before⟩ => ⟨latest, .processes n documents before⟩
  turn n k _ := fun ⟨latest, before⟩ => ⟨latest, .turns n k before⟩
  told n f _ := fun ⟨latest, before⟩ => ⟨latest, .tells n f before⟩
  settled n _ := fun ⟨latest, before⟩ => ⟨latest, .delivers n before⟩
  define typeName methods _ := fun ⟨_, before⟩ => ⟨_, .defines typeName methods before⟩

theorem chronicle_history (fuel : Nat) (settings : Settings) (origin : Origin)
    (before later : List Event) (w : World) :
    ∃ latest, Chronicle latest (w.history fuel settings origin before later) := by
  obtain ⟨latest, first⟩ := lasting_chronicle.after fuel before ⟨_, .fresh w⟩
  have unmanned := (lasting_vacant.after fuel before (vacant_fresh w)).1
  exact lasting_chronicle.after fuel later ⟨latest, .launches settings origin unmanned first⟩

/-- Either nobody has come to the host yet, and methods are what they were defined as; or there is
one engine, whose hooks are laid on that. -/
def Rooted (latest : Definitions) (w : World) : Prop :=
  w.Vacant ∧ (∀ m, w.host.body? m = (latest m).map .program) ∨
    ∃ propagate, w.Hosts (Setup.Chronicled propagate latest)

theorem Rooted.inSetup (rooted : w.Rooted latest) {α : Type} (n : Nat) {f : Setup → α × Setup}
    (kept : ∀ propagate s, Setup.Chronicled propagate latest s →
      Setup.Chronicled propagate latest (f s).2) : (w.inSetup n f).2.Rooted latest := by
  rcases rooted with ⟨vacant, bodies⟩ | ⟨propagate, hosts⟩
  · have nobody : w.engines[n]? = none := by
      rw [vacant.1]
      rfl
    rw [inSetup_of_none nobody]
    exact Or.inl ⟨vacant, bodies⟩
  · exact Or.inr ⟨propagate, hosts.inSetup (kept propagate) n⟩

theorem Rooted.define (rooted : w.Rooted latest) (typeName : String)
    (methods : List (String × Code)) :
    (w.define typeName methods).Rooted (latest.enter typeName methods) := by
  rcases rooted with ⟨vacant, bodies⟩ | ⟨propagate, hosts⟩
  · refine Or.inl ⟨lasting_vacant.define typeName methods w vacant, fun m => ?_⟩
    rw [define_eq, vacant.2.definitions]
    show (w.host.define _ _).body? m = _
    rw [Host.body?_define_given, bodies, Definitions.enter]
    cases Switchboard.given typeName methods m <;> rfl
  · exact Or.inr ⟨propagate, hosts.define fun s chronicled => chronicled.define typeName methods⟩

theorem Chronicle.rooted (chronicle : Chronicle latest w) : w.Rooted latest := by
  induction chronicle with
  | fresh w => exact Or.inl ⟨vacant_fresh w, fun _ => rfl⟩
  | drifts host engines poisoned _ ih =>
    rcases ih with ⟨vacant, bodies⟩ | ⟨propagate, hosts⟩
    · refine Or.inl ⟨lasting_vacant.congr _ _ host engines poisoned vacant, ?_⟩
      rw [host]
      exact bodies
    · exact Or.inr ⟨propagate,
        (steady_hosts (Setup.steady_chronicled propagate _)).congr _ _ host engines poisoned hosts⟩
  | defines typeName methods _ ih => exact ih.define typeName methods
  | @loads _ w path lines _ ih =>
    rcases ih with ⟨vacant, bodies⟩ | ⟨propagate, hosts⟩
    · refine Or.inl ⟨lasting_vacant.load path lines w vacant, ?_⟩
      rw [load_eq, vacant.2.compiles]
      exact bodies
    · exact Or.inr ⟨propagate, hosts.load (Setup.steady_chronicled propagate _) path lines⟩
  | launches settings origin unmanned _ ih =>
    rcases ih with ⟨vacant, bodies⟩ | ⟨propagate, hosts⟩
    · refine Or.inr ⟨settings.propagate, vacant.launch settings origin fun s same => ?_⟩
      rw [same]
      exact Setup.chronicled_start vacant.2 bodies settings origin _ _
    · obtain ⟨e, only, -⟩ := hosts
      rw [only] at unmanned
      cases unmanned
  | processes n documents _ ih =>
    exact ih.inSetup n fun propagate => (Setup.steady_chronicled propagate _).process documents
  | turns n k _ ih =>
    exact ih.inSetup n fun propagate => (Setup.steady_chronicled propagate _).turn k
  | tells n f _ ih =>
    exact ih.inSetup n fun propagate s => (Setup.steady_chronicled propagate _).told (f s) s
  | delivers n _ ih =>
    exact ih.inSetup n fun propagate => (Setup.steady_chronicled propagate _).settled
  | shutsDown n _ ih =>
    exact ih.inSetup n fun _ _ chronicled => chronicled.1.shutdown chronicled.2

end World
end LiveProbe
