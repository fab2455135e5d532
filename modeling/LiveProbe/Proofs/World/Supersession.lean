import LiveProbe.Proofs.Engine.Service

/-!
Later registrations and earlier ones. A hook that is set takes the place of an older one, but does
not take back what waits for its target. While no target is overtaken so, no target is both hooked
and waited for, and what a hook calls is what was registered last; what waits behind an installed
hook will take its place as soon as the host tells of the type or the file.
-/
namespace LiveProbe

open Function (update)

/-- What can be asked about targets: of the host, a manager, and the registry of the manager. -/
inductive TargetCommand where
  | define (typeName : String) (methods : List (String × Code))
  | load (path : String) (lines : List UInt32)
  | hook (target : HookTarget) (callback : Callback)
  | hookWhenDefined (target : HookTarget) (callback : Callback)
  | unhook (target : HookTarget)
  | clearPending (target : HookTarget)
  | subscribe
  | track
  | untrack

def TargetCommand.asked? : TargetCommand → Option (HookTarget × Callback)
  | .hook target callback | .hookWhenDefined target callback => some (target, callback)
  | _ => none

/-- The setup after a command that concerns the engine; and, of a hook that is asked for and not
refused, whether it is installed now. -/
def Setup.comply (s : Setup) : TargetCommand → Option Bool × Setup
  | .hook target callback =>
    let (answer, s) := s.hooking (Hooking.hook s.engine.code target callback)
    (answer.toOption.map fun _ => true, s)
  | .hookWhenDefined target callback =>
    let (answer, s) := s.hooking (Hooking.hookWhenDefined s.engine.code target callback)
    (answer.toOption, s)
  | .unhook target => (none, (s.hooking (Hooking.unhook target)).2)
  | .clearPending target => (none, (s.onHooks (·.clearPending target)).2)
  | .subscribe => (none, s.subscribe)
  | .track => (none, s.track)
  | .untrack => (none, s.untrack)
  | .define .. | .load .. => (none, s)

namespace World

def comply (w : World) : TargetCommand → Option Bool × World
  | .define typeName methods => (none, w.define typeName methods)
  | .load path lines => (none, (w.load path lines).2)
  | c =>
    let (answer, w) := w.inSetup 0 (·.comply c)
    (answer.join, w)

def holding (t : HookTarget) (w : World) : Holding := w.setup?.elim {} (·.held.holding t)

/-- A hook is installed on a target for which an older one waits. -/
def Overtakes (t : HookTarget) (c : TargetCommand) (w : World) : Prop :=
  (∃ callback, c.asked? = some (t, callback)) ∧ (w.comply c).1 = some true ∧
    (w.holding t).waits.isSome = true

/-- The callbacks that were registered last, beside the world: a registration counts unless it is
refused. -/
def enroll (state : (HookTarget → Option Callback) × World) (c : TargetCommand) :
    (HookTarget → Option Callback) × World :=
  let (answer, w) := state.2.comply c
  (match c.asked?, answer with
    | some (t, callback), some _ => update state.1 t (some callback)
    | _, _ => state.1, w)

/-- The latest registration for a target is the one that counts: no older one waits behind it, and
what it calls is what was registered, unless the method has been defined anew. -/
structure Supersedes (t : HookTarget) (state : (HookTarget → Option Callback) × World) : Prop where
  apart : (state.2.holding t).installed = true → (state.2.holding t).waits = none
  calls : (state.2.holding t).installed = true →
    (state.2.holding t).calls = state.1 t ∨
      (state.2.holding t).calls = none ∧
        ∃ m program, t = .method m ∧ state.2.host.body? m = some (.program program)

end World

structure Holding.Agrees (latest : Option Callback) (h : Holding) : Prop where
  waits : ∀ callback, h.waits = some callback → latest = some callback
  apart : h.installed = true → h.waits = none
  calls : h.installed = true → h.calls = latest ∨ h.calls = none

/-- What may become of a target that is not asked for: what waits is tried, maybe after the method
has been defined anew, or the hook or what waits is taken back. -/
inductive Holding.Becomes (h h' : Holding) : Prop where
  | tried (tried : h.Tried h')
  | redefined (tried : Tried { h with calls := none } h')
  | unhooked (same : h' = ⟨false, none, h.waits⟩)
  | forgotten (same : h' = { h with waits := none })

theorem Holding.Becomes.refl (h : Holding) : h.Becomes h := .tried (Or.inl rfl)

inductive Holding.Answers (callback : Callback) (h : Holding) : Option Bool → Holding → Prop where
  | installed : Answers callback h (some true) ⟨true, some callback, h.waits⟩
  | waits : Answers callback h (some false) ⟨false, none, some callback⟩
  | refused : Answers callback h none h

namespace Holding.Agrees

variable {latest : Option Callback} {h h' : Holding}

theorem tried (agrees : h.Agrees latest) (tried : h.Tried h') : h'.Agrees latest := by
  rcases tried with rfl | ⟨callback, waits, rfl⟩
  · exact agrees
  · have last := agrees.waits callback waits
    exact ⟨fun _ none => (by cases none), fun _ => rfl, fun _ => Or.inl last.symm⟩

theorem becomes (agrees : h.Agrees latest) (becomes : h.Becomes h') : h'.Agrees latest := by
  cases becomes with
  | tried tried => exact agrees.tried tried
  | redefined tried =>
    have cleared : Agrees latest { h with calls := none } :=
      ⟨agrees.waits, agrees.apart, fun _ => Or.inr rfl⟩
    exact cleared.tried tried
  | unhooked same =>
    rw [same]
    exact ⟨agrees.waits, fun none => (by cases none), fun none => (by cases none)⟩
  | forgotten same =>
    rw [same]
    exact ⟨fun _ none => (by cases none), fun _ => rfl, agrees.calls⟩

theorem answers (agrees : h.Agrees latest) {callback : Callback} {answer : Option Bool}
    (answers : Answers callback h answer h') (first : answer = some true → h.waits = none) :
    h'.Agrees (answer.elim latest fun _ => some callback) := by
  cases answers with
  | installed =>
    rw [first rfl]
    exact ⟨fun _ none => (by cases none), fun _ => rfl, fun _ => Or.inl rfl⟩
  | waits =>
    exact ⟨fun _ same => same, fun none => (by cases none), fun none => (by cases none)⟩
  | refused => exact agrees

end Holding.Agrees

namespace World

variable {w : World} {s : Setup}

theorem setup?_define (there : w.setup? = some s)
    (definitions : s.host.definitionObservers =
      s.engine.hooks.definitions.toList.map fun id => (id, Observer.engine 0))
    (typeName : String) (methods : List (String × Code)) :
    let s' : Setup :=
      { s with host := s.host.define typeName (methods.map fun e => (e.1, .program e.2)) }
    (w.define typeName methods).setup? =
      some (if s.engine.hooks.definitions.isSome then s'.typeDefined typeName else s') := by
  obtain ⟨e, found, rfl⟩ := Option.map_eq_some_iff.mp there
  let host := w.host.define typeName (methods.map fun e => (e.1, .program e.2))
  have there' : ({ w with host } : World).setup? = some ⟨host, e, w.journal, w.warnings⟩ :=
    congrArg (Option.map _) found
  have observers : w.host.definitionObservers.map (·.2) =
      e.hooks.definitions.toList.map fun _ => Observer.engine 0 := by
    rw [definitions, List.map_map]
    rfl
  rw [define_eq, observers]
  dsimp only
  cases e.hooks.definitions with
  | none => exact there'
  | some id => exact (setup?_inSetup there' fun s => ((), s.typeDefined typeName)).2

theorem holding_of_setup (there : w.setup? = some s) (t : HookTarget) :
    w.holding t = s.held.holding t := by
  unfold holding
  rw [there]
  rfl

def InService (w : World) : Prop := ∃ s, w.setup? = some s ∧ s.InService

theorem inService_opened (e : Engine) (w : World) : (w.opened e).InService := by
  refine ⟨_, rfl, ⟨⟨⟨?_, rfl, List.nodup_nil, ?_, List.nodup_nil, List.nodup_nil, List.nodup_nil⟩,
    fun _ _ => rfl, ?_, ?_, ?_, ?_⟩, rfl, rfl, ?_⟩⟩
  · exact fun m i found => by cases found
  · exact fun t member => by cases member
  · intro r code e' member
    obtain ⟨r', -, rfl⟩ := Option.map_eq_some_iff.mp code
    cases member
  · exact fun m installed => by cases installed
  · exact fun l installed => by cases installed
  · exact fun m installed => by cases installed
  · show [] = ((e.code.map fun _ => ({} : CodeRegistry)).bind _).toList.map _
    cases e.code <;> rfl

end World

namespace Setup

variable {s : Setup} {c : TargetCommand} {t : HookTarget}

theorem InService.comply_asked (service : s.InService) {callback : Callback}
    (asked : c.asked? = some (t, callback)) :
    let r := s.comply c
    r.2.InService ∧ (∀ other, other ≠ t → r.2.held.holding other = s.held.holding other) ∧
      Holding.Answers callback (s.held.holding t) r.1 (r.2.held.holding t) := by
  cases c with
  | hook target given =>
    cases asked
    have either := service.steadfast.hook t callback
    rcases either with ⟨done, turns⟩ | ⟨e, refused, turns, -⟩
    · refine ⟨service.hooking _ turns, turns.apart, ?_⟩
      show Holding.Answers callback _ ((s.held.hook s.engine.code t callback).1.toOption.map _)
        ((s.held.hook s.engine.code t callback).2.holding t)
      rw [done, turns.here]
      exact .installed
    · refine ⟨service.hooking _ turns, turns.apart, ?_⟩
      show Holding.Answers callback _ ((s.held.hook s.engine.code t callback).1.toOption.map _)
        ((s.held.hook s.engine.code t callback).2.holding t)
      rw [refused, turns.here]
      exact .refused
  | hookWhenDefined target given =>
    cases asked
    have answered : ∀ {h : Holding},
        Hooking.Turns s.engine.code t h s.held
          (s.held.hookWhenDefined s.engine.code t callback).2 →
        Holding.Answers callback (s.held.holding t)
          (s.held.hookWhenDefined s.engine.code t callback).1.toOption h →
        let r := s.comply (.hookWhenDefined t callback)
        r.2.InService ∧ (∀ other, other ≠ t → r.2.held.holding other = s.held.holding other) ∧
          Holding.Answers callback (s.held.holding t) r.1 (r.2.held.holding t) :=
      fun turns answers => ⟨service.hooking _ turns, turns.apart, turns.here ▸ answers⟩
    rcases service.steadfast.hookWhenDefined t callback with
      ⟨done, turns⟩ | ⟨waits, turns⟩ | ⟨⟨e, refused⟩, turns⟩
    · exact answered turns (by rw [done]; exact .installed)
    · exact answered turns (by rw [waits]; exact .waits)
    · exact answered turns (by rw [refused]; exact .refused)
  | _ => cases asked

theorem InService.turned {α : Type} (service : s.InService) (f : Hooking → α × Hooking)
    {h : Holding} (turns : Hooking.Turns s.engine.code t h s.held (f s.held).2)
    (becomes : (s.held.holding t).Becomes h) :
    (s.hooking f).2.InService ∧
      ∀ other, (s.held.holding other).Becomes ((s.hooking f).2.held.holding other) := by
  refine ⟨service.hooking f turns, fun other => ?_⟩
  show (s.held.holding other).Becomes ((f s.held).2.holding other)
  by_cases same : other = t
  · subst same
    rw [turns.here]
    exact becomes
  · rw [turns.apart other same]
    exact .refl _

theorem InService.comply_unasked (service : s.InService) (unasked : c.asked? = none) :
    let r := s.comply c
    r.2.InService ∧ ∀ t, (s.held.holding t).Becomes (r.2.held.holding t) := by
  have same : ∀ {s' : Setup}, s'.InService ∧ (∀ t, s'.held.holding t = s.held.holding t) →
      s'.InService ∧ ∀ t, (s.held.holding t).Becomes (s'.held.holding t) :=
    fun both => ⟨both.1, fun t => both.2 t ▸ .refl _⟩
  cases c with
  | hook | hookWhenDefined => cases unasked
  | define | load => exact same ⟨service, fun _ => rfl⟩
  | unhook target =>
    exact service.turned (Hooking.unhook target) (service.steadfast.unhook target) (.unhooked rfl)
  | clearPending target =>
    exact service.turned (fun k => let (a, hooks) := k.hooks.clearPending target; (a, { k with hooks }))
      (service.steadfast.forget target) (.forgotten rfl)
  | subscribe => exact same service.subscribe
  | track =>
    obtain ⟨service', tried⟩ := service.track
    exact ⟨service', fun t => .tried (tried t)⟩
  | untrack => exact same service.untrack

end Setup

namespace World

variable {w : World} {c : TargetCommand} {t : HookTarget}

theorem comply_asked (service : w.InService) {callback : Callback}
    (asked : c.asked? = some (t, callback)) :
    let r := w.comply c
    r.2.InService ∧ (∀ other, other ≠ t → r.2.holding other = w.holding other) ∧
      Holding.Answers callback (w.holding t) r.1 (r.2.holding t) := by
  obtain ⟨s, there, inService⟩ := service
  obtain ⟨answer, there'⟩ := setup?_inSetup there (·.comply c)
  obtain ⟨service', apart, answers⟩ := inService.comply_asked asked
  have served : w.comply c =
      ((w.inSetup 0 (·.comply c)).1.join, (w.inSetup 0 (·.comply c)).2) := by
    cases c <;> first | rfl | cases asked
  rw [served, answer]
  dsimp only [Option.join_some]
  simp only [holding_of_setup there', holding_of_setup there]
  exact ⟨⟨_, there', service'⟩, apart, answers⟩

theorem comply_unasked (service : w.InService) (unasked : c.asked? = none) :
    let r := w.comply c
    r.2.InService ∧ ∀ t, (w.holding t).Becomes (r.2.holding t) := by
  obtain ⟨s, there, inService⟩ := service
  have reached : ∀ {s' : Setup}, (w.comply c).2.setup? = some s' → s'.InService →
      (∀ t, (s.held.holding t).Becomes (s'.held.holding t)) →
      (w.comply c).2.InService ∧ ∀ t, (w.holding t).Becomes ((w.comply c).2.holding t) := by
    intro s' there' service' becomes
    refine ⟨⟨s', there', service'⟩, fun t => ?_⟩
    rw [holding_of_setup there', holding_of_setup there]
    exact becomes t
  obtain ⟨service', becomes⟩ := inService.comply_unasked unasked
  have engine := (setup?_inSetup there (·.comply c)).2
  cases c with
  | hook | hookWhenDefined => cases unasked
  | unhook | clearPending | subscribe | track | untrack => exact reached engine service' becomes
  | define typeName methods =>
    have there' := setup?_define there inService.definitions typeName methods
    have defined := inService.define typeName methods
    have holding := s.held.holding_define typeName methods
    let anew : Setup :=
      { s with host := s.host.define typeName (methods.map fun e => (e.1, .program e.2)) }
    have spread : ∀ {s' : Setup},
        (∀ t, (anew.held.holding t).Tried (s'.held.holding t)) →
        ∀ t, (s.held.holding t).Becomes (s'.held.holding t) := by
      intro s' tried t
      rcases holding t with same | cleared
      · exact .tried (same ▸ tried t)
      · exact .redefined (cleared ▸ tried t)
    cases listens : s.engine.hooks.definitions.isSome with
    | false =>
      rw [listens] at there'
      exact reached there' defined (spread fun _ => Or.inl rfl)
    | true =>
      rw [listens] at there'
      have told := defined.typeDefined typeName
      exact reached there' told.service (spread told.tried)
  | load path lines =>
    have there' := setup?_load there inService.compiles path lines
    have loaded := inService.load path lines
    cases listens : (s.engine.code.bind (·.subscription)).isSome with
    | false =>
      rw [listens] at there'
      exact reached there' loaded fun _ => .refl _
    | true =>
      rw [listens] at there'
      have told := loaded.registerUnit path (Host.isLoaded_of_mem
        ((s.host.mem_allUnits_load path lines _).mpr (Or.inr rfl)))
      exact reached there' told.service fun t => .tried (told.tried t)

theorem enroll_inService {state : (HookTarget → Option Callback) × World}
    (service : state.2.InService) (c : TargetCommand) : (enroll state c).2.InService := by
  cases asked : c.asked? with
  | none => exact (comply_unasked service asked).1
  | some request => exact (comply_asked service asked).1

theorem inService_enrolled (commands : List TargetCommand) :
    ∀ {state : (HookTarget → Option Callback) × World}, state.2.InService →
      (commands.foldl enroll state).2.InService := by
  induction commands with
  | nil => exact fun service => service
  | cons c rest ih => exact fun service => ih (enroll_inService service c)

theorem enroll_agrees {state : (HookTarget → Option Callback) × World}
    (service : state.2.InService) (agrees : (state.2.holding t).Agrees (state.1 t))
    (first : ¬ Overtakes t c state.2) :
    ((enroll state c).2.holding t).Agrees ((enroll state c).1 t) := by
  unfold enroll
  cases asked : c.asked? with
  | none =>
    obtain ⟨-, becomes⟩ := comply_unasked service asked
    exact agrees.becomes (becomes t)
  | some request =>
    obtain ⟨target, callback⟩ := request
    obtain ⟨-, apart, answers⟩ := comply_asked service asked
    by_cases own : t = target
    · subst own
      have agrees' := agrees.answers answers fun answer => by
        cases waits : (state.2.holding t).waits with
        | none => rfl
        | some older => exact absurd ⟨⟨callback, asked⟩, answer, by rw [waits]; rfl⟩ first
      dsimp only
      cases answer : (state.2.comply c).1 with
      | none =>
        rw [answer] at agrees'
        exact agrees'
      | some installed =>
        rw [answer] at agrees'
        simpa using agrees'
    · dsimp only
      rw [apart t own]
      cases (state.2.comply c).1 with
      | none => exact agrees
      | some installed =>
        dsimp only
        rw [Function.update_of_ne own]
        exact agrees

theorem agrees_enrolled (commands : List TargetCommand) :
    ∀ {state : (HookTarget → Option Callback) × World}, state.2.InService →
      (state.2.holding t).Agrees (state.1 t) →
      (∀ pre c post, commands = pre ++ c :: post →
        ¬ Overtakes t c (pre.foldl enroll state).2) →
      ((commands.foldl enroll state).2.holding t).Agrees ((commands.foldl enroll state).1 t) := by
  induction commands with
  | nil => exact fun _ agrees _ => agrees
  | cons c rest ih =>
    intro state service agrees first
    refine ih (enroll_inService service c) (enroll_agrees service agrees (first [] c rest rfl))
      fun pre c' post split => ?_
    exact first (c :: pre) c' post (by rw [split]; rfl)

theorem supersedes_of_agrees {state : (HookTarget → Option Callback) × World}
    (service : state.2.InService) (agrees : (state.2.holding t).Agrees (state.1 t)) :
    Supersedes t state := by
  refine ⟨agrees.apart, fun installed => ?_⟩
  rcases agrees.calls installed with same | none
  · exact Or.inl same
  · refine Or.inr ⟨none, ?_⟩
    obtain ⟨s, there, inService⟩ := service
    have host : state.2.host = s.host := by
      obtain ⟨e, -, rfl⟩ := Option.map_eq_some_iff.mp there
      rfl
    rw [holding_of_setup there] at installed none
    rw [host]
    cases t with
    | line l =>
      have calls := inService.steadfast.anchored.calls_of_line installed
      rw [show s.held.calls? (.line l) = _ from none] at calls
      cases calls
    | method m =>
      obtain ⟨program, body⟩ := inService.steadfast.bare m installed none
      exact ⟨m, program, rfl, body⟩

theorem Overtakes.both (service : w.InService) (overtakes : Overtakes t c w) :
    ((w.comply c).2.holding t).installed = true ∧
      ((w.comply c).2.holding t).waits.isSome = true := by
  obtain ⟨⟨callback, asked⟩, answer, waits⟩ := overtakes
  obtain ⟨-, -, answers⟩ := comply_asked service asked
  rw [answer] at answers
  generalize (w.comply c).2.holding t = h at answers
  cases answers with
  | installed => exact ⟨rfl, waits⟩

/-- Whatever a manager, its registry and their host are asked for, in whatever order: the latest
registration for a target is the one that counts, all the way, if and only if no hook is ever
installed on the target while an older one waits for it. -/
theorem supersedes_iff (engine : Engine) (commands : List TargetCommand) (w : World)
    (t : HookTarget) :
    let reached := fun pre => List.foldl enroll (fun _ => none, w.opened engine) pre
    (∀ pre, pre <+: commands → Supersedes t (reached pre)) ↔
      ∀ pre c post, commands = pre ++ c :: post → ¬ Overtakes t c (reached pre).2 := by
  intro reached
  have service := inService_opened engine w
  constructor
  · intro all pre c post split overtakes
    have supersedes := all (pre ++ [c]) ⟨post, by rw [split]; simp⟩
    have enrolled : (reached pre).2.InService := inService_enrolled pre service
    obtain ⟨installed, waits⟩ := overtakes.both enrolled
    have next : (reached (pre ++ [c])).2 = ((reached pre).2.comply c).2 := by
      unfold reached
      rw [List.foldl_append]
      rfl
    rw [← next] at installed waits
    rw [supersedes.apart installed] at waits
    cases waits
  · intro first pre before
    obtain ⟨post, rfl⟩ := before
    have blank : ((w.opened engine).holding t).Agrees none := by
      cases t <;>
        exact ⟨fun _ none => (by cases none), fun none => (by cases none), fun _ => Or.inr rfl⟩
    refine supersedes_of_agrees (inService_enrolled pre service)
      (agrees_enrolled pre service blank fun early c rest split => ?_)
    exact first early c (rest ++ post) (by rw [split]; simp)

namespace Sample

def contested : HookTarget := .method ⟨"T", "m"⟩

/-- A type is defined before the manager follows definitions, so an old hook goes on waiting when a
new one is set; another method of the type brings it back. -/
def overtaking : List TargetCommand :=
  [.hookWhenDefined contested (.record "a"), .define "T" [("m", [])], .hook contested (.record "b")]

def reviving : List TargetCommand := [.subscribe, .define "T" [("n", [])]]

end Sample

open Sample in
/-- Both halves fail: a target is hooked and waited for, and then the older callback takes the place
of the newer one. -/
theorem enrolled_overtaken :
    let overtaken := overtaking.foldl enroll (fun _ => none, ({} : World).opened engine)
    let revived := reviving.foldl enroll overtaken
    overtaken.2.holding contested = ⟨true, some (.record "b"), some (.record "a")⟩ ∧
      revived.2.holding contested = ⟨true, some (.record "a"), none⟩ ∧
      revived.1 contested = some (.record "b") :=
  ⟨rfl, rfl, rfl⟩

end World
end LiveProbe
