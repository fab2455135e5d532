import LiveProbe.Proofs.Engine.Coherence
import LiveProbe.World.Run
import Mathlib.Logic.Function.Basic

/-!
What a manager is meant to hold of lines, told without handles and numbers. A line has at most one
hook, the one that was set last; its trace is bound to the unit that the registry knew then, or to
none. What waits for a file is set when the file becomes known.
-/
namespace LiveProbe

open Function (update)

inductive Prospect where
  | traced (unit : Option Nat)
  | astray
  | unknown
  | disallowed
  deriving DecidableEq, Repr

def Hooking.prospect (code : Option CodeRegistry) (l : SourceLine) (s : Hooking) : Prospect :=
  match code.filter (·.active) with
  | some registry =>
    match registry.lookup l.file with
    | some unit => if s.host.isLoaded unit then .traced (some unit.id) else .astray
    | none => if s.hooks.untargeted then .traced none else .unknown
  | none => if s.hooks.untargeted then .traced none else .disallowed

namespace Setup

def prospect (s : Setup) (l : SourceLine) : Prospect := s.held.prospect s.engine.code l

def reports (path : String) (unit : CompiledUnit) (s : Setup) : Bool :=
  s.engine.code.any fun registry =>
    (registry.register path unit).1 && registry.listeners.contains .hooks

end Setup

/-- What can be asked about lines: of the host, a manager, and the registry of the manager. -/
inductive LineCommand where
  | load (path : String) (lines : List UInt32)
  | hook (path : String) (line : UInt32) (callback : Callback)
  | hookWhenDefined (path : String) (line : UInt32) (callback : Callback)
  | installPending (path : String)
  | unhook (target : HookTarget)
  | clearPending (target : HookTarget)
  | clearHooks
  | close
  | subscribe
  | track
  | untrack
  | register (path : String) (unit : CompiledUnit)

namespace World

def setup? (w : World) : Option Setup :=
  w.engines[0]?.map fun e => ⟨w.host, e, w.journal, w.warnings⟩

def prospect (w : World) (l : SourceLine) : Prospect := w.setup?.elim .disallowed (·.prospect l)

def isTracking (w : World) : Bool := w.setup?.any (·.isTracking)

def reports (path : String) (unit : CompiledUnit) (w : World) : Bool :=
  w.setup?.any (·.reports path unit)

def askHook (path : String) (line : UInt32) (callback : Callback) (w : World) :
    Option (Except Error Unit) × World :=
  w.inSetup 0 fun s => s.hooking (Hooking.hook s.engine.code (.lineOf path line) callback)

def askHookWhenDefined (path : String) (line : UInt32) (callback : Callback) (w : World) :
    Option (Except Error Bool) × World :=
  w.inSetup 0 fun s =>
    s.hooking (Hooking.hookWhenDefined s.engine.code (.lineOf path line) callback)

def heed (w : World) : LineCommand → World
  | .load path lines => (w.load path lines).2
  | .hook path line callback => (w.askHook path line callback).2
  | .hookWhenDefined path line callback => (w.askHookWhenDefined path line callback).2
  | .installPending path => w.updateSetup 0 (·.fileKnown path)
  | .unhook target => (w.inSetup 0 fun s => s.hooking (Hooking.unhook target)).2
  | .clearPending target => (w.inSetup 0 fun s => s.onHooks (·.clearPending target)).2
  | .clearHooks => (w.inSetup 0 fun s => s.hooking fun k => ((), k.clearHooks)).2
  | .close => (w.inSetup 0 fun s => s.hooking fun k => ((), k.close)).2
  | .subscribe => w.updateSetup 0 Setup.subscribe
  | .track => w.updateSetup 0 Setup.track
  | .untrack => w.updateSetup 0 Setup.untrack
  | .register path unit => (w.inSetup 0 (·.registerUnit path unit)).2

end World

/-- A hook that has been set: what it calls, and the unit that its trace is bound to. -/
structure Posting where
  callback : Callback
  unit : Option Nat

/-- What becomes of a line whose hook was the former one: a hook that goes astray takes the former
one with it. -/
def Prospect.posting (callback : Callback) (former : Option Posting) :
    Prospect → Option Posting
  | .traced unit => some ⟨callback, unit⟩
  | .astray => none
  | .unknown | .disallowed => former

def Prospect.isTraced : Prospect → Bool
  | .traced _ => true
  | _ => false

/-- What a manager is meant to hold of lines. -/
structure Lineup where
  posted : SourceLine → Option Posting := fun _ => none
  waiting : SourceLine → Option Callback := fun _ => none
  closed : Bool := false

namespace Lineup

def assign (l : SourceLine) (posting : Option Posting) (waits : Option Callback) (b : Lineup) :
    Lineup :=
  { b with posted := update b.posted l posting, waiting := update b.waiting l waits }

def hook (p : Prospect) (l : SourceLine) (callback : Callback) (b : Lineup) : Lineup :=
  b.assign l (p.posting callback (b.posted l)) (b.waiting l)

def hookWhenDefined (p : Prospect) (l : SourceLine) (callback : Callback) (b : Lineup) : Lineup :=
  b.assign l (p.posting callback (b.posted l)) (if p = .unknown then some callback else b.waiting l)

def tryWaiting (prospect : SourceLine → Prospect) (tried : SourceLine → Bool) (b : Lineup) :
    Lineup :=
  { b with
    posted := fun l => match b.waiting l with
      | some callback =>
        if tried l then (prospect l).posting callback (b.posted l) else b.posted l
      | none => b.posted l
    waiting := fun l => if tried l && (prospect l).isTraced then none else b.waiting l }

def attend (prospect : SourceLine → Prospect) (path : String) (b : Lineup) : Lineup :=
  if b.closed then b else b.tryWaiting prospect fun l => l.file == Text.basename path

def follow (b : Lineup) (w w' : World) : LineCommand → Lineup
  | .load path lines =>
    if w.isTracking && w.reports path (w.host.load path lines).1 then b.attend w'.prospect path
    else b
  | .hook path line callback => b.hook (w.prospect (.ofPath path line)) (.ofPath path line) callback
  | .hookWhenDefined path line callback =>
    b.hookWhenDefined (w.prospect (.ofPath path line)) (.ofPath path line) callback
  | .installPending path => b.attend w.prospect path
  | .unhook (.line l) => b.assign l none (b.waiting l)
  | .clearPending (.line l) => b.assign l (b.posted l) none
  | .unhook (.method _) | .clearPending (.method _) => b
  | .clearHooks => { b with posted := fun _ => none }
  | .close => { closed := true }
  | .subscribe | .track | .untrack => b
  | .register path unit => if w.reports path unit then b.attend w'.prospect unit.path else b

/-- The callback at a line that runs: of the hook that is posted there, if its trace is bound to no
unit or to one of those that are loaded for the path. -/
def fires (b : Lineup) (h : Host) (path : String) (line : UInt32) : Option Callback :=
  ((b.posted (.ofPath path line)).filter fun p =>
    p.unit.all fun id => (h.unitsOf path).any (·.id == id)).map (·.callback)

section Assign

variable {b : Lineup} {l : SourceLine}

theorem assign_assign (l : SourceLine) (p p' : Option Posting) (c c' : Option Callback)
    (b : Lineup) : (b.assign l p c).assign l p' c' = b.assign l p' c' := by
  simp [assign]

theorem assign_self (l : SourceLine) (b : Lineup) : b.assign l (b.posted l) (b.waiting l) = b := by
  simp [assign]

end Assign

section Trying

variable {prospect : SourceLine → Prospect} {tried tried' : SourceLine → Bool} {b : Lineup}

theorem tryWaiting_congr (same : ∀ l, (b.waiting l).isSome = true → tried l = tried' l) :
    b.tryWaiting prospect tried = b.tryWaiting prospect tried' := by
  unfold tryWaiting
  congr 1 <;> funext l
  all_goals
    cases waits : b.waiting l with
    | none => simp
    | some callback => simp [same l (by rw [waits]; rfl)]

theorem tryWaiting_none (prospect : SourceLine → Prospect) (b : Lineup) :
    (b.tryWaiting prospect fun _ => false) = b := by
  unfold tryWaiting
  congr 1
  funext l
  split <;> rfl

theorem tryWaiting_cons {l : SourceLine} {callback : Callback} {rest : List SourceLine}
    (waits : b.waiting l = some callback) (fresh : l ∉ rest) :
    (b.assign l ((prospect l).posting callback (b.posted l))
        (if (prospect l).isTraced then none else b.waiting l)).tryWaiting prospect
        (fun other => rest.contains other) =
      b.tryWaiting prospect fun other => (l :: rest).contains other := by
  unfold tryWaiting assign
  congr 1 <;> funext other
  · by_cases own : other = l
    · subst own
      cases expected : prospect other <;>
        simp [waits, fresh, Prospect.posting, Prospect.isTraced]
    · simp [own]
  · by_cases own : other = l
    · subst own
      simp [waits, fresh]
    · simp [own]

theorem tryWaiting_of_disallowed
    (declined : ∀ l, (b.waiting l).isSome = true → prospect l = .disallowed) :
    b.tryWaiting prospect tried = b := by
  unfold tryWaiting
  congr 1 <;> funext l
  all_goals
    cases waits : b.waiting l with
    | none => simp
    | some callback =>
      simp [declined l (by rw [waits]; rfl), Prospect.posting, Prospect.isTraced]

theorem tryWaiting_tryWaiting :
    (b.tryWaiting prospect tried).tryWaiting prospect tried = b.tryWaiting prospect tried := by
  unfold tryWaiting
  congr 1 <;> funext l
  all_goals
    cases waits : b.waiting l with
    | none => simp [waits]
    | some callback =>
      cases asked : tried l with
      | false => simp [asked, waits]
      | true =>
        cases expected : prospect l <;>
          simp [asked, waits, expected, Prospect.posting, Prospect.isTraced]

theorem attend_attend (path : String) :
    (b.attend prospect path).attend prospect path = b.attend prospect path := by
  unfold attend
  cases closed : b.closed with
  | true => simp [closed]
  | false =>
    have still : (b.tryWaiting prospect fun l => l.file == Text.basename path).closed = false :=
      closed
    simp only [Bool.false_eq_true, if_false, still, tryWaiting_tryWaiting]

end Trying

end Lineup

def World.conduct (state : Lineup × World) (c : LineCommand) : Lineup × World :=
  let w := state.2.heed c
  (state.1.follow state.2 w c, w)

def World.opened (e : Engine) (w : World) : World :=
  { w with
    host := {}
    engines := [{ e with
      hooks := { manager := 0, untargeted := e.hooks.untargeted }
      code := e.code.map fun _ => {} }] }

end LiveProbe
