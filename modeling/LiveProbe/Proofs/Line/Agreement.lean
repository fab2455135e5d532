import LiveProbe.Proofs.Engine.Attunement
import LiveProbe.Proofs.Line.Once
import Mathlib.Data.List.Induction

/-!
Lines traced in single units against lines traced everywhere. Two hosts load the same files, and the
managers on them are asked for the same hooks. The one that may trace everywhere is told of every
file with the base name of a hooked one; the other is told of the file that was loaded first under
the base name, and of no other.
-/
namespace LiveProbe

inductive TraceStep where
  | load (path : String) (lines : List UInt32)
  | hook (path : String) (line : UInt32) (callback : Callback)

namespace TraceStep

def command : TraceStep → LineCommand
  | .load path lines => .load path lines
  | .hook path line callback => .hook path line callback

def pathOf? (file : String) : TraceStep → Option String
  | .load path _ => if file ≠ "" ∧ Text.basename path = file then some path else none
  | .hook .. => none

end TraceStep

def firstPath (steps : List TraceStep) (file : String) : Option String :=
  steps.findSome? (·.pathOf? file)

namespace Engine

/-- The engine traces lines only in units that its registry knows. -/
def targeted (e : Engine) : Engine :=
  { e with code := some {}, hooks := { e.hooks with untargeted := false } }

/-- The engine has no registry, and traces lines everywhere. -/
def untargeted (e : Engine) : Engine :=
  { e with code := none, hooks := { e.hooks with untargeted := true } }

end Engine

namespace World

def isHooked (l : SourceLine) (w : World) : Bool :=
  w.setup?.any (·.engine.hooks.isInstalled (.line l))

/-- The steps on a new host, whose units the registry of the engine tracks. -/
def targetedTracing (e : Engine) (steps : List TraceStep) (w : World) : World :=
  (steps.map TraceStep.command).foldl heed ((w.opened e.targeted).heed .track)

/-- The steps on a new host, whose lines are traced everywhere. -/
def untargetedTracing (e : Engine) (steps : List TraceStep) (w : World) : World :=
  (steps.map TraceStep.command).foldl heed (w.opened e.untargeted)

end World

namespace Host

variable {h : Host} {path : String}

theorem unitsOf_load (h : Host) (path other : String) (lines : List UInt32) :
    (h.load path lines).2.unitsOf other =
      if other = path then h.unitsOf path ++ [(h.load path lines).1] else h.unitsOf other := by
  show (Table.get? other (Table.insert path _ h.units)).getD [] = _
  rw [Table.get?_insert]
  split <;> rfl

theorem unitsOf_congr {h' : Host} (units : h'.units = h.units) : h'.unitsOf = h.unitsOf := by
  funext path
  unfold unitsOf
  rw [units]

theorem isLoaded_of_mem_unitsOf {u : CompiledUnit} (listed : u ∈ h.unitsOf path) :
    h.isLoaded u = true := by
  apply isLoaded_of_mem
  unfold unitsOf at listed
  cases found : Table.get? path h.units with
  | none => simp [found] at listed
  | some units =>
    rw [found] at listed
    exact List.mem_flatMap.mpr ⟨_, Table.mem_of_get? found, listed⟩

structure Housed (h : Host) : Prop where
  own : ∀ path, ∀ u ∈ h.unitsOf path, u.path = path ∧ u.id ≤ h.lastId
  distinct : ∀ path other, ∀ u ∈ h.unitsOf path, ∀ v ∈ h.unitsOf other, u.id = v.id → u = v

theorem Housed.load (housed : h.Housed) (path : String) (lines : List UInt32) :
    (h.load path lines).2.Housed := by
  have listed : ∀ other, ∀ u ∈ (h.load path lines).2.unitsOf other,
      u ∈ h.unitsOf other ∨ u = (h.load path lines).1 ∧ other = path := by
    intro other u member
    rw [unitsOf_load] at member
    split at member
    · rename_i same
      rw [same]
      exact (List.mem_append.mp member).imp_right fun new => ⟨List.mem_singleton.mp new, rfl⟩
    · exact Or.inl member
  have fresh : (h.load path lines).1.id = h.lastId + 1 := rfl
  have last : (h.load path lines).2.lastId = h.lastId + 1 := rfl
  constructor
  case own =>
    intro other u member
    rcases listed other u member with old | ⟨rfl, rfl⟩
    · obtain ⟨own, bounded⟩ := housed.own other u old
      exact ⟨own, by omega⟩
    · exact ⟨rfl, Nat.le_of_eq fresh⟩
  case distinct =>
    intro p q u inU v inV same
    rcases listed p u inU with oldU | ⟨newU, -⟩ <;> rcases listed q v inV with oldV | ⟨newV, -⟩
    · exact housed.distinct p q u oldU v oldV same
    · have := (housed.own p u oldU).2
      rw [newV, fresh] at same
      omega
    · have := (housed.own q v oldV).2
      rw [newU, fresh] at same
      omega
    · rw [newU, newV]

theorem Housed.any_id (housed : h.Housed) {u : CompiledUnit} (listed : u ∈ h.unitsOf u.path)
    (path : String) : (h.unitsOf path).any (·.id == u.id) = decide (u.path = path) := by
  rw [Bool.eq_iff_iff, List.any_eq_true, decide_eq_true_eq]
  constructor
  · rintro ⟨v, member, same⟩
    have equal := housed.distinct path u.path v member u listed (beq_iff_eq.mp same)
    rw [← equal]
    exact (housed.own path v member).1
  · intro own
    rw [← own]
    exact ⟨u, listed, beq_self_eq_true u.id⟩

theorem Housed.mono {h' : Host} (housed : h.Housed) (units : h'.units = h.units)
    (last : h.lastId ≤ h'.lastId) : h'.Housed := by
  have unitsOf := unitsOf_congr units
  refine ⟨fun path u member => ?_, ?_⟩
  · rw [unitsOf] at member
    obtain ⟨own, bounded⟩ := housed.own path u member
    exact ⟨own, bounded.trans last⟩
  · rw [unitsOf]
    exact housed.distinct

end Host

theorem Hooking.lastId_le_hookLine (code : Option CodeRegistry) (l : SourceLine)
    (callback : Callback) (s : Hooking) :
    s.host.lastId ≤ (s.hookLine code l callback).2.host.lastId := by
  have released : (s.releaseLine l).2.host.lastId = s.host.lastId := by
    unfold releaseLine Host.removeLine
    split
    · rfl
    · dsimp only
      split <;> rfl
  unfold hookLine
  cases s.traceUnit code l with
  | error e => exact Nat.le_refl _
  | ok unit =>
    rcases answer : s.releaseLine l with ⟨result, s'⟩
    rw [answer] at released
    have same : s.host.lastId = s'.host.lastId := released.symm
    cases result with
    | error e => exact Nat.le_of_eq same
    | ok _ =>
      dsimp only
      unfold installLine
      rcases Host.installLine_cases s'.host unit l callback with ⟨e, -, refused⟩ | ⟨-, done⟩
      · rw [refused]
        exact Nat.le_of_eq same
      · rw [done]
        exact Nat.le_succ_of_le (Nat.le_of_eq same)

/-- The registry knows every file under its base name, as what was loaded first. -/
def CodeRegistry.Remembers (r : CodeRegistry) (first : String → Option String) (h : Host) : Prop :=
  ∀ file, Text.basename file = file → (Table.get? file r.units).map (·.path) = first file ∧
    ∀ u, Table.get? file r.units = some u → u ∈ h.unitsOf u.path

namespace Setup

variable {first : String → Option String} {b b' : Lineup} {r : CodeRegistry} {s t : Setup}
  {l : SourceLine}

structure Bound (first : String → Option String) (b : Lineup) (r : CodeRegistry) (s : Setup) :
    Prop where
  manages : s.Manages b
  targeted : s.engine.hooks.untargeted = false
  housed : s.host.Housed
  code : s.engine.code = some r
  active : r.active = true
  tracks : r.subscription.isSome = true
  unheard : r.listeners = []
  remembers : r.Remembers first s.host
  posted : ∀ l p, b.posted l = some p → Text.basename l.file = l.file ∧
    ∃ u, Table.get? l.file r.units = some u ∧ p.unit = some u.id

theorem Bound.prospect (bound : s.Bound first b r) (base : Text.basename l.file = l.file) :
    s.prospect l =
      (Table.get? l.file r.units).elim .unknown fun u => .traced (some u.id) := by
  unfold Setup.prospect Hooking.prospect
  rw [bound.code]
  simp only [Option.filter, bound.active, if_true, CodeRegistry.lookup_of_base base]
  cases known : Table.get? l.file r.units with
  | some u =>
    have loaded : s.held.host.isLoaded u = true :=
      Host.isLoaded_of_mem_unitsOf ((bound.remembers l.file base).2 u known)
    simp [loaded]
  | none =>
    have targeted : s.held.hooks.untargeted = false := bound.targeted
    simp [targeted]

theorem Bound.fires (bound : s.Bound first b r) (path : String) (line : UInt32) :
    b.fires s.host path line = (b.posted (.ofPath path line)).bind fun p =>
      if first (Text.basename path) = some path then some p.callback else none := by
  unfold Lineup.fires
  cases posted : b.posted (.ofPath path line) with
  | none => rfl
  | some p =>
    obtain ⟨-, u, known, unit⟩ := bound.posted _ p posted
    obtain ⟨same, listed⟩ := bound.remembers (Text.basename path) (Text.basename_idem path)
    have found : Table.get? (Text.basename path) r.units = some u := known
    rw [found, Option.map_some] at same
    rw [← same, Option.bind_some]
    have own := bound.housed.any_id (listed u found) path
    by_cases here : u.path = path <;> simp [Option.filter, unit, own, here]

theorem Bound.load (bound : s.Bound first b r) (path : String) (lines : List UInt32) :
    (s.loading r path lines).Bound
      (fun file => (first file).or (TraceStep.pathOf? file (.load path lines))) b
      (r.register path (s.host.load path lines).1).2 := by
  have kept := CodeRegistry.register_eq path (s.host.load path lines).1 r
  have loaded := bound.manages.load path lines
  constructor
  case manages =>
    apply loaded.of_code
    rw [bound.code]
    show (r.register path _).2.subscription = r.subscription
    rw [kept]
  case targeted => exact bound.targeted
  case housed => exact bound.housed.load path lines
  case code => rfl
  case active =>
    rw [kept]
    exact bound.active
  case tracks =>
    rw [kept]
    exact bound.tracks
  case unheard =>
    rw [kept]
    exact bound.unheard
  case remembers =>
    intro file base
    obtain ⟨same, listed⟩ := bound.remembers file base
    have stays : ∀ u, u ∈ s.host.unitsOf u.path → u ∈ (s.host.load path lines).2.unitsOf u.path := by
      intro u member
      rw [Host.unitsOf_load]
      split
      · rename_i own
        rw [own] at member
        exact List.mem_append_left _ member
      · exact member
    have inKeys : file ∈ CodeRegistry.keysOf path ↔ _ := CodeRegistry.mem_keysOf base
    unfold TraceStep.pathOf?
    rw [CodeRegistry.get?_register]
    dsimp only
    rw [← same]
    cases known : Table.get? file r.units with
    | some u =>
      refine ⟨rfl, fun v found => ?_⟩
      cases found
      exact stays u (listed u known)
    | none =>
      by_cases own : file ∈ CodeRegistry.keysOf path
      · rw [if_pos own, if_pos (inKeys.mp own)]
        refine ⟨rfl, fun v found => ?_⟩
        cases found
        show _ ∈ (s.host.load path lines).2.unitsOf path
        rw [Host.unitsOf_load, if_pos rfl]
        exact List.mem_append_right _ (List.mem_singleton.mpr rfl)
      · rw [if_neg own, if_neg (fun h => own (inKeys.mpr h))]
        refine ⟨rfl, fun v found => ?_⟩
        cases found
  case posted =>
    intro l p posted
    obtain ⟨base, u, known, unit⟩ := bound.posted l p posted
    refine ⟨base, u, ?_, unit⟩
    rw [CodeRegistry.get?_register, known]
    rfl

theorem Bound.hook (bound : s.Bound first b r) (base : Text.basename l.file = l.file)
    (callback : Callback) : (s.hooking (Hooking.hook s.engine.code (.line l) callback)).2.Bound
      first (b.hook (s.prospect l) l callback) r := by
  obtain ⟨-, hooked, wiring⟩ := bound.manages.meets.hookLine s.engine.code l callback
  have units : (s.held.hookLine s.engine.code l callback).2.host.units = s.host.units :=
    congrArg Hooking.Wiring.units wiring
  refine { bound with
    manages := bound.manages.hooking _ hooked wiring
    targeted := (congrArg Hooking.Wiring.untargeted wiring).trans bound.targeted
    housed := bound.housed.mono units (Hooking.lastId_le_hookLine s.engine.code l callback s.held)
    remembers := ?_
    posted := ?_ }
  · intro file baseFile
    have remembers := bound.remembers file baseFile
    rw [← Host.unitsOf_congr units] at remembers
    exact remembers
  · intro other p posted
    unfold Lineup.hook Lineup.assign at posted
    by_cases own : other = l
    · subst own
      rw [bound.prospect base] at posted
      cases known : Table.get? other.file r.units with
      | some u =>
        rw [known] at posted
        simp only [Option.elim_some, Prospect.posting, Function.update_self,
          Option.some.injEq] at posted
        rw [← posted]
        exact ⟨base, u, rfl, rfl⟩
      | none =>
        rw [known] at posted
        simp only [Option.elim_none, Prospect.posting, Function.update_self] at posted
        exact known ▸ bound.posted other p posted
    · simp only [Function.update_of_ne own] at posted
      exact bound.posted other p posted

structure Everywhere (b : Lineup) (s : Setup) : Prop where
  manages : s.Manages b
  code : s.engine.code = none
  untargeted : s.engine.hooks.untargeted = true
  posted : ∀ l p, b.posted l = some p → p.unit = none

theorem Everywhere.prospect (free : s.Everywhere b) (l : SourceLine) :
    s.prospect l = .traced none := by
  unfold Setup.prospect Hooking.prospect
  rw [free.code]
  have untargeted : s.held.hooks.untargeted = true := free.untargeted
  simp [untargeted]

theorem Everywhere.fires (free : s.Everywhere b) (path : String) (line : UInt32) :
    b.fires s.host path line = (b.posted (.ofPath path line)).map (·.callback) := by
  unfold Lineup.fires
  cases posted : b.posted (.ofPath path line) with
  | none => rfl
  | some p => simp [Option.filter, free.posted _ p posted]

theorem Everywhere.load (free : s.Everywhere b) (path : String) (lines : List UInt32) :
    ({ s with host := (s.host.load path lines).2 } : Setup).Everywhere b :=
  ⟨free.manages.load path lines, free.code, free.untargeted, free.posted⟩

theorem Everywhere.hook (free : s.Everywhere b) (l : SourceLine) (callback : Callback) :
    (s.hooking (Hooking.hook s.engine.code (.line l) callback)).2.Everywhere
      (b.hook (s.prospect l) l callback) := by
  obtain ⟨-, hooked, wiring⟩ := free.manages.meets.hookLine s.engine.code l callback
  refine ⟨free.manages.hooking _ hooked wiring, free.code,
    (congrArg Hooking.Wiring.untargeted wiring).trans free.untargeted, fun other p posted => ?_⟩
  unfold Lineup.hook Lineup.assign at posted
  by_cases own : other = l
  · subst own
    rw [free.prospect] at posted
    simp only [Prospect.posting, Function.update_self, Option.some.injEq] at posted
    rw [← posted]
  · simp only [Function.update_of_ne own] at posted
    exact free.posted other p posted

/-- The same has happened on both hosts: what is hooked in single units is hooked everywhere. -/
structure Agree (first : String → Option String) (b b' : Lineup) (r : CodeRegistry)
    (s t : Setup) : Prop where
  bound : s.Bound first b r
  free : t.Everywhere b'
  lines : ∀ path, (s.host.unitsOf path).map (·.lines) = (t.host.unitsOf path).map (·.lines)
  alike : ∀ l p, b.posted l = some p → ∃ q, b'.posted l = some q ∧ q.callback = p.callback

theorem Agree.load (agree : Agree first b b' r s t) (path : String) (lines : List UInt32) :
    Agree (fun file => (first file).or (TraceStep.pathOf? file (.load path lines))) b b'
      (r.register path (s.host.load path lines).1).2 (s.loading r path lines)
      { t with host := (t.host.load path lines).2 } where
  bound := agree.bound.load path lines
  free := agree.free.load path lines
  lines other := by
    show ((s.host.load path lines).2.unitsOf other).map _ =
      ((t.host.load path lines).2.unitsOf other).map _
    rw [Host.unitsOf_load, Host.unitsOf_load]
    split
    · rw [List.map_append, List.map_append, agree.lines path]
      rfl
    · exact agree.lines other
  alike := agree.alike

theorem Agree.hook (agree : Agree first b b' r s t) (base : Text.basename l.file = l.file)
    (callback : Callback) : Agree first (b.hook (s.prospect l) l callback)
      (b'.hook (t.prospect l) l callback) r
      (s.hooking (Hooking.hook s.engine.code (.line l) callback)).2
      (t.hooking (Hooking.hook t.engine.code (.line l) callback)).2 where
  bound := agree.bound.hook base callback
  free := agree.free.hook l callback
  lines path := by
    obtain ⟨-, -, wiring⟩ := agree.bound.manages.meets.hookLine s.engine.code l callback
    obtain ⟨-, -, wiring'⟩ := agree.free.manages.meets.hookLine t.engine.code l callback
    have units : (s.held.hookLine s.engine.code l callback).2.host.units = s.host.units :=
      congrArg Hooking.Wiring.units wiring
    have units' : (t.held.hookLine t.engine.code l callback).2.host.units = t.host.units :=
      congrArg Hooking.Wiring.units wiring'
    have same := agree.lines path
    rw [← Host.unitsOf_congr units, ← Host.unitsOf_congr units'] at same
    exact same
  alike other p posted := by
    unfold Lineup.hook Lineup.assign at posted ⊢
    by_cases own : other = l
    · subst own
      rw [agree.bound.prospect base] at posted
      rw [agree.free.prospect]
      refine ⟨⟨callback, none⟩, by simp [Prospect.posting], ?_⟩
      cases known : Table.get? other.file r.units with
      | some u =>
        rw [known] at posted
        simp only [Option.elim_some, Prospect.posting, Function.update_self,
          Option.some.injEq] at posted
        rw [← posted]
      | none =>
        -- what is posted already would not be unknown
        rw [known] at posted
        simp only [Option.elim_none, Prospect.posting, Function.update_self] at posted
        obtain ⟨-, u, found, -⟩ := agree.bound.posted other p posted
        rw [known] at found
        cases found
    · simp only [Function.update_of_ne own] at posted ⊢
      exact agree.alike other p posted

theorem Agree.callbacksAt (agree : Agree first b b' r s t) (path : String) (line : UInt32) :
    s.host.executes path line = t.host.executes path line ∧
      s.host.callbacksAt path line =
        if (b.posted (.ofPath path line)).isSome ∧ first (Text.basename path) = some path then
          t.host.callbacksAt path line else [] := by
  have executes : s.host.executes path line = t.host.executes path line := by
    have unfolded : ∀ h : Host, h.executes path line =
        ((h.unitsOf path).map (·.lines)).any (·.contains line) := by
      intro h
      rw [List.any_map]
      rfl
    rw [unfolded, unfolded, agree.lines path]
  refine ⟨executes, ?_⟩
  cases runs : s.host.executes path line with
  | false =>
    rw [Host.callbacksAt_of_idle runs, Host.callbacksAt_of_idle (executes.symm.trans runs), ite_self]
  | true =>
    have targeted : s.host.callbacksAt path line = (b.fires s.host path line).toList :=
      agree.bound.manages.meets.callbacksAt runs
    have everywhere : t.host.callbacksAt path line = (b'.fires t.host path line).toList :=
      agree.free.manages.meets.callbacksAt (executes.symm.trans runs)
    rw [targeted, everywhere, agree.bound.fires, agree.free.fires]
    cases posted : b.posted (.ofPath path line) with
    | none => simp
    | some p =>
      obtain ⟨q, posted', same⟩ := agree.alike _ p posted
      rw [posted', Option.bind_some, Option.map_some, same]
      by_cases here : first (Text.basename path) = some path <;> simp [here]

end Setup

namespace World

variable {first : String → Option String} {a c : World}

def Agree (first : String → Option String) (a c : World) : Prop :=
  ∃ b b' r s t, a.setup? = some s ∧ c.setup? = some t ∧ Setup.Agree first b b' r s t

theorem firstPath_append (steps : List TraceStep) (step : TraceStep) :
    firstPath (steps ++ [step]) = fun file => (firstPath steps file).or (step.pathOf? file) := by
  funext file
  unfold firstPath
  rw [List.findSome?_append]
  congr 1
  cases known : step.pathOf? file <;> simp [known]

theorem Agree.step (agree : Agree first a c) (step : TraceStep) :
    Agree (fun file => (first file).or (step.pathOf? file)) (a.heed step.command)
      (c.heed step.command) := by
  obtain ⟨b, b', r, s, t, there, there', both⟩ := agree
  cases step with
  | load path lines =>
    have loaded := setup?_load there both.bound.manages.compiles path lines
    have loaded' := setup?_load there' both.free.manages.compiles path lines
    have subscribed : (s.engine.code.bind (·.subscription)).isSome = true := by
      rw [both.bound.code]
      exact both.bound.tracks
    have unsubscribed : (t.engine.code.bind (·.subscription)).isSome = false := by
      rw [both.free.code]
      rfl
    dsimp only at loaded loaded'
    rw [if_pos subscribed, Setup.unitLoaded_of_unheard
      (s := { s with host := (s.host.load path lines).2 }) both.bound.code both.bound.unheard]
      at loaded
    rw [unsubscribed, if_neg Bool.false_ne_true] at loaded'
    exact ⟨b, b', _, _, _, loaded, loaded', both.load path lines⟩
  | hook path line callback =>
    have same : (fun file => (first file).or ((TraceStep.hook path line callback).pathOf? file)) =
        first := funext fun file => Option.or_none
    rw [same]
    exact ⟨_, _, r, _, _, (setup?_inSetup there _).2, (setup?_inSetup there' _).2,
      both.hook (l := .ofPath path line) (Text.basename_idem path) callback⟩

theorem setup?_tracking (e : Engine) (w : World) :
    ((w.opened e.targeted).heed .track).setup? =
      some ⟨{ lastId := 1, compileObservers := [(1, .engine 0)] },
        { e with
          hooks := { manager := 0 }
          code := some { active := true, subscription := some 1 } }, w.journal, w.warnings⟩ := by
  let s : Setup := ⟨{}, { e.targeted with hooks := { manager := 0 } }, w.journal, w.warnings⟩
  have there : (w.opened e.targeted).setup? = some s := rfl
  have unloaded : (s.host.subscribeCompiles (.engine 0)).2.loadedUnits = [] := List.mergeSort_nil
  have tracking : ((w.opened e.targeted).heed .track).setup? = some s.track :=
    (setup?_inSetup there fun s => ((), s.track)).2
  rw [tracking, Setup.track_of_idle rfl rfl rfl, unloaded]
  rfl

theorem agree_opened (e e' : Engine) (w w' : World) :
    Agree (fun _ => none) ((w.opened e.targeted).heed .track) (w'.opened e'.untargeted) := by
  have started := setup?_tracking e w
  obtain ⟨s, there, manages, -⟩ := (lined_opened e.targeted w).heed .track
  obtain ⟨t, there', manages', -⟩ := lined_opened e'.untargeted w'
  cases started.symm.trans there
  have free : t.Everywhere {} := by
    cases there'
    exact ⟨manages', rfl, rfl, fun l p posted => by cases posted⟩
  have unitless : t.host.units = [] := by
    cases there'
    rfl
  refine ⟨{}, {}, { active := true, subscription := some 1 }, _, _, there, there', ?_, free,
    fun path => ?_, fun l p posted => by cases posted⟩
  · constructor
    case manages => exact manages
    case targeted => rfl
    case housed => exact ⟨fun path u member => (by cases member), fun path _ u member => (by cases member)⟩
    case code => rfl
    case active => rfl
    case tracks => rfl
    case unheard => rfl
    case remembers => exact fun file base => ⟨rfl, fun u found => by cases found⟩
    case posted => exact fun l p posted => by cases posted
  · unfold Host.unitsOf
    rw [unitless]

theorem agree_tracing (e e' : Engine) (steps : List TraceStep) (w w' : World) :
    Agree (firstPath steps) (w.targetedTracing e steps) (w'.untargetedTracing e' steps) := by
  induction steps using List.reverseRecOn with
  | nil => exact agree_opened e e' w w'
  | append_singleton steps step ih =>
    unfold targetedTracing untargetedTracing at ih ⊢
    rw [firstPath_append, List.map_append, List.foldl_append, List.foldl_append]
    exact ih.step step

/-- What is traced in single units, and what is traced everywhere. -/
structure TracesAlike (steps : List TraceStep) (a c : World) : Prop where
  asked : ∀ path line callback, (a.askHook path line callback).1 = some (.ok ()) ↔
    (firstPath steps (Text.basename path)).isSome = true
  askedEverywhere : ∀ path line callback, (c.askHook path line callback).1 = some (.ok ())
  hooked : ∀ l, a.isHooked l = true → c.isHooked l = true
  executes : ∀ path line, a.host.executes path line = c.host.executes path line
  /-- The file that was loaded first under its base name has the same callbacks on both hosts; of
  any other, the one that traces in single units is not told. -/
  callbacks : ∀ path line, a.host.callbacksAt path line =
    if a.isHooked (.ofPath path line) ∧ firstPath steps (Text.basename path) = some path then
      c.host.callbacksAt path line else []
  runs : ∀ run path line locals, ∀ w ∈ [a, c], Action.executeLine run path line locals w =
    (if w.host.executes path line then
      Action.runLine run path line locals (w.host.callbacksAt path line) else pure ()) w

theorem Agree.tracesAlike {steps : List TraceStep} (agree : Agree (firstPath steps) a c) :
    TracesAlike steps a c := by
  obtain ⟨b, b', r, s, t, there, there', both⟩ := agree
  have meets := both.bound.manages.meets
  have meets' := both.free.manages.meets
  have isHooked : ∀ l, a.isHooked l = (b.posted l).isSome := by
    intro l
    unfold World.isHooked
    rw [there]
    exact (meets.holds l).isInstalled
  have isHooked' : ∀ l, c.isHooked l = (b'.posted l).isSome := by
    intro l
    unfold World.isHooked
    rw [there']
    exact (meets'.holds l).isInstalled
  have host : a.host = s.host ∧ c.host = t.host := by
    obtain ⟨e, -, rfl⟩ := Option.map_eq_some_iff.mp there
    obtain ⟨e', -, rfl⟩ := Option.map_eq_some_iff.mp there'
    exact ⟨rfl, rfl⟩
  constructor
  case asked =>
    intro path line callback
    have base := Text.basename_idem path
    have answer := (meets.hookLine s.engine.code (.ofPath path line) callback).1.ok_iff
    have prospect := both.bound.prospect (l := .ofPath path line) base
    have known := (both.bound.remembers (Text.basename path) base).1
    unfold askHook
    rw [(setup?_inSetup there _).1, Option.some.injEq, ← known]
    refine answer.trans ?_
    show (s.prospect (.ofPath path line)).isTraced = true ↔ _
    rw [prospect, Option.isSome_map]
    cases found : Table.get? (Text.basename path) r.units with
    | none =>
      have none : Table.get? (SourceLine.ofPath path line).file r.units = none := found
      simp [none, Prospect.isTraced]
    | some u =>
      have some : Table.get? (SourceLine.ofPath path line).file r.units = some u := found
      simp [some, Prospect.isTraced]
  case askedEverywhere =>
    intro path line callback
    have answer := (meets'.hookLine t.engine.code (.ofPath path line) callback).1.ok_iff
    unfold askHook
    rw [(setup?_inSetup there' _).1, Option.some.injEq]
    refine answer.mpr ?_
    show (t.prospect _).isTraced = true
    rw [both.free.prospect]
    rfl
  case hooked =>
    intro l installed
    rw [isHooked] at installed
    obtain ⟨p, posted⟩ := Option.isSome_iff_exists.mp installed
    obtain ⟨q, posted', -⟩ := both.alike l p posted
    rw [isHooked', posted']
    rfl
  case executes =>
    rw [host.1, host.2]
    exact fun path line => (both.callbacksAt path line).1
  case callbacks =>
    rw [host.1, host.2]
    intro path line
    rw [isHooked]
    exact (both.callbacksAt path line).2
  case runs => exact fun run path line locals w _ => Action.executeLine_eq run path line locals w

/-- Two hosts load the same files, and the managers on them are asked for the same hooks: lines
traced in single units are told of like lines traced everywhere, as far as the file is the one that
was loaded first under its base name, and not at all otherwise. -/
theorem tracing_alike (e e' : Engine) (steps : List TraceStep) (w w' : World) :
    TracesAlike steps (w.targetedTracing e steps) (w'.untargetedTracing e' steps) :=
  (agree_tracing e e' steps w w').tracesAlike

namespace Sample

def engine : Engine :=
  Engine.complete 0 { service := "svc" } { runtimeId := "r", snapshotId := "s", threadId := "t" }

def shadowing : List TraceStep :=
  [.load "/app/f.rb" [10], .load "/lib/f.rb" [10], .hook "f.rb" 10 (.record "h")]

end Sample

open Sample in
/-- A file that was not the first under its base name: the line is hooked on both hosts, and runs,
and one of them is not told. -/
theorem tracing_shadowed :
    let a := World.targetedTracing engine shadowing {}
    let c := World.untargetedTracing engine shadowing {}
    a.isHooked ⟨"f.rb", 10⟩ = true ∧ c.isHooked ⟨"f.rb", 10⟩ = true ∧
      a.host.executes "/lib/f.rb" 10 = true ∧ c.host.executes "/lib/f.rb" 10 = true ∧
      (a.host.callbacksAt "/lib/f.rb" 10).length = 0 ∧
      (c.host.callbacksAt "/lib/f.rb" 10).length = 1 := by
  decide +kernel

end World
end LiveProbe
