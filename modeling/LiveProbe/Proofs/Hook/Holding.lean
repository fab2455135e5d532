import LiveProbe.Proofs.Dispatch.Seating
import LiveProbe.Proofs.Hook.Renewal

/-!
What a manager holds for a target: whether a hook is installed, what it calls, and what waits. A
hook that is set takes the place of the one that was installed, but leaves alone what waits; what
waits goes when it is installed in its turn, or is told to go.
-/
namespace LiveProbe

structure Holding where
  installed : Bool := false
  /-- What is called by the method or the line; nothing if the method has been defined anew. -/
  calls : Option Callback := none
  waits : Option Callback := none

def Holding.Tried (h h' : Holding) : Prop :=
  h' = h ∨ ∃ callback, h.waits = some callback ∧ h' = ⟨true, some callback, none⟩

theorem Holding.Tried.trans {h h' h'' : Holding} (first : h.Tried h') (second : h'.Tried h'') :
    h.Tried h'' := by
  rcases first with rfl | ⟨callback, waits, rfl⟩
  · exact second
  · rcases second with rfl | ⟨_, none, -⟩
    · exact Or.inr ⟨callback, waits, rfl⟩
    · cases none

namespace Hooking

variable {s s' : Hooking} {code : Option CodeRegistry} {t : HookTarget}

/-- What the installed hook of a target calls: the layer of its installation on the body of the
method, if it is the current one, or the trace with its number. -/
def calls? (s : Hooking) : HookTarget → Option Callback
  | .method m => (Table.get? m s.hooks.methods).bind fun i =>
      if s.hooks.slot m = i.installation then
        (s.host.layer? m s.hooks.manager i.installation).map (·.1)
      else none
  | .line l => (Table.get? l s.hooks.lines).bind fun handle =>
      ((s.host.tracesAt l).find? (·.id == handle.id)).map (·.callback)

def waits? (s : Hooking) : HookTarget → Option Callback
  | .method m => Table.get? m s.hooks.pendingMethods
  | .line l => Table.get? l s.hooks.pendingLines

def holding (s : Hooking) (t : HookTarget) : Holding :=
  ⟨s.hooks.isInstalled t, s.calls? t, s.waits? t⟩

theorem Same.holding (same : Same t s s') (wiring : s'.wiring = s.wiring) :
    s'.holding t = s.holding t := by
  have installed := same.isInstalled
  have manager : s'.hooks.manager = s.hooks.manager := congrArg Wiring.manager wiring
  have calls : s'.calls? t = s.calls? t ∧ s'.waits? t = s.waits? t := by
    cases t with
    | method m =>
      obtain ⟨methods, pending, slot, body⟩ := same
      unfold calls? waits? Host.layer?
      simp only [methods, pending, slot, body, manager, and_self]
    | line l =>
      obtain ⟨lines, pending, traces⟩ := same
      unfold calls? waits?
      simp only [lines, pending, traces, and_self]
  unfold Hooking.holding
  rw [installed, calls.1, calls.2]

/-! What a hook calls that has just been set. -/

theorem calls_of_body {m : MethodName} {i : InstalledMethod} {callback : Callback} {saved : Body}
    (hooked : Table.get? m s.hooks.methods = some i) (current : s.hooks.slot m = i.installation)
    (body : s.host.body? m =
      some (.hooked s.hooks.manager m i.installation callback saved)) :
    s.calls? (.method m) = some callback := by
  dsimp only [calls?]
  rw [hooked, Option.bind_some, if_pos current]
  unfold Host.layer?
  rw [body, Option.bind_some, Body.layer?_hooked_self]
  rfl

theorem calls_hookMethod {m : MethodName} {callback : Callback}
    (done : (s.hookMethod m callback).1 = .ok ()) :
    (s.hookMethod m callback).2.calls? (.method m) = some callback := by
  rcases hookMethod_cases s m callback with ⟨e, -, refused⟩ | ⟨saved, -, -, set⟩
  · rw [refused] at done
    cases done
  · rw [set]
    have current := Hooks.slot_setSlot (s.prepareMethod m).hooks m m
      ((s.releaseMethod m).hooks.lastInstallation + 1)
    rw [if_pos rfl] at current
    exact calls_of_body (Table.get?_insert_self m _ _) current (Host.body?_setBody _ m _)

theorem Anchored.calls_line (anchored : s.Anchored) {l : SourceLine} {handle : LineHandle}
    (hooked : Table.get? l s.hooks.lines = some handle) {trace : LineTrace}
    (listed : trace ∈ s.host.traces) (number : trace.id = handle.id) :
    s.calls? (.line l) = some trace.callback := by
  have only := (anchored.id_of_trace hooked listed).mp number
  have member : trace ∈ s.host.tracesAt l := List.mem_filter.mpr ⟨listed, by simpa using only⟩
  dsimp only [calls?]
  rw [hooked, Option.bind_some]
  cases found : (s.host.tracesAt l).find? (·.id == handle.id) with
  | none => exact absurd number (by simpa using List.find?_eq_none.mp found trace member)
  | some first =>
    have same : first.id = handle.id := by simpa using List.find?_some found
    have also : first ∈ s.host.traces := (List.mem_filter.mp (List.mem_of_find?_eq_some found)).1
    rw [List.inj_on_of_nodup_map anchored.distinct also listed (same.trans number.symm)]
    rfl

theorem Anchored.calls_of_line (anchored : s.Anchored) {l : SourceLine}
    (installed : s.hooks.isInstalled (.line l) = true) : (s.calls? (.line l)).isSome = true := by
  obtain ⟨handle, hooked⟩ := Table.contains_iff.mp installed
  have entry : (some l, handle.id) ∈ s.host.traces.map fun t => (t.only, t.id) :=
    anchored.traced ▸ List.mem_map.mpr ⟨_, Table.mem_of_get? hooked, rfl⟩
  obtain ⟨trace, listed, pair⟩ := List.mem_map.mp entry
  rw [anchored.calls_line hooked listed (Prod.mk.inj pair).2]
  rfl

theorem calls_installLine {unit : Option CompiledUnit} {l : SourceLine} {callback : Callback}
    (done : (s.installLine unit l callback).1 = .ok ())
    (anchored : (s.installLine unit l callback).2.Anchored) :
    (s.installLine unit l callback).2.calls? (.line l) = some callback := by
  unfold installLine at done anchored ⊢
  rcases Host.installLine_cases s.host unit l callback with ⟨e, -, refused⟩ | ⟨-, set⟩
  · rw [refused] at done
    cases done
  · rw [set] at anchored ⊢
    dsimp only at anchored ⊢
    exact anchored.calls_line (Table.get?_insert_self l _ _)
      (List.mem_append_right _ List.mem_cons_self) rfl

theorem calls_hookLine {l : SourceLine} {callback : Callback}
    (done : (s.hookLine code l callback).1 = .ok ())
    (anchored : (s.hookLine code l callback).2.Anchored) :
    (s.hookLine code l callback).2.calls? (.line l) = some callback := by
  unfold hookLine at done anchored ⊢
  cases place : s.traceUnit code l with
  | error e =>
    rw [place] at done
    cases done
  | ok unit =>
    rw [place] at done anchored
    rcases released : s.releaseLine l with ⟨answer, s'⟩
    rw [released] at done anchored
    cases answer with
    | error e => cases done
    | ok _ => exact calls_installLine done anchored

theorem calls_hook {callback : Callback} (done : (s.hook code t callback).1 = .ok ())
    (anchored : (s.hook code t callback).2.Anchored) :
    (s.hook code t callback).2.calls? t = some callback := by
  cases t with
  | method m => exact calls_hookMethod done
  | line l => exact calls_hookLine done anchored

/-- What is installed could be hooked again, as far as lines can be traced, on a host that refuses
nothing; and a method whose hook calls nothing has been defined anew. -/
structure Steadfast (code : Option CodeRegistry) (s : Hooking) : Prop where
  anchored : s.Anchored
  willing : ∀ c t, s.host.refuses c t = none
  loaded : ∀ r, code = some r → ∀ e ∈ r.units, s.host.isLoaded e.2 = true
  defined : ∀ m, s.hooks.isInstalled (.method m) = true → (s.host.body? m).isSome = true
  known : ∀ l, s.hooks.isInstalled (.line l) = true →
    s.hooks.untargeted = true ∨ ∃ r, code = some r ∧ (r.lookup l.file).isSome = true
  bare : ∀ m, s.hooks.isInstalled (.method m) = true → s.calls? (.method m) = none →
    ∃ program, s.host.body? m = some (.program program)

theorem isLoaded_of_place (loaded : ∀ r, code = some r → ∀ e ∈ r.units, s.host.isLoaded e.2 = true)
    {l : SourceLine} {u : CompiledUnit} (place : s.traceUnit code l = .ok (some u)) :
    s.host.isLoaded u = true := by
  unfold traceUnit at place
  split at place
  · rename_i registry used
    split at place
    · rename_i unit found
      cases place
      obtain ⟨key, member⟩ := lookup_mem found
      exact loaded registry (Option.filter_eq_some_iff.mp used).1 _ member
    · split at place <;> cases place
  · split at place <;> cases place

theorem known_of_place {l : SourceLine} {unit : Option CompiledUnit}
    (place : s.traceUnit code l = .ok unit) :
    s.hooks.untargeted = true ∨ ∃ r, code = some r ∧ (r.lookup l.file).isSome = true := by
  unfold traceUnit at place
  split at place
  · rename_i registry used
    split at place
    · rename_i unit found
      exact Or.inr ⟨registry, (Option.filter_eq_some_iff.mp used).1, by rw [found]; rfl⟩
    · split at place
      · exact Or.inl ‹_›
      · cases place
  · split at place
    · exact Or.inl ‹_›
    · cases place

theorem known_of_refusal {l : SourceLine} {e : Error} (place : s.traceUnit code l = .error e)
    (known : s.hooks.untargeted = true ∨ ∃ r, code = some r ∧ (r.lookup l.file).isSome = true) :
    e.isTargetNotDefined = false := by
  unfold traceUnit at place
  split at place
  · rename_i registry used
    split at place
    · cases place
    · rename_i unknown
      split at place
      · cases place
      · rename_i targeted
        rcases known with untargeted | ⟨r, same, found⟩
        · exact absurd untargeted targeted
        · rw [(Option.filter_eq_some_iff.mp used).1] at same
          cases same
          rw [unknown] at found
          cases found
  · split at place
    · cases place
    · cases place
      rfl

theorem Steadfast.attempt (steadfast : s.Steadfast code) (t : HookTarget) (callback : Callback) :
    Attempt code t s (s.hook code t callback) ∧
      ∀ e, (s.hook code t callback).1 = .error e → e.isTargetNotDefined = true →
        s.hooks.isInstalled t = false := by
  have accepting : Accepting s.host :=
    fun t => ⟨steadfast.willing .removeMethod t, steadfast.willing .removeLine t⟩
  have granted_attempt : s.Grants code t → Attempt code t s (s.hook code t callback) ∧
      ∀ e, (s.hook code t callback).1 = .error e → e.isTargetNotDefined = true →
        s.hooks.isInstalled t = false := by
    intro granted
    have attempt := hook_of_granted steadfast.anchored accepting granted callback
    refine ⟨attempt, fun e refused => ?_⟩
    rw [attempt.granted.mpr granted] at refused
    cases refused
  cases installed : s.hooks.isInstalled t with
  | false => exact ⟨hook_attempt steadfast.anchored code installed callback, fun _ _ _ => rfl⟩
  | true =>
    rw [installed] at granted_attempt
    cases t with
    | method m =>
      have granted : s.Grants code (.method m) :=
        ⟨steadfast.willing _ _, steadfast.defined m installed⟩
      exact granted_attempt granted
    | line l =>
      cases place : s.traceUnit code l with
      | error e =>
        have refused : s.hook code (.line l) callback = (.error e, s) := by
          show s.hookLine code l callback = _
          unfold hookLine
          rw [place]
        rw [refused]
        constructor
        · refine Attempt.failed (Frame.refl _ s) steadfast.anchored ⟨rfl, rfl⟩ (Same.refl _ s) ?_
          rintro ⟨-, unit, found, -⟩
          rw [place] at found
          cases found
        · intro e' same undefined
          cases same
          rw [known_of_refusal place (steadfast.known l installed)] at undefined
          cases undefined
      | ok unit =>
        have granted : s.Grants code (.line l) := by
          refine ⟨steadfast.willing _ _, unit, place, fun u same => ?_⟩
          subst same
          exact isLoaded_of_place steadfast.loaded place
        exact granted_attempt granted

theorem Steadfast.of_frame (steadfast : s.Steadfast code) (frame : Frame t s s')
    (anchored : s'.Anchored)
    (own : s'.hooks.isInstalled t = true →
      Same t s s' ∨ s.Grants code t ∧ (s'.calls? t).isSome = true) : s'.Steadfast code := by
  have refuses : s'.host.refuses = s.host.refuses := congrArg Wiring.refuses frame.wiring
  have units : s'.host.units = s.host.units := congrArg Wiring.units frame.wiring
  have untargeted : s'.hooks.untargeted = s.hooks.untargeted :=
    congrArg Wiring.untargeted frame.wiring
  have either : ∀ other, s'.hooks.isInstalled other = true →
      Same other s s' ∨ s.Grants code other ∧ (s'.calls? other).isSome = true := by
    intro other installed
    by_cases same : other = t
    · exact same ▸ own (same ▸ installed)
    · exact Or.inl (frame.apart other same)
  constructor
  case anchored => exact anchored
  case willing =>
    rw [refuses]
    exact steadfast.willing
  case loaded =>
    unfold Host.isLoaded Host.allUnits
    rw [units]
    exact steadfast.loaded
  case defined =>
    intro m installed
    rw [frame.defined]
    rcases either _ installed with same | ⟨granted, -⟩
    · exact steadfast.defined m (same.isInstalled.symm.trans installed)
    · exact granted.2
  case known =>
    intro l installed
    rw [untargeted]
    rcases either _ installed with same | ⟨⟨-, unit, place, -⟩, -⟩
    · exact steadfast.known l (same.isInstalled.symm.trans installed)
    · exact known_of_place place
  case bare =>
    intro m installed none
    rcases either _ installed with same | ⟨-, calls⟩
    · have calls := congrArg Holding.calls (same.holding frame.wiring)
      rw [same.2.2.2]
      exact steadfast.bare m (same.isInstalled.symm.trans installed) (calls.symm.trans none)
    · rw [none] at calls
      cases calls

structure Turns (code : Option CodeRegistry) (t : HookTarget) (h : Holding) (s s' : Hooking) :
    Prop where
  steadfast : s'.Steadfast code
  wiring : s'.wiring = s.wiring
  apart : ∀ other, other ≠ t → s'.holding other = s.holding other
  here : s'.holding t = h

theorem Turns.of_frame {h : Holding} (frame : Frame t s s') (steadfast : s'.Steadfast code)
    (here : s'.holding t = h) : Turns code t h s s' :=
  ⟨steadfast, frame.wiring, fun other ne => (frame.apart other ne).holding frame.wiring, here⟩

theorem waits_of_pending (pendingMethods : s'.hooks.pendingMethods = s.hooks.pendingMethods)
    (pendingLines : s'.hooks.pendingLines = s.hooks.pendingLines) : s'.waits? = s.waits? := by
  funext t
  unfold waits?
  rw [pendingMethods, pendingLines]

theorem Steadfast.hook (steadfast : s.Steadfast code) (t : HookTarget) (callback : Callback) :
    let r := s.hook code t callback
    r.1 = .ok () ∧ Turns code t ⟨true, some callback, s.waits? t⟩ s r.2 ∨
      ∃ e, r.1 = .error e ∧ Turns code t (s.holding t) s r.2 ∧
        (e.isTargetNotDefined = true → s.hooks.isInstalled t = false) := by
  intro r
  obtain ⟨attempt, undefined⟩ := steadfast.attempt t callback
  cases answer : r.1 with
  | ok _ =>
    have calls := calls_hook answer attempt.anchored
    refine Or.inl ⟨rfl, Turns.of_frame attempt.frame
      (steadfast.of_frame attempt.frame attempt.anchored fun _ =>
        Or.inr ⟨attempt.granted.mp answer, by rw [calls]; rfl⟩) ?_⟩
    unfold holding
    rw [attempt.installed answer, calls,
      waits_of_pending attempt.pendingMethods attempt.pendingLines]
  | error e =>
    have same := attempt.refused e answer
    exact Or.inr ⟨e, rfl, Turns.of_frame attempt.frame
      (steadfast.of_frame attempt.frame attempt.anchored fun _ => Or.inl same)
      (same.holding attempt.frame.wiring), undefined e answer⟩

theorem calls_of_free (free : s.hooks.isInstalled t = false) : s.calls? t = none := by
  cases t with
  | method m =>
    have absent := Table.contains_eq_false_iff.mp free
    dsimp only [calls?]
    rw [absent]
    rfl
  | line l =>
    have absent := Table.contains_eq_false_iff.mp free
    dsimp only [calls?]
    rw [absent]
    rfl

theorem Steadfast.addPending (steadfast : s.Steadfast code) (t : HookTarget) (callback : Callback) :
    Turns code t { s.holding t with waits := some callback } s (s.addPending t callback) := by
  have anchored := addPending_anchored steadfast.anchored t callback
  refine Turns.of_frame (addPending_frame t callback s) ?_ ?_
  · cases t <;> exact { steadfast with anchored }
  · cases t with
    | method m => exact congrArg (Holding.mk _ _) (Table.get?_insert_self m callback _)
    | line l => exact congrArg (Holding.mk _ _) (Table.get?_insert_self l callback _)

theorem Steadfast.forget (steadfast : s.Steadfast code) (t : HookTarget) :
    Turns code t { s.holding t with waits := none } s (s.forget t) := by
  have anchored := forget_anchored steadfast.anchored t
  refine Turns.of_frame (forget_frame t s) ?_ ?_
  · cases t <;> exact { steadfast with anchored }
  · cases t with
    | method m => exact congrArg (Holding.mk _ _) (Table.get?_erase_self m _)
    | line l => exact congrArg (Holding.mk _ _) (Table.get?_erase_self l _)

theorem Turns.trans {h h' : Holding} {s'' : Hooking} (first : Turns code t h s s')
    (second : Turns code t h' s' s'') : Turns code t h' s s'' where
  steadfast := second.steadfast
  wiring := second.wiring.trans first.wiring
  apart other ne := (second.apart other ne).trans (first.apart other ne)
  here := second.here

theorem Steadfast.hookWhenDefined (steadfast : s.Steadfast code) (t : HookTarget)
    (callback : Callback) :
    let r := s.hookWhenDefined code t callback
    r.1 = .ok true ∧ Turns code t ⟨true, some callback, s.waits? t⟩ s r.2 ∨
      r.1 = .ok false ∧ Turns code t ⟨false, none, some callback⟩ s r.2 ∨
      (∃ e, r.1 = .error e) ∧ Turns code t (s.holding t) s r.2 := by
  intro r
  have either := steadfast.hook t callback
  unfold r Hooking.hookWhenDefined
  rcases attempted : s.hook code t callback with ⟨answer, s'⟩
  rw [attempted] at either
  rcases either with ⟨done, turns⟩ | ⟨e, refused, turns, undefined⟩
  · cases done
    exact Or.inl ⟨rfl, turns⟩
  · cases refused
    cases e with
    | targetNotDefined detail =>
      have waits := turns.trans (turns.steadfast.addPending t callback)
      rw [turns.here, holding, undefined rfl, calls_of_free (undefined rfl)] at waits
      exact Or.inr (Or.inl ⟨rfl, waits⟩)
    | _ => exact Or.inr (Or.inr ⟨⟨_, rfl⟩, turns⟩)

theorem Steadfast.warn (steadfast : s.Steadfast code) (w : Warning) : (s.warn w).Steadfast code :=
  { steadfast with anchored := { steadfast.anchored with } }

theorem Steadfast.retry (steadfast : s.Steadfast code) (t : HookTarget) (callback : Callback) :
    let r := s.retry code t callback
    r.1 = true ∧ Turns code t ⟨true, some callback, none⟩ s r.2 ∨
      r.1 = false ∧ Turns code t (s.holding t) s r.2 := by
  intro r
  have either := steadfast.hook t callback
  unfold r Hooking.retry
  rcases attempted : s.hook code t callback with ⟨answer, s'⟩
  rw [attempted] at either
  rcases either with ⟨done, turns⟩ | ⟨e, refused, turns, -⟩
  · cases done
    have forgotten := turns.trans (turns.steadfast.forget t)
    rw [turns.here] at forgotten
    exact Or.inl ⟨rfl, forgotten⟩
  · cases refused
    have warned : ∀ w, Turns code t (s.holding t) s (s'.warn w) :=
      fun w => ⟨turns.steadfast.warn w, turns.wiring, turns.apart, turns.here⟩
    cases e with
    | targetNotDefined detail => exact Or.inr ⟨rfl, turns⟩
    | _ => exact Or.inr ⟨rfl, warned _⟩

theorem Steadfast.unhook (steadfast : s.Steadfast code) (t : HookTarget) :
    Turns code t ⟨false, none, s.waits? t⟩ s (s.unhook t).2 := by
  have accepting : Accepting s.host :=
    fun t => ⟨steadfast.willing .removeMethod t, steadfast.willing .removeLine t⟩
  have removal := unhook_removal steadfast.anchored t
  have free := removal.removed (unhook_of_accepting accepting t)
  refine Turns.of_frame removal.frame (steadfast.of_frame removal.frame removal.anchored
    fun installed => ?_) ?_
  · rw [free] at installed
    cases installed
  · unfold holding
    rw [free, calls_of_free free, waits_of_pending removal.pendingMethods removal.pendingLines]

/-! What waits is tried. -/

structure Tries (code : Option CodeRegistry) (s s' : Hooking) : Prop where
  steadfast : s'.Steadfast code
  wiring : s'.wiring = s.wiring
  tried : ∀ t, (s.holding t).Tried (s'.holding t)

theorem Tries.refl (steadfast : s.Steadfast code) : Tries code s s :=
  ⟨steadfast, rfl, fun _ => Or.inl rfl⟩

theorem Tries.trans {s'' : Hooking} (first : Tries code s s') (second : Tries code s' s'') :
    Tries code s s'' :=
  ⟨second.steadfast, second.wiring.trans first.wiring,
    fun t => (first.tried t).trans (second.tried t)⟩

theorem Turns.tries {h : Holding} (turns : Turns code t h s s') (own : (s.holding t).Tried h) :
    Tries code s s' := by
  refine ⟨turns.steadfast, turns.wiring, fun other => ?_⟩
  by_cases same : other = t
  · subst same
    exact turns.here ▸ own
  · exact Or.inl (turns.apart other same)

theorem Steadfast.retryAll (waiting : List (HookTarget × Callback)) :
    ∀ {s : Hooking}, s.Steadfast code → (waiting.map (·.1)).Nodup →
      (∀ e ∈ waiting, s.waits? e.1 = some e.2) → Tries code s (s.retryAll code waiting).2 := by
  induction waiting with
  | nil => exact fun steadfast _ _ => Tries.refl steadfast
  | cons e rest ih =>
    intro s steadfast nodup waits
    obtain ⟨fresh, nodupRest⟩ := List.nodup_cons.mp nodup
    obtain ⟨first, later⟩ := List.forall_mem_cons.mp waits
    have tries : ∀ {h : Holding}, Turns code e.1 h s (s.retry code e.1 e.2).2 →
        (s.holding e.1).Tried h → Tries code s (s.retryAll code (e :: rest)).2 := by
      intro h turns own
      rw [retryAll_cons]
      refine (turns.tries own).trans (ih turns.steadfast nodupRest fun e' member => ?_)
      have other : e'.1 ≠ e.1 := fun same =>
        fresh (List.mem_map.mpr ⟨e', member, same⟩)
      exact (congrArg Holding.waits (turns.apart e'.1 other)).trans (later e' member)
    rcases steadfast.retry e.1 e.2 with ⟨-, turns⟩ | ⟨-, turns⟩
    · exact tries turns (Or.inr ⟨e.2, first, rfl⟩)
    · exact tries turns (Or.inl rfl)

theorem Steadfast.installPendingMethods (steadfast : s.Steadfast code) (typeName : String) :
    Tries code s (s.installPendingMethods code typeName).2 := by
  unfold Hooking.installPendingMethods
  split
  · exact Tries.refl steadfast
  · refine steadfast.retryAll _ (nodup_waitingMethods steadfast.anchored typeName) fun e member => ?_
    obtain ⟨entry, listed, rfl⟩ := List.mem_map.mp member
    exact Table.get?_of_mem steadfast.anchored.pendingMethodKeys (List.mem_filter.mp listed).1

theorem Steadfast.installPendingLines (steadfast : s.Steadfast code) (path : String) :
    Tries code s (s.installPendingLines code path).2 := by
  unfold Hooking.installPendingLines
  split
  · exact Tries.refl steadfast
  · refine steadfast.retryAll _ (nodup_waitingLines steadfast.anchored path) fun e member => ?_
    obtain ⟨entry, listed, rfl⟩ := List.mem_map.mp member
    exact Table.get?_of_mem steadfast.anchored.pendingLineKeys (List.mem_filter.mp listed).1

end Hooking
end LiveProbe
