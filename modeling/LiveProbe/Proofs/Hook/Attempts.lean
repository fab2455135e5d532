import LiveProbe.Proofs.Hook.Steps
import Mathlib.Data.List.Nodup

/-!
Hooking and unhooking, for methods and lines alike: whether the target is hooked afterwards, and
that an attempt that fails changes nothing of what is held for any target.
-/
namespace LiveProbe.Hooking

variable {s : Hooking}

def Grants (code : Option CodeRegistry) (s : Hooking) : HookTarget → Prop
  | .method m => s.host.refuses .installMethod (.method m) = none ∧ (s.host.body? m).isSome = true
  | .line l => s.host.refuses .installLine (.line l) = none ∧
    ∃ unit, s.traceUnit code l = .ok unit ∧ ∀ u, unit = some u → s.host.isLoaded u = true

structure Attempt (code : Option CodeRegistry) (target : HookTarget) (s : Hooking)
    (r : Except Error Unit × Hooking) : Prop where
  frame : Frame target s r.2
  anchored : r.2.Anchored
  pendingMethods : r.2.hooks.pendingMethods = s.hooks.pendingMethods
  pendingLines : r.2.hooks.pendingLines = s.hooks.pendingLines
  granted : r.1 = .ok () ↔ s.Grants code target
  installed : r.1 = .ok () → r.2.hooks.isInstalled target = true
  refused : ∀ e, r.1 = .error e → Same target s r.2

theorem Attempt.failed {code : Option CodeRegistry} {target : HookTarget} {s' : Hooking} {e : Error}
    (frame : Frame target s s') (anchored : s'.Anchored)
    (pending : s'.hooks.pendingMethods = s.hooks.pendingMethods ∧
      s'.hooks.pendingLines = s.hooks.pendingLines)
    (same : Same target s s') (declined : ¬ s.Grants code target) :
    Attempt code target s (.error e, s') where
  frame := frame
  anchored := anchored
  pendingMethods := pending.1
  pendingLines := pending.2
  granted := iff_of_false (fun h => by cases h) declined
  installed h := by cases h
  refused _ _ := same

theorem hookMethod_attempt (anchored : s.Anchored) (code : Option CodeRegistry) {m : MethodName}
    (free : Table.get? m s.hooks.methods = none) (callback : Callback) :
    Attempt code (.method m) s (s.hookMethod m callback) := by
  obtain ⟨host, rest, slots⟩ := prepareMethod_of_free free
  have frame := prepareMethod_frame anchored m
  have prepared := prepareMethod_anchored anchored m
  have pendingMethods : (s.prepareMethod m).hooks.pendingMethods = s.hooks.pendingMethods := by
    rw [rest]
  have pendingLines : (s.prepareMethod m).hooks.pendingLines = s.hooks.pendingLines := by
    rw [rest]
  have cases := hookMethod_cases s m callback
  dsimp only at cases
  rw [host] at cases
  rcases cases with ⟨e, reason, refused⟩ | ⟨saved, willing, current, done⟩
  · rw [refused]
    have same : Same (.method m) s (s.prepareMethod m) := by
      refine ⟨?_, by rw [rest], slots m, by rw [host]⟩
      rw [get?_prepareMethod, if_pos rfl, free]
    apply Attempt.failed frame prepared ⟨pendingMethods, pendingLines⟩ same
    intro granted
    obtain ⟨willing, defined⟩ := granted
    rcases reason with refuses | ⟨missing, -⟩
    · rw [willing] at refuses
      cases refuses
    · rw [missing] at defined
      cases defined
  · have defined : ((s.prepareMethod m).host.body? m).isSome = true := by
      rw [host, current]
      rfl
    rw [← host] at done
    rw [done]
    constructor
    case frame =>
      refine frame.trans (Frame.of_method (.setBody defined _) rfl rfl rfl ?_ (fun _ _ => rfl) ?_)
      · intro other ne
        exact Table.get?_insert_of_ne ne _ _
      · intro other ne
        have slot := Hooks.slot_setSlot (s.prepareMethod m).hooks m other
          ((s.releaseMethod m).hooks.lastInstallation + 1)
        rw [if_neg ne] at slot
        exact slot
    case anchored =>
      refine prepared.of_methods rfl rfl rfl rfl rfl ?_
      intro other i found
      dsimp only at found
      rw [Table.get?_insert] at found
      split at found
      · rename_i own
        cases found
        exact own.symm
      · exact prepared.home other i found
    case pendingMethods => exact pendingMethods
    case pendingLines => exact pendingLines
    case granted => exact iff_of_true rfl ⟨willing, by rw [current]; rfl⟩
    case installed =>
      intro _
      simp [Hooks.isInstalled, Table.contains_insert]
    case refused =>
      intro e h
      cases h

theorem hookLine_cases (code : Option CodeRegistry) {l : SourceLine}
    (free : Table.get? l s.hooks.lines = none) (callback : Callback) :
    (∃ e, (s.traceUnit code l = .error e ∨ s.host.refuses .installLine (.line l) = some e ∨
          ∃ u, s.traceUnit code l = .ok (some u) ∧ s.host.isLoaded u = false) ∧
        s.hookLine code l callback = (.error e, s)) ∨
      ∃ unit : Option CompiledUnit, (s.host.refuses .installLine (.line l) = none ∧
          s.traceUnit code l = .ok unit ∧ ∀ u, unit = some u → s.host.isLoaded u = true) ∧
        s.hookLine code l callback = (.ok (), { s with
          host := { s.host with
            lastId := s.host.lastId + 1
            traces := s.host.traces ++
              [⟨s.host.lastId + 1, unit.map (·.id), l.line, some l, callback⟩] }
          hooks := { s.hooks with
            lines := s.hooks.lines ++ [(l, ⟨s.host.lastId + 1, l.file, l.line⟩)] } }) := by
  have released : s.releaseLine l = (.ok (), s) := by simp [releaseLine, free]
  unfold hookLine
  cases place : s.traceUnit code l with
  | error e => exact Or.inl ⟨e, Or.inl rfl, rfl⟩
  | ok unit =>
    simp only [released]
    unfold installLine
    rcases Host.installLine_cases s.host unit l callback with ⟨e, reason, refused⟩ | ⟨allowed, done⟩
    · rw [refused]
      refine Or.inl ⟨e, Or.inr ?_, rfl⟩
      rcases reason with refuses | ⟨u, same, missing⟩
      · exact Or.inl refuses
      · exact Or.inr ⟨u, by rw [same], missing⟩
    · rw [done]
      refine Or.inr ⟨unit, ⟨allowed.1, rfl, allowed.2⟩, ?_⟩
      simp only [Table.insert_of_absent free]

theorem tracesAt_append_of_ne {h : Host} {l other : SourceLine} (ne : other ≠ l) (t : LineTrace)
    (only : t.only = some l) (lastId : Nat) :
    Host.tracesAt { h with lastId, traces := h.traces ++ [t] } other = h.tracesAt other := by
  have apart : l ≠ other := fun eq => ne eq.symm
  simp [Host.tracesAt, only, apart]

theorem anchored_append (anchored : s.Anchored) {l : SourceLine}
    (free : Table.get? l s.hooks.lines = none) (unit : Option Nat) (callback : Callback) :
    Anchored { s with
      host := { s.host with
        lastId := s.host.lastId + 1
        traces := s.host.traces ++ [⟨s.host.lastId + 1, unit, l.line, some l, callback⟩] }
      hooks := { s.hooks with
        lines := s.hooks.lines ++ [(l, ⟨s.host.lastId + 1, l.file, l.line⟩)] } } where
  home := anchored.home
  traced := by simp [anchored.traced]
  distinct := by
    simp only [List.map_append, List.map_cons, List.map_nil, List.nodup_append]
    refine ⟨anchored.distinct, by simp, ?_⟩
    intro a known b fresh same
    obtain ⟨t, member, rfl⟩ := List.mem_map.mp known
    have := anchored.bounded t member
    simp only [List.mem_singleton] at fresh
    omega
  bounded := by
    intro t member
    rcases List.mem_append.mp member with old | new
    · exact Nat.le_succ_of_le (anchored.bounded t old)
    · have last := List.mem_singleton.mp new
      exact Nat.le_of_eq (congrArg (·.id) last)
  lineKeys := by
    let handle : LineHandle := ⟨s.host.lastId + 1, l.file, l.line⟩
    have keys : (Table.keys (Table.insert l handle s.hooks.lines)).Nodup :=
      Table.nodup_keys_insert anchored.lineKeys
    rwa [Table.insert_of_absent free] at keys
  pendingMethodKeys := anchored.pendingMethodKeys
  pendingLineKeys := anchored.pendingLineKeys

theorem hookLine_attempt (anchored : s.Anchored) (code : Option CodeRegistry) {l : SourceLine}
    (free : Table.get? l s.hooks.lines = none) (callback : Callback) :
    Attempt code (.line l) s (s.hookLine code l callback) := by
  rcases hookLine_cases code free callback with
    ⟨e, reason, refused⟩ | ⟨unit, ⟨willing, place, loaded⟩, done⟩
  · rw [refused]
    apply Attempt.failed (Frame.refl _ s) anchored ⟨rfl, rfl⟩ (Same.refl _ s)
    intro granted
    obtain ⟨willing, unit, place, loaded⟩ := granted
    rcases reason with nowhere | refuses | ⟨u, found, missing⟩
    · rw [place] at nowhere
      cases nowhere
    · rw [willing] at refuses
      cases refuses
    · rw [place] at found
      cases found
      rw [loaded u rfl] at missing
      cases missing
  · rw [done]
    constructor
    case frame =>
      refine Frame.of_line rfl (fun _ => ⟨rfl, rfl, rfl, rfl⟩) ?_ (fun _ _ => rfl) ?_
      · intro other apart
        have fresh := Table.get?_insert_of_ne apart
          (⟨s.host.lastId + 1, l.file, l.line⟩ : LineHandle) s.hooks.lines
        rw [Table.insert_of_absent free] at fresh
        exact fresh
      · intro other apart
        exact tracesAt_append_of_ne apart _ rfl _
    case anchored => exact anchored_append anchored free _ callback
    case pendingMethods => rfl
    case pendingLines => rfl
    case granted => exact iff_of_true rfl ⟨willing, unit, place, loaded⟩
    case installed =>
      intro _
      simp [Hooks.isInstalled, Table.contains, Table.get?_append, Table.get?]
    case refused =>
      intro e h
      cases h

theorem hook_attempt (anchored : s.Anchored) (code : Option CodeRegistry) {target : HookTarget}
    (free : s.hooks.isInstalled target = false) (callback : Callback) :
    Attempt code target s (s.hook code target callback) := by
  cases target with
  | method m =>
    have absent := Table.contains_eq_false_iff.mp free
    exact hookMethod_attempt anchored code absent callback
  | line l =>
    have absent := Table.contains_eq_false_iff.mp free
    exact hookLine_attempt anchored code absent callback

structure Removal (target : HookTarget) (s : Hooking) (r : Except Error Unit × Hooking) : Prop where
  frame : Frame target s r.2
  anchored : r.2.Anchored
  pendingMethods : r.2.hooks.pendingMethods = s.hooks.pendingMethods
  pendingLines : r.2.hooks.pendingLines = s.hooks.pendingLines
  removed : r.1 = .ok () → r.2.hooks.isInstalled target = false
  refused : ∀ e, r.1 = .error e →
    Same target s r.2 ∧ ∃ c t, s.host.refuses c t = some e

theorem Removal.idle {target : HookTarget} (anchored : s.Anchored)
    (free : s.hooks.isInstalled target = false) : Removal target s (.ok (), s) where
  frame := Frame.refl _ s
  anchored := anchored
  pendingMethods := rfl
  pendingLines := rfl
  removed _ := free
  refused e h := by cases h

theorem Removal.failed {target : HookTarget} (anchored : s.Anchored) {c : Capability}
    {t : HookTarget} {e : Error} (refuses : s.host.refuses c t = some e) :
    Removal target s (.error e, s) where
  frame := Frame.refl _ s
  anchored := anchored
  pendingMethods := rfl
  pendingLines := rfl
  removed h := by cases h
  refused e' h := by
    cases h
    exact ⟨Same.refl _ s, c, t, refuses⟩

theorem unhookMethod_removal (anchored : s.Anchored) (m : MethodName) :
    Removal (.method m) s (s.unhookMethod m) := by
  cases hooked : Table.get? m s.hooks.methods with
  | none =>
    have idle : s.unhookMethod m = (.ok (), s) := by simp [unhookMethod, hooked]
    rw [idle]
    exact Removal.idle anchored (Table.contains_eq_false_iff.mpr hooked)
  | some installed =>
    have home := anchored.home m installed hooked
    rcases unhookMethod_cases hooked with ⟨e, refuses, refused⟩ | ⟨done, host, rest, slots⟩
    · rw [refused]
      exact Removal.failed anchored refuses
    · have bodies := Host.BodyFrame.restoreMethod s.host installed.handle
      rw [← host, home] at bodies
      have methods : ∀ other, Table.get? other (s.unhookMethod m).2.hooks.methods =
          if other = m then none else Table.get? other s.hooks.methods := by
        intro other
        rw [rest]
        exact Table.get?_erase m other s.hooks.methods
      constructor
      case frame =>
        apply Frame.of_method bodies
        case methods =>
          intro other ne
          rw [methods, if_neg ne]
        case slots =>
          intro other ne
          rw [slots, if_neg (fun h => ne h.1)]
        all_goals rw [rest]
        exact fun _ _ => rfl
      case anchored =>
        apply anchored.of_methods
        case home =>
          intro other i found
          rw [methods] at found
          split at found
          · cases found
          · exact anchored.home other i found
        all_goals first | rw [bodies.rest] | rw [rest]
      case pendingMethods => rw [rest]
      case pendingLines => rw [rest]
      case removed =>
        intro _
        exact Table.contains_eq_false_iff.mpr ((methods m).trans (if_pos rfl))
      case refused =>
        intro e h
        rw [done] at h
        cases h

theorem Anchored.only_iff (anchored : s.Anchored) {l : SourceLine} {handle : LineHandle}
    (hooked : Table.get? l s.hooks.lines = some handle) {e : SourceLine × LineHandle}
    (member : e ∈ s.hooks.lines) : e.2.id = handle.id ↔ e.1 = l := by
  constructor
  · intro same
    have ids : (s.hooks.lines.map fun e => e.2.id).Nodup := by
      have numbers := congrArg (List.map Prod.snd) anchored.traced
      rw [List.map_map, List.map_map] at numbers
      have distinct := anchored.distinct
      exact numbers ▸ distinct
    have equal := List.inj_on_of_nodup_map ids member (Table.mem_of_get? hooked) same
    rw [equal]
  · intro same
    obtain ⟨key, own⟩ := e
    have found := Table.get?_of_mem anchored.lineKeys member
    rw [show key = l from same, hooked] at found
    rw [Option.some.inj found]

theorem Anchored.id_of_trace (anchored : s.Anchored) {l : SourceLine} {handle : LineHandle}
    (hooked : Table.get? l s.hooks.lines = some handle) {t : LineTrace}
    (member : t ∈ s.host.traces) : t.id = handle.id ↔ t.only = some l := by
  have entry : (t.only, t.id) ∈ s.hooks.lines.map fun e => (some e.1, e.2.id) :=
    anchored.traced ▸ List.mem_map.mpr ⟨t, member, rfl⟩
  obtain ⟨e, inLines, pair⟩ := List.mem_map.mp entry
  simp only [Prod.mk.injEq] at pair
  rw [← pair.1, ← pair.2, anchored.only_iff hooked inLines]
  simp

theorem unhookLine_cases {l : SourceLine} {handle : LineHandle}
    (hooked : Table.get? l s.hooks.lines = some handle) :
    (∃ e, s.host.refuses .removeLine (.line ⟨handle.file, handle.line⟩) = some e ∧
        s.unhookLine l = (.error e, s)) ∨
      s.unhookLine l = (.ok (), { s with
        host := s.host.removeTrace handle
        hooks := { s.hooks with lines := Table.erase l s.hooks.lines } }) := by
  unfold unhookLine Host.removeLine
  rw [hooked]
  dsimp only
  cases answer : s.host.refuses .removeLine (.line ⟨handle.file, handle.line⟩) with
  | some e => exact Or.inl ⟨e, rfl, rfl⟩
  | none => exact Or.inr rfl

theorem tracesAt_removeTrace_of_ne (anchored : s.Anchored) {l other : SourceLine}
    {handle : LineHandle} (hooked : Table.get? l s.hooks.lines = some handle) (ne : other ≠ l) :
    (s.host.removeTrace handle).tracesAt other = s.host.tracesAt other := by
  unfold Host.tracesAt Host.removeTrace
  rw [List.filter_filter]
  apply List.filter_congr
  intro t member
  have own := anchored.id_of_trace hooked member
  by_cases meant : t.only = some other
  · have stays : t.id ≠ handle.id := by
      rw [ne_eq, own, meant, Option.some.injEq]
      exact ne
    simp [meant, stays]
  · simp [meant]

theorem anchored_removeTrace (anchored : s.Anchored) {l : SourceLine} {handle : LineHandle}
    (hooked : Table.get? l s.hooks.lines = some handle) :
    Anchored { s with
      host := s.host.removeTrace handle
      hooks := { s.hooks with lines := Table.erase l s.hooks.lines } } where
  home := anchored.home
  traced := by
    have kept : Table.erase l s.hooks.lines = s.hooks.lines.filter fun e => e.2.id ≠ handle.id := by
      apply List.filter_congr
      intro e member
      simp [anchored.only_iff hooked member]
    have filtered := congrArg (List.filter fun pair => pair.2 ≠ handle.id) anchored.traced
    rw [List.filter_map, List.filter_map] at filtered
    dsimp only
    rw [kept]
    exact filtered
  distinct := anchored.distinct.sublist (List.filter_sublist.map _)
  bounded t member := anchored.bounded t (List.mem_filter.mp member).1
  lineKeys := Table.nodup_keys_erase anchored.lineKeys l
  pendingMethodKeys := anchored.pendingMethodKeys
  pendingLineKeys := anchored.pendingLineKeys

theorem unhookLine_removal (anchored : s.Anchored) (l : SourceLine) :
    Removal (.line l) s (s.unhookLine l) := by
  cases hooked : Table.get? l s.hooks.lines with
  | none =>
    have idle : s.unhookLine l = (.ok (), s) := by simp [unhookLine, hooked]
    rw [idle]
    exact Removal.idle anchored (Table.contains_eq_false_iff.mpr hooked)
  | some handle =>
    rcases unhookLine_cases hooked with ⟨e, refuses, refused⟩ | done
    · rw [refused]
      exact Removal.failed anchored refuses
    · rw [done]
      constructor
      case frame =>
        refine Frame.of_line rfl (fun _ => ⟨rfl, rfl, rfl, rfl⟩) ?_ (fun _ _ => rfl) ?_
        · intro other apart
          exact Table.get?_erase_of_ne apart _
        · intro other apart
          exact tracesAt_removeTrace_of_ne anchored hooked apart
      case anchored => exact anchored_removeTrace anchored hooked
      case pendingMethods => rfl
      case pendingLines => rfl
      case removed =>
        intro _
        simp [Hooks.isInstalled, Table.contains_erase]
      case refused =>
        intro e h
        cases h

theorem unhook_removal (anchored : s.Anchored) (target : HookTarget) :
    Removal target s (s.unhook target) := by
  cases target with
  | method m => exact unhookMethod_removal anchored m
  | line l => exact unhookLine_removal anchored l

end LiveProbe.Hooking
