import LiveProbe.Proofs.Hook.Layers
import LiveProbe.Proofs.Hook.Renewal
import LiveProbe.Proofs.Line.Lineup

/-!
What a manager holds of lines, on a host that refuses nothing. For each line that is posted there is
one trace in the host, which calls what was posted last, and the manager keeps its handle; for any
other line there is neither. Every operation does to it what it is meant to do.
-/
namespace LiveProbe

open Function (update)

def Prospect.Answers : Prospect → Except Error Unit → Prop
  | .traced _, answer => answer = .ok ()
  | .unknown, answer => ∃ e, answer = .error e ∧ e.isTargetNotDefined = true
  | .astray, answer | .disallowed, answer => ∃ e, answer = .error e ∧ e.isTargetNotDefined = false

theorem Prospect.Answers.ok_iff {p : Prospect} {answer : Except Error Unit}
    (answers : p.Answers answer) : answer = .ok () ↔ p.isTraced = true := by
  cases p with
  | traced unit => exact iff_of_true answers rfl
  | unknown | astray | disallowed =>
    obtain ⟨e, rfl, -⟩ := answers
    exact iff_of_false (fun h => by cases h) Bool.false_ne_true

namespace Hooking

variable {s s' : Hooking} {b : Lineup} {l : SourceLine} {code : Option CodeRegistry}
  {p : Option Posting}

/-! What is to be expected of a line. -/

theorem prospect_congr (wiring : s'.wiring = s.wiring) :
    s'.prospect code l = s.prospect code l := by
  have untargeted : s'.hooks.untargeted = s.hooks.untargeted := congrArg Wiring.untargeted wiring
  have units : s'.host.units = s.host.units := congrArg Wiring.units wiring
  unfold prospect Host.isLoaded Host.allUnits
  rw [untargeted, units]

theorem prospect_cases (code : Option CodeRegistry) (l : SourceLine) (s : Hooking) :
    (∃ unit, s.traceUnit code l = .ok unit ∧
        (s.prospect code l = .traced (unit.map (·.id)) ∧
            (∀ u, unit = some u → s.host.isLoaded u = true) ∨
          s.prospect code l = .astray ∧ ∃ u, unit = some u ∧ s.host.isLoaded u = false)) ∨
      ∃ e, s.traceUnit code l = .error e ∧ s.hooks.untargeted = false ∧
        (s.prospect code l = .unknown ∧ e.isTargetNotDefined = true ∨
          s.prospect code l = .disallowed ∧ e.isTargetNotDefined = false) := by
  unfold traceUnit prospect
  cases code.filter (·.active) with
  | none =>
    cases untargeted : s.hooks.untargeted with
    | true => exact Or.inl ⟨none, rfl, Or.inl ⟨rfl, fun u h => by cases h⟩⟩
    | false => exact Or.inr ⟨_, rfl, rfl, Or.inr ⟨rfl, rfl⟩⟩
  | some registry =>
    dsimp only
    cases registry.lookup l.file with
    | some unit =>
      cases loaded : s.host.isLoaded unit with
      | true =>
        refine Or.inl ⟨some unit, rfl, Or.inl ⟨by simp [loaded], fun u h => ?_⟩⟩
        rw [← Option.some.inj h]
        exact loaded
      | false => exact Or.inl ⟨some unit, rfl, Or.inr ⟨by simp [loaded], unit, rfl, loaded⟩⟩
    | none =>
      cases untargeted : s.hooks.untargeted with
      | true => exact Or.inl ⟨none, rfl, Or.inl ⟨rfl, fun u h => by cases h⟩⟩
      | false => exact Or.inr ⟨_, rfl, rfl, Or.inl ⟨rfl, rfl⟩⟩

/-! What manager and host hold of a line. -/

def Holds (s : Hooking) (l : SourceLine) : Option Posting → Prop
  | none => Table.get? l s.hooks.lines = none ∧ s.host.tracesAt l = []
  | some p => ∃ id, Table.get? l s.hooks.lines = some ⟨id, l.file, l.line⟩ ∧
      s.host.tracesAt l = [⟨id, p.unit, l.line, some l, p.callback⟩]

theorem Holds.of_same (holds : s.Holds l p) (same : Same (.line l) s s') : s'.Holds l p := by
  obtain ⟨lines, -, traces⟩ := same
  unfold Holds
  rw [lines, traces]
  exact holds

theorem Holds.isInstalled (holds : s.Holds l p) :
    s.hooks.isInstalled (.line l) = p.isSome := by
  cases p with
  | none => exact Table.contains_eq_false_iff.mpr holds.1
  | some p =>
    obtain ⟨id, hooked, -⟩ := holds
    exact Table.contains_iff.mpr ⟨_, hooked⟩

/-- Manager and host hold of lines what is meant to be held. -/
structure Meets (b : Lineup) (s : Hooking) : Prop where
  anchored : s.Anchored
  willing : ∀ c t, s.host.refuses c t = none
  methods : s.hooks.methods = []
  holds : ∀ l, s.Holds l (b.posted l)
  waiting : ∀ l, Table.get? l s.hooks.pendingLines = b.waiting l
  closed : s.hooks.closed = b.closed
  targeted : ∀ l, (b.waiting l).isSome = true → s.hooks.untargeted = false

theorem Meets.accepting (meets : Meets b s) : Accepting s.host :=
  fun t => ⟨meets.willing .removeMethod t, meets.willing .removeLine t⟩

theorem Meets.assign (meets : Meets b s) (frame : Frame (.line l) s s') (anchored : s'.Anchored)
    (methods : s'.hooks.methods = s.hooks.methods) (holds : s'.Holds l p) {waits : Option Callback}
    (waiting : Table.get? l s'.hooks.pendingLines = waits)
    (targeted : waits.isSome = true → s.hooks.untargeted = false) :
    Meets (b.assign l p waits) s' := by
  have untargeted : s'.hooks.untargeted = s.hooks.untargeted :=
    congrArg Wiring.untargeted frame.wiring
  have refuses : s'.host.refuses = s.host.refuses := congrArg Wiring.refuses frame.wiring
  have apart : ∀ other, other ≠ l → Same (.line other) s s' := fun other ne =>
    frame.apart (.line other) fun same => ne (HookTarget.line.inj same)
  constructor
  case anchored => exact anchored
  case willing =>
    rw [refuses]
    exact meets.willing
  case methods => exact methods.trans meets.methods
  case holds =>
    intro other
    by_cases own : other = l
    · subst own
      simpa [Lineup.assign] using holds
    · simpa [Lineup.assign, own] using (meets.holds other).of_same (apart other own)
  case waiting =>
    intro other
    by_cases own : other = l
    · subst own
      simpa [Lineup.assign] using waiting
    · simpa [Lineup.assign, own] using (apart other own).2.1.trans (meets.waiting other)
  case closed => exact (congrArg Wiring.closed frame.wiring).trans meets.closed
  case targeted =>
    rw [untargeted]
    intro other
    by_cases own : other = l
    · subst own
      simpa [Lineup.assign] using targeted
    · simpa [Lineup.assign, own] using meets.targeted other

/-! Unhooking. -/

theorem tracesAt_removeTrace (anchored : s.Anchored) {handle : LineHandle}
    (hooked : Table.get? l s.hooks.lines = some handle) :
    (s.host.removeTrace handle).tracesAt l = [] := by
  unfold Host.tracesAt Host.removeTrace
  rw [List.filter_filter, List.filter_eq_nil_iff]
  intro t member
  simp [anchored.id_of_trace hooked member]

theorem Meets.unhookLine (meets : Meets b s) (l : SourceLine) :
    Meets (b.assign l none (b.waiting l)) (s.unhookLine l).2 ∧
      (s.unhookLine l).2.wiring = s.wiring := by
  have removal := unhookLine_removal meets.anchored l
  have parts : (s.unhookLine l).2.hooks.methods = s.hooks.methods ∧
      (s.unhookLine l).2.Holds l none := by
    cases hooked : Table.get? l s.hooks.lines with
    | none =>
      have idle : s.unhookLine l = (.ok (), s) := by simp [Hooking.unhookLine, hooked]
      have holds := meets.holds l
      cases there : b.posted l with
      | none =>
        rw [there] at holds
        rw [idle]
        exact ⟨rfl, holds⟩
      | some p =>
        rw [there] at holds
        obtain ⟨id, found, -⟩ := holds
        rw [hooked] at found
        cases found
    | some handle =>
      rcases unhookLine_cases hooked with ⟨e, refuses, -⟩ | done
      · rw [meets.willing] at refuses
        cases refuses
      · rw [done]
        exact ⟨rfl, Table.get?_erase_self l s.hooks.lines,
          tracesAt_removeTrace meets.anchored hooked⟩
  refine ⟨meets.assign removal.frame removal.anchored parts.1 parts.2 ?_ (meets.targeted l),
    removal.frame.wiring⟩
  rw [removal.pendingLines]
  exact meets.waiting l

theorem Meets.unhook_method (meets : Meets b s) (m : MethodName) :
    s.unhook (.method m) = (.ok (), s) := by
  unfold Hooking.unhook unhookMethod
  rw [meets.methods]
  rfl

/-! Hooking. -/

theorem installLine_of_unloaded (willing : ∀ c t, s.host.refuses c t = none) {u : CompiledUnit}
    (missing : s.host.isLoaded u = false) (l : SourceLine) (callback : Callback) :
    ∃ detail, s.installLine (some u) l callback = (.error (.install detail), s) := by
  unfold installLine Host.installLine Host.interceptLine
  simp only [willing, Option.filter, missing, Bool.not_false, if_true]
  exact ⟨_, rfl⟩

theorem Meets.post (meets : Meets b s) (free : b.posted l = none) {unit : Option CompiledUnit}
    (place : s.traceUnit code l = .ok unit)
    (loaded : ∀ u, unit = some u → s.host.isLoaded u = true) (callback : Callback) :
    (s.hookLine code l callback).1 = .ok () ∧
      Meets (b.assign l (some ⟨callback, unit.map (·.id)⟩) (b.waiting l))
        (s.hookLine code l callback).2 ∧
      (s.hookLine code l callback).2.wiring = s.wiring := by
  have holds := meets.holds l
  rw [free] at holds
  obtain ⟨unhooked, untraced⟩ := holds
  have attempt := hookLine_attempt meets.anchored code unhooked callback
  have granted := attempt.granted.mpr ⟨meets.willing _ _, unit, place, loaded⟩
  refine ⟨granted, ?_, attempt.frame.wiring⟩
  refine meets.assign attempt.frame attempt.anchored ?_ ?_ ?_ (meets.targeted l)
  · rcases hookLine_cases code unhooked callback with ⟨e, -, refused⟩ | ⟨_, -, done⟩
    · rw [refused]
    · rw [done]
  · rcases hookLine_cases code unhooked callback with ⟨e, -, refused⟩ | ⟨unit', ⟨-, place', -⟩, done⟩
    · rw [refused] at granted
      cases granted
    · rw [place] at place'
      cases place'
      rw [done]
      refine ⟨s.host.lastId + 1, ?_, ?_⟩
      · simp [Table.get?_append, unhooked, Table.get?]
      · unfold Host.tracesAt at untraced ⊢
        simp [List.filter_append, untraced]
  · rw [attempt.pendingLines]
    exact meets.waiting l

theorem Meets.hookLine (meets : Meets b s) (code : Option CodeRegistry) (l : SourceLine)
    (callback : Callback) :
    (s.prospect code l).Answers (s.hookLine code l callback).1 ∧
      Meets (b.hook (s.prospect code l) l callback) (s.hookLine code l callback).2 ∧
      (s.hookLine code l callback).2.wiring = s.wiring := by
  unfold Lineup.hook
  rcases prospect_cases code l s with ⟨unit, place, reason⟩ | ⟨e, nowhere, -, reason⟩
  · obtain ⟨released, wiring⟩ := meets.unhookLine l
    have place' : (s.unhookLine l).2.traceUnit code l = .ok unit := by
      rw [← place]
      unfold traceUnit
      rw [show (s.unhookLine l).2.hooks.untargeted = s.hooks.untargeted from
        congrArg Wiring.untargeted wiring]
    have isLoaded : (s.unhookLine l).2.host.isLoaded = s.host.isLoaded := by
      funext u
      unfold Host.isLoaded Host.allUnits
      rw [show (s.unhookLine l).2.host.units = s.host.units from congrArg Wiring.units wiring]
    rw [hookLine_eq_unhooked meets.accepting callback place]
    rcases reason with ⟨traced, loaded⟩ | ⟨astray, u, rfl, missing⟩
    · rw [← isLoaded] at loaded
      obtain ⟨answer, set, wiring'⟩ := released.post (by simp [Lineup.assign]) place' loaded
        callback
      rw [Lineup.assign_assign] at set
      rw [traced]
      refine ⟨answer, ?_, wiring'.trans wiring⟩
      simpa [Lineup.assign, Prospect.posting] using set
    · -- the former hook has been taken back before the host declines
      rw [← isLoaded] at missing
      obtain ⟨detail, declined⟩ := installLine_of_unloaded released.willing missing l callback
      have holds := released.holds l
      simp only [Lineup.assign, Function.update_self] at holds
      have unreleased : (s.unhookLine l).2.releaseLine l = (.ok (), (s.unhookLine l).2) := by
        simp [releaseLine, holds.1]
      have failed : (s.unhookLine l).2.hookLine code l callback =
          (.error (.install detail), (s.unhookLine l).2) := by
        unfold Hooking.hookLine
        rw [place']
        dsimp only
        rw [unreleased]
        exact declined
      rw [failed, astray]
      exact ⟨⟨_, rfl, rfl⟩, released, wiring⟩
  · have failed : s.hookLine code l callback = (.error e, s) := by
      unfold Hooking.hookLine
      rw [nowhere]
    rw [failed]
    rcases reason with ⟨unknown, kind⟩ | ⟨disallowed, kind⟩
    · rw [unknown]
      refine ⟨⟨e, rfl, kind⟩, ?_, rfl⟩
      simpa [Prospect.posting, Lineup.assign_self] using meets
    · rw [disallowed]
      refine ⟨⟨e, rfl, kind⟩, ?_, rfl⟩
      simpa [Prospect.posting, Lineup.assign_self] using meets

end Hooking
end LiveProbe
