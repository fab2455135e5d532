import LiveProbe.Proofs.Hook.Waiting

/-!
Hooking anew. A target may be asked for that is hooked already. If its former hook can be removed
and a hook on it would be granted, the new hook takes the place of the former one, and nothing
else changes.
-/
namespace LiveProbe.Hooking

variable {s : Hooking} {code : Option CodeRegistry} {target : HookTarget}

def Accepting (h : Host) : Prop :=
  ∀ t, h.refuses .removeMethod t = none ∧ h.refuses .removeLine t = none

theorem hookMethod_of_granted (anchored : s.Anchored) {m : MethodName}
    (granted : s.Grants code (.method m)) (callback : Callback) :
    Attempt code (.method m) s (s.hookMethod m callback) := by
  have frame := prepareMethod_frame anchored m
  have prepared := prepareMethod_anchored anchored m
  have pending : (s.prepareMethod m).hooks.pendingMethods = s.hooks.pendingMethods ∧
      (s.prepareMethod m).hooks.pendingLines = s.hooks.pendingLines := by
    cases hooked : Table.get? m s.hooks.methods with
    | none => exact (prepareMethod_of_free hooked).2.1 ▸ ⟨rfl, rfl⟩
    | some installed => exact (prepareMethod_of_hooked hooked).2.1 ▸ ⟨rfl, rfl⟩
  obtain ⟨willing, defined⟩ := frame.grants_iff.mpr granted
  rcases hookMethod_cases s m callback with ⟨e, reason, refused⟩ | ⟨saved, -, current, done⟩
  · exfalso
    rcases reason with refuses | ⟨missing, -⟩
    · rw [willing] at refuses
      cases refuses
    · rw [missing] at defined
      cases defined
  · rw [done]
    constructor
    case frame =>
      refine frame.trans (Frame.of_method (.setBody defined _) rfl rfl rfl ?_ (fun _ _ => rfl) ?_)
      · intro other ne
        exact Table.get?_insert_of_ne ne _ _
      · intro other ne
        have slot := Hooks.slot_setSlot (s.prepareMethod m).hooks m other
          ((s.releaseMethod m).hooks.lastInstallation + 1)
        rw [if_neg ne] at slot
        exact slot
    case anchored =>
      refine prepared.of_methods rfl rfl rfl rfl rfl ?_
      intro other i found
      dsimp only at found
      rw [Table.get?_insert] at found
      split at found
      · rename_i own
        cases found
        exact own.symm
      · exact prepared.home other i found
    case pendingMethods => exact pending.1
    case pendingLines => exact pending.2
    case granted => exact iff_of_true rfl granted
    case installed =>
      intro _
      simp [Hooks.isInstalled, Table.contains_insert]
    case refused =>
      intro e h
      cases h

theorem hookLine_eq_unhooked (accepting : Accepting s.host) {l : SourceLine} (callback : Callback)
    {unit : Option CompiledUnit} (place : s.traceUnit code l = .ok unit) :
    s.hookLine code l callback = (s.unhookLine l).2.hookLine code l callback := by
  cases hooked : Table.get? l s.hooks.lines with
  | none =>
    have idle : s.unhookLine l = (.ok (), s) := by simp [unhookLine, hooked]
    rw [idle]
  | some handle =>
    rcases unhookLine_cases hooked with ⟨e, refuses, -⟩ | done
    · rw [(accepting _).2] at refuses
      cases refuses
    · have released : s.releaseLine l = s.unhookLine l := by
        unfold releaseLine unhookLine Host.removeLine
        simp only [hooked, (accepting _).2]
      have free : Table.get? l (s.unhookLine l).2.hooks.lines = none := by
        rw [done]
        exact Table.get?_erase_self l s.hooks.lines
      have unreleased : (s.unhookLine l).2.releaseLine l = (.ok (), (s.unhookLine l).2) := by
        simp [releaseLine, free]
      have place' : (s.unhookLine l).2.traceUnit code l = .ok unit := by
        rw [done]
        exact place
      unfold hookLine
      rw [place, place']
      dsimp only
      rw [released, unreleased, done]

theorem hookLine_of_hooked (anchored : s.Anchored) (accepting : Accepting s.host) {l : SourceLine}
    {handle : LineHandle} (hooked : Table.get? l s.hooks.lines = some handle) (callback : Callback)
    (granted : s.Grants code (.line l)) :
    Attempt code (.line l) s (s.hookLine code l callback) := by
  have removal := unhookLine_removal anchored l
  have free : Table.get? l (s.unhookLine l).2.hooks.lines = none := by
    rcases unhookLine_cases hooked with ⟨e, refuses, -⟩ | done
    · rw [(accepting _).2] at refuses
      cases refuses
    · rw [done]
      exact Table.get?_erase_self l s.hooks.lines
  have attempt := hookLine_attempt removal.anchored code free callback
  have ⟨_, unit, place, _⟩ := granted
  rw [hookLine_eq_unhooked accepting callback place]
  have done := attempt.granted.mpr (removal.frame.grants_iff.mpr granted)
  exact {
    frame := removal.frame.trans attempt.frame
    anchored := attempt.anchored
    pendingMethods := attempt.pendingMethods.trans removal.pendingMethods
    pendingLines := attempt.pendingLines.trans removal.pendingLines
    granted := iff_of_true done granted
    installed := attempt.installed
    refused := fun e h => by rw [done] at h; cases h }

theorem hook_of_granted (anchored : s.Anchored) (accepting : Accepting s.host)
    (granted : s.Grants code target) (callback : Callback) :
    Attempt code target s (s.hook code target callback) := by
  cases target with
  | method m => exact hookMethod_of_granted anchored granted callback
  | line l =>
    cases hooked : Table.get? l s.hooks.lines with
    | none => exact hookLine_attempt anchored code hooked callback
    | some handle => exact hookLine_of_hooked anchored accepting hooked callback granted

theorem hookWhenDefined_of_granted (anchored : s.Anchored) (accepting : Accepting s.host)
    (granted : s.Grants code target) (idle : s.hooks.isPending target = false)
    (callback : Callback) : Request code target s (s.hookWhenDefined code target callback) := by
  have attempt := hook_of_granted anchored accepting granted callback
  have done := attempt.granted.mpr granted
  unfold hookWhenDefined
  rcases attempted : s.hook code target callback with ⟨result, t⟩
  rw [attempted] at attempt done
  cases done
  exact ⟨attempt.frame, attempt.anchored, iff_of_true rfl granted,
    fun _ => ⟨attempt.installed rfl, (attempt.isPending target).trans idle⟩,
    fun h => by simp at h, fun e h => by simp at h⟩

theorem unhook_of_accepting (accepting : Accepting s.host) (target : HookTarget) :
    (s.unhook target).1 = .ok () := by
  cases target with
  | method m =>
    show (s.unhookMethod m).1 = .ok ()
    cases hooked : Table.get? m s.hooks.methods with
    | none => simp [unhookMethod, hooked]
    | some installed =>
      rcases unhookMethod_cases hooked with ⟨e, refuses, -⟩ | ⟨done, -⟩
      · rw [(accepting _).1] at refuses
        cases refuses
      · exact done
  | line l =>
    show (s.unhookLine l).1 = .ok ()
    cases hooked : Table.get? l s.hooks.lines with
    | none => simp [unhookLine, hooked]
    | some handle =>
      rcases unhookLine_cases hooked with ⟨e, refuses, -⟩ | done
      · rw [(accepting _).2] at refuses
        cases refuses
      · rw [done]

end LiveProbe.Hooking
