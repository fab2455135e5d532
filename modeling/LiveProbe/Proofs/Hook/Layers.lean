import LiveProbe.Proofs.Hook.Waiting

/-!
The layers that hooks lay on bodies. Every layer of a manager has a number above zero, and the slot
of a method holds the number of the hook that is installed on it, or zero: where no hook is
installed, no layer that there ever was is the current one. This holds whatever the host refuses.
-/
namespace LiveProbe

/-- Every layer of a manager has a number above zero, and no other layer acts for its probes. -/
def Body.Regular (n : Nat) : Body → Prop
  | .hooked manager _ installation callback saved =>
    (manager = n → 0 < installation) ∧ (∀ g, callback = .probes n g → manager = n) ∧
      saved.Regular n
  | .wrapped _ _ saved => saved.Regular n
  | _ => True

def Host.Regular (n : Nat) (h : Host) : Prop := ∀ m body, h.body? m = some body → body.Regular n

namespace Host

variable {n : Nat} {h : Host}

theorem Regular.setBody (regular : h.Regular n) {body : Body} (own : body.Regular n)
    (m : MethodName) : (h.setBody m body).Regular n := by
  intro other b found
  by_cases same : other = m
  · rw [same, body?_setBody] at found
    rwa [← Option.some.inj found]
  · rw [body?_setBody_of_ne h same] at found
    exact regular other b found

theorem Regular.define (regular : h.Regular n) (typeName : String) {bodies : List (String × Body)}
    (each : ∀ e ∈ bodies, e.2.Regular n) : (h.define typeName bodies).Regular n := by
  intro m body found
  rw [body?_define] at found
  split at found
  · rcases Option.or_eq_some_iff.mp found with anew | ⟨-, old⟩
    · exact each _ (List.mem_reverse.mp (Table.mem_of_get? anew))
    · exact regular m body old
  · exact regular m body found

theorem Regular.restoreMethod (regular : h.Regular n) {handle : MethodHandle}
    (saved : handle.saved.Regular n) : (h.restoreMethod handle).Regular n := by
  rcases restoreMethod_cases h handle with same | ⟨body, -, -, -, changed⟩
  · rwa [same]
  · rw [changed]
    exact regular.setBody saved handle.method

theorem Regular.removeMethod (regular : h.Regular n) {handle : MethodHandle}
    (saved : handle.saved.Regular n) : (h.removeMethod handle).2.Regular n := by
  unfold Host.removeMethod
  split
  · exact regular
  · exact regular.restoreMethod saved

theorem Plain.regular (plain : h.Plain) (n : Nat) : h.Regular n := by
  intro m body found
  obtain ⟨code, rfl⟩ := plain m body found
  trivial

end Host

namespace Hooking

variable {s s' s'' : Hooking} {m : MethodName} {l : SourceLine} {t : HookTarget}

/-- The layers that the host and the handles of a manager hold, and the slots that they are compared
with. -/
structure Layered (s : Hooking) : Prop where
  seated : ∀ m, s.hooks.slot m =
    ((Table.get? m s.hooks.methods).map (·.installation)).getD 0
  host : s.host.Regular s.hooks.manager
  handles : ∀ e ∈ s.hooks.methods, e.2.handle.saved.Regular s.hooks.manager

theorem Layered.congr (layered : s.Layered) (host : ∀ m, s'.host.body? m = s.host.body? m)
    (manager : s'.hooks.manager = s.hooks.manager) (methods : s'.hooks.methods = s.hooks.methods)
    (slots : s'.hooks.slots = s.hooks.slots) : s'.Layered := by
  constructor
  case seated =>
    unfold Hooks.slot
    rw [slots, methods]
    exact layered.seated
  case host =>
    intro m body found
    rw [manager]
    exact layered.host m body ((host m).symm.trans found)
  case handles =>
    rw [methods, manager]
    exact layered.handles

theorem Layered.slot_of_free (layered : s.Layered)
    (free : s.hooks.isInstalled (.method m) = false) : s.hooks.slot m = 0 := by
  rw [layered.seated, Table.contains_eq_false_iff.mp free]
  rfl

theorem Layered.prepareMethod (layered : s.Layered) (m : MethodName) :
    (s.prepareMethod m).Layered ∧ (s.prepareMethod m).hooks.manager = s.hooks.manager := by
  have sorted : ∀ other, (s.prepareMethod m).hooks.slot other =
      if other = m then 0 else s.hooks.slot other := by
    intro other
    cases hooked : Table.get? m s.hooks.methods with
    | none =>
      rw [(prepareMethod_of_free hooked).2.2]
      split
      · rename_i same
        rw [same]
        exact layered.slot_of_free (Table.contains_eq_false_iff.mpr hooked)
      · rfl
    | some installed => exact (prepareMethod_of_hooked hooked).2.2 other
  have manager : (s.prepareMethod m).hooks.manager = s.hooks.manager := by
    cases hooked : Table.get? m s.hooks.methods with
    | none => rw [(prepareMethod_of_free hooked).2.1]
    | some installed => rw [(prepareMethod_of_hooked hooked).2.1]
  refine ⟨⟨fun other => ?_, ?_, ?_⟩, manager⟩
  · rw [sorted, get?_prepareMethod]
    split
    · rfl
    · exact layered.seated other
  · rw [manager]
    cases hooked : Table.get? m s.hooks.methods with
    | none =>
      rw [(prepareMethod_of_free hooked).1]
      exact layered.host
    | some installed =>
      rw [(prepareMethod_of_hooked hooked).1]
      exact layered.host.removeMethod (layered.handles _ (Table.mem_of_get? hooked))
  · rw [manager]
    cases hooked : Table.get? m s.hooks.methods with
    | none =>
      rw [(prepareMethod_of_free hooked).2.1]
      exact layered.handles
    | some installed =>
      rw [(prepareMethod_of_hooked hooked).2.1]
      exact fun e member => layered.handles e (List.mem_of_mem_filter member)

theorem Layered.hookMethod (layered : s.Layered) (m : MethodName) (callback : Callback) :
    (s.hookMethod m callback).2.Layered := by
  obtain ⟨before, -⟩ := layered.prepareMethod m
  rcases hookMethod_cases s m callback with ⟨e, -, refused⟩ | ⟨saved, -, current, done⟩
  · rw [refused]
    exact before
  · have own := before.host m saved current
    rw [done]
    refine ⟨fun other => ?_, ?_, fun e member => ?_⟩
    · show ((s.prepareMethod m).hooks.setSlot m _).slot other =
        ((Table.get? other (Table.insert m _ (s.prepareMethod m).hooks.methods)).map _).getD 0
      rw [Hooks.slot_setSlot, Table.get?_insert]
      split
      · rfl
      · exact before.seated other
    · exact before.host.setBody (show Body.Regular _ (.hooked _ _ _ _ _) from
        ⟨fun _ => Nat.succ_pos _, fun _ _ => rfl, own⟩) m
    · rcases Table.mem_insert member with same | old
      · rw [same]
        exact own
      · exact before.handles e old

theorem manager_unhookMethod (m : MethodName) (s : Hooking) :
    (s.unhookMethod m).2.hooks.manager = s.hooks.manager := by
  cases hooked : Table.get? m s.hooks.methods with
  | none => simp [unhookMethod, hooked]
  | some installed =>
    rcases unhookMethod_cases hooked with ⟨e, -, refused⟩ | ⟨-, -, rest, -⟩
    · rw [refused]
    · rw [rest]

theorem Layered.unhookMethod (layered : s.Layered) (m : MethodName) :
    (s.unhookMethod m).2.Layered := by
  cases hooked : Table.get? m s.hooks.methods with
  | none =>
    have same : s.unhookMethod m = (.ok (), s) := by simp [Hooking.unhookMethod, hooked]
    rwa [same]
  | some installed =>
    rcases unhookMethod_cases hooked with ⟨e, -, refused⟩ | ⟨-, host, rest, slots⟩
    · rwa [refused]
    · have manager := manager_unhookMethod m s
      have methods : ∀ other, Table.get? other (s.unhookMethod m).2.hooks.methods =
          if other = m then none else Table.get? other s.hooks.methods := by
        rw [rest]
        exact fun other => Table.get?_erase m other s.hooks.methods
      refine ⟨fun other => ?_, ?_, ?_⟩
      · rw [slots, methods]
        by_cases own : other = m
        · simp only [own, true_and, if_true]
          split
          · rfl
          · rename_i stale
            have seated := layered.seated m
            rw [hooked] at seated
            unfold Hooks.slot at seated ⊢
            cases known : Table.get? m s.hooks.slots with
            | none => rfl
            | some i =>
              rw [known] at seated stale
              exact absurd (congrArg some seated) stale
        · simp only [own, false_and, if_false]
          exact layered.seated other
      · rw [host, manager]
        exact layered.host.restoreMethod (layered.handles _ (Table.mem_of_get? hooked))
      · rw [manager, rest]
        exact fun e member => layered.handles e (List.mem_of_mem_filter member)

theorem hookLine_rest (code : Option CodeRegistry) (l : SourceLine) (callback : Callback)
    (s : Hooking) : ∃ traces lastId lines,
      (s.hookLine code l callback).2 = { s with
        host := { s.host with traces, lastId }
        hooks := { s.hooks with lines } } ∧
      ∀ other, other ≠ l → Table.get? other lines = Table.get? other s.hooks.lines := by
  have released : ∃ traces lines, (s.releaseLine l).2 = { s with
        host := { s.host with traces }
        hooks := { s.hooks with lines } } ∧
      ∀ other, other ≠ l → Table.get? other lines = Table.get? other s.hooks.lines := by
    unfold releaseLine
    cases Table.get? l s.hooks.lines with
    | none => exact ⟨s.host.traces, s.hooks.lines, rfl, fun _ _ => rfl⟩
    | some handle =>
      have erased : ∀ other, other ≠ l →
          Table.get? other (Table.erase l s.hooks.lines) = Table.get? other s.hooks.lines :=
        fun other ne => Table.get?_erase_of_ne ne s.hooks.lines
      dsimp only
      unfold Host.removeLine
      split
      · exact ⟨s.host.traces, _, rfl, erased⟩
      · exact ⟨_, _, rfl, erased⟩
  unfold hookLine
  split
  · exact ⟨s.host.traces, s.host.lastId, s.hooks.lines, rfl, fun _ _ => rfl⟩
  · rename_i unit _
    obtain ⟨traces, lines, parts, apart⟩ := released
    rcases answer : s.releaseLine l with ⟨e | _, s'⟩
    all_goals rw [answer] at parts; cases parts
    · exact ⟨traces, s.host.lastId, lines, rfl, apart⟩
    · dsimp only
      unfold installLine
      rcases Host.installLine_cases { s.host with traces } unit l callback with
        ⟨e, -, refused⟩ | ⟨-, done⟩
      · rw [refused]
        exact ⟨traces, s.host.lastId, lines, rfl, apart⟩
      · rw [done]
        exact ⟨_, _, _, rfl, fun other ne =>
          (Table.get?_insert_of_ne ne _ _).trans (apart other ne)⟩

theorem unhookLine_rest (l : SourceLine) (s : Hooking) : ∃ traces lines,
    (s.unhookLine l).2 = { s with
      host := { s.host with traces }
      hooks := { s.hooks with lines } } := by
  cases hooked : Table.get? l s.hooks.lines with
  | none => exact ⟨s.host.traces, s.hooks.lines, by simp [unhookLine, hooked]⟩
  | some handle =>
    rcases unhookLine_cases hooked with ⟨e, -, refused⟩ | done
    · exact ⟨s.host.traces, s.hooks.lines, by rw [refused]⟩
    · exact ⟨_, _, by rw [done]; rfl⟩

theorem hookMethod_rest (s : Hooking) (m : MethodName) (callback : Callback) :
    ∃ methods slots lastInstallation,
      (s.hookMethod m callback).2.hooks =
        { s.hooks with methods, slots, lastInstallation } ∧
      ∀ other, other ≠ m → Table.get? other methods = Table.get? other s.hooks.methods := by
  have prepared : ∃ methods slots lastInstallation,
      (s.prepareMethod m).hooks = { s.hooks with methods, slots, lastInstallation } := by
    cases hooked : Table.get? m s.hooks.methods with
    | none => exact ⟨_, _, _, (prepareMethod_of_free hooked).2.1⟩
    | some installed => exact ⟨_, _, _, (prepareMethod_of_hooked hooked).2.1⟩
  obtain ⟨methods, slots, lastInstallation, parts⟩ := prepared
  have apart : ∀ other, other ≠ m →
      Table.get? other methods = Table.get? other s.hooks.methods := by
    intro other ne
    have kept := get?_prepareMethod s m other
    rwa [if_neg ne, parts] at kept
  rcases hookMethod_cases s m callback with ⟨e, -, refused⟩ | ⟨saved, -, -, done⟩
  · rw [refused]
    exact ⟨methods, slots, lastInstallation, parts, apart⟩
  · rw [done]
    simp only [parts, Hooks.setSlot]
    exact ⟨_, _, _, rfl, fun other ne =>
      (Table.get?_insert_of_ne ne _ _).trans (apart other ne)⟩

/-! What becomes of the layers. -/

/-- The manager is who it was, and its layers are in order if they were. -/
structure Relayered (s s' : Hooking) : Prop where
  manager : s'.hooks.manager = s.hooks.manager
  layered : s.Layered → s'.Layered

theorem Relayered.refl (s : Hooking) : Relayered s s := ⟨rfl, id⟩

theorem Relayered.trans (first : Relayered s s') (second : Relayered s' s'') : Relayered s s'' :=
  ⟨second.manager.trans first.manager, fun layered => second.layered (first.layered layered)⟩

theorem relayered_of_same (host : ∀ m, s'.host.body? m = s.host.body? m)
    (manager : s'.hooks.manager = s.hooks.manager) (methods : s'.hooks.methods = s.hooks.methods)
    (slots : s'.hooks.slots = s.hooks.slots) : Relayered s s' :=
  ⟨manager, fun layered => layered.congr host manager methods slots⟩

theorem forget_relayered (t : HookTarget) (s : Hooking) : Relayered s (s.forget t) := by
  cases t <;> exact relayered_of_same (fun _ => rfl) rfl rfl rfl

theorem addPending_relayered (t : HookTarget) (callback : Callback) (s : Hooking) :
    Relayered s (s.addPending t callback) := by
  cases t <;> exact relayered_of_same (fun _ => rfl) rfl rfl rfl

theorem hook_relayered (code : Option CodeRegistry) (t : HookTarget) (callback : Callback)
    (s : Hooking) : Relayered s (s.hook code t callback).2 := by
  cases t with
  | method m =>
    obtain ⟨methods, slots, lastInstallation, parts, -⟩ := hookMethod_rest s m callback
    exact ⟨congrArg (·.manager) parts, fun layered => layered.hookMethod m callback⟩
  | line l =>
    obtain ⟨traces, lastId, lines, parts, -⟩ := hookLine_rest code l callback s
    show Relayered s (s.hookLine code l callback).2
    rw [parts]
    exact relayered_of_same (fun _ => rfl) rfl rfl rfl

theorem unhook_relayered (t : HookTarget) (s : Hooking) : Relayered s (s.unhook t).2 := by
  cases t with
  | method m => exact ⟨manager_unhookMethod m s, fun layered => layered.unhookMethod m⟩
  | line l =>
    obtain ⟨traces, lines, parts⟩ := unhookLine_rest l s
    show Relayered s (s.unhookLine l).2
    rw [parts]
    exact relayered_of_same (fun _ => rfl) rfl rfl rfl

theorem hookWhenDefined_relayered (code : Option CodeRegistry) (t : HookTarget)
    (callback : Callback) (s : Hooking) :
    Relayered s (s.hookWhenDefined code t callback).2 := by
  have hooked := hook_relayered code t callback s
  unfold hookWhenDefined
  split <;> rename_i answer <;> rw [answer] at hooked
  · exact hooked
  · exact hooked.trans (addPending_relayered t callback _)
  · exact hooked

theorem hooks_clearHooks (s : Hooking) : s.clearHooks.hooks = { s.hooks with
    slots := s.hooks.slots.map fun e => (e.1, 0), methods := [], lines := [] } := by
  unfold clearHooks
  refine List.foldlRecOn (motive := fun k : Hooking => k.hooks = _) _ _ (List.foldlRecOn
    (motive := fun k : Hooking => k.hooks = _) _ _ rfl fun k same e _ => ?_) fun k same e _ => ?_
  · unfold dropMethod
    split <;> exact same
  · unfold dropLine
    split <;> exact same

theorem clearHooks_relayered (s : Hooking) : Relayered s s.clearHooks := by
  have hooks := hooks_clearHooks s
  refine ⟨congrArg (·.manager) hooks, fun layered => ?_⟩
  constructor
  case seated =>
    intro m
    unfold Hooks.slot
    rw [hooks]
    show (Table.get? m (s.hooks.slots.map fun e => (e.1, 0))).getD 0 = 0
    rw [Table.get?_map_values (fun _ => 0)]
    cases Table.get? m s.hooks.slots <;> rfl
  case host =>
    rw [hooks]
    refine List.foldlRecOn (motive := fun k : Hooking => k.host.Regular s.hooks.manager) _ _
      (List.foldlRecOn (motive := fun k : Hooking => k.host.Regular s.hooks.manager) _ _
        layered.host fun k regular e member => ?_) fun k regular e _ => ?_
    · have removed := regular.removeMethod (layered.handles e member)
      unfold dropMethod
      split <;> rename_i answer <;> rw [answer] at removed <;> exact removed
    · have removed : (k.host.removeLine e.2).2.Regular s.hooks.manager := by
        unfold Host.removeLine
        split <;> exact regular
      unfold dropLine
      split <;> rename_i answer <;> rw [answer] at removed <;> exact removed
  case handles =>
    rw [hooks]
    exact fun e member => absurd member List.not_mem_nil

/-! What becomes of the hooks. -/

structure Touched (targets : HookTarget → Prop) (s s' : Hooking) : Prop extends
    Relayered s s' where
  closed : s'.hooks.closed = s.hooks.closed
  waits : ∀ t, s'.hooks.isPending t = true → s.hooks.isPending t = true
  installed : ∀ t, s'.hooks.isInstalled t = true → s.hooks.isInstalled t = true ∨ targets t

theorem Touched.refl (targets : HookTarget → Prop) (s : Hooking) : Touched targets s s :=
  ⟨.refl s, rfl, fun _ => id, fun _ => Or.inl⟩

theorem Touched.trans {targets : HookTarget → Prop} (first : Touched targets s s')
    (second : Touched targets s' s'') : Touched targets s s'' where
  toRelayered := first.toRelayered.trans second.toRelayered
  closed := second.closed.trans first.closed
  waits t h := first.waits t (second.waits t h)
  installed t h := (second.installed t h).elim (first.installed t) Or.inr

theorem Touched.mono {targets wider : HookTarget → Prop} (touched : Touched targets s s')
    (wide : ∀ t, targets t → wider t) : Touched wider s s' :=
  { touched with installed := fun t h => (touched.installed t h).imp_right (wide t) }

theorem hook_touched (code : Option CodeRegistry) (t : HookTarget) (callback : Callback)
    (s : Hooking) : Touched (· = t) s (s.hook code t callback).2 := by
  have relayered := hook_relayered code t callback s
  cases t with
  | line l =>
    obtain ⟨traces, lastId, lines, parts, apart⟩ := hookLine_rest code l callback s
    have after : (s.hook code (.line l) callback).2.hooks = _ := congrArg (·.hooks) parts
    refine ⟨relayered, congrArg (·.closed) after, fun t waits => ?_, fun t installed => ?_⟩
    · rw [after] at waits
      cases t <;> exact waits
    · rw [after] at installed
      cases t with
      | method m => exact Or.inl installed
      | line other =>
        refine or_iff_not_imp_right.mpr fun ne => ?_
        rwa [Hooks.isInstalled, Table.contains, ← apart other fun own => ne (own ▸ rfl)]
  | method m =>
    obtain ⟨methods, slots, lastInstallation, parts, apart⟩ := hookMethod_rest s m callback
    have after : (s.hook code (.method m) callback).2.hooks = _ := parts
    refine ⟨relayered, congrArg (·.closed) after, fun t waits => ?_, fun t installed => ?_⟩
    · rw [after] at waits
      cases t <;> exact waits
    · rw [after] at installed
      cases t with
      | line l => exact Or.inl installed
      | method other =>
        refine or_iff_not_imp_right.mpr fun ne => ?_
        rwa [Hooks.isInstalled, Table.contains, ← apart other fun own => ne (own ▸ rfl)]

theorem forget_touched (targets : HookTarget → Prop) (t : HookTarget) (s : Hooking) :
    Touched targets s (s.forget t) where
  toRelayered := forget_relayered t s
  closed := by cases t <;> rfl
  waits other waits := by
    by_cases own : other = t
    · rw [own, (forget_state t s).1] at waits
      cases waits
    · rwa [((forget_frame t s).apart other own).isPending] at waits
  installed other installed := by
    left
    by_cases own : other = t
    · rwa [own, (forget_state t s).2, ← own] at installed
    · rwa [((forget_frame t s).apart other own).isInstalled] at installed

theorem retry_touched (code : Option CodeRegistry) (t : HookTarget) (callback : Callback)
    (s : Hooking) : Touched (· = t) s (s.retry code t callback).2 := by
  have touched := hook_touched code t callback s
  unfold retry
  split <;> rename_i answer <;> rw [answer] at touched
  · exact touched.trans (forget_touched _ t _)
  · exact touched
  · exact ⟨touched.toRelayered.trans (relayered_of_same (fun _ => rfl) rfl rfl rfl),
      touched.closed, touched.waits, touched.installed⟩

theorem retryAll_touched (code : Option CodeRegistry) (waiting : List (HookTarget × Callback))
    (s : Hooking) : Touched (· ∈ waiting.map (·.1)) s (s.retryAll code waiting).2 := by
  rw [retryAll_eq_foldl]
  generalize ([] : List HookTarget) = done
  induction waiting generalizing done s with
  | nil => exact Touched.refl _ s
  | cons e rest ih =>
    have first : Touched (· = e.1) s (collect code (done, s) e).2 :=
      retry_touched code e.1 e.2 s
    refine (first.mono fun t same => ?_).trans ((ih _ _).mono fun t member => ?_)
    · exact same ▸ List.mem_cons_self
    · exact List.mem_cons_of_mem e.1 member

end Hooking
end LiveProbe
