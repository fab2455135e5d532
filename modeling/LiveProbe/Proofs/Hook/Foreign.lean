import LiveProbe.Proofs.Hook.Layers

/-!
Traces that are not the manager's. Others trace lines of the host as well, and a trace whose removal
was refused may have been forgotten. A manager neither reads nor touches such traces: whatever it
does, it does in the same way where they are left out.
-/
namespace LiveProbe

namespace Host

def without (foreign : List Nat) (h : Host) : Host :=
  { h with traces := h.traces.filter (·.id ∉ foreign) }

variable (foreign : List Nat) (h : Host)

theorem restoreMethod_without (handle : MethodHandle) :
    (h.without foreign).restoreMethod handle = (h.restoreMethod handle).without foreign := by
  unfold restoreMethod
  rw [show (h.without foreign).body? handle.method = h.body? handle.method from rfl]
  cases h.body? handle.method with
  | none => rfl
  | some body =>
    dsimp only
    split <;> rfl

theorem removeMethod_without (handle : MethodHandle) :
    (h.without foreign).removeMethod handle =
      ((h.removeMethod handle).1, (h.removeMethod handle).2.without foreign) := by
  unfold removeMethod
  rw [restoreMethod_without, show (h.without foreign).refuses = h.refuses from rfl]
  split <;> rfl

theorem installMethod_without (m : MethodName) (wrap : Body → Body) :
    (h.without foreign).installMethod m wrap =
      ((h.installMethod m wrap).1, (h.installMethod m wrap).2.without foreign) := by
  unfold installMethod interceptMethod
  rw [show (h.without foreign).refuses = h.refuses from rfl,
    show (h.without foreign).types = h.types from rfl]
  split
  · rfl
  · split
    · rfl
    · split <;> rfl

theorem removeLine_without (handle : LineHandle) :
    (h.without foreign).removeLine handle =
      ((h.removeLine handle).1, (h.removeLine handle).2.without foreign) := by
  unfold removeLine
  rw [show (h.without foreign).refuses = h.refuses from rfl]
  split
  · rfl
  · simp only [removeTrace, without, List.filter_filter, Bool.and_comm]

theorem installLine_without {foreign : List Nat} {h : Host}
    (numbered : ∀ i ∈ foreign, i ≤ h.lastId) (unit : Option CompiledUnit) (l : SourceLine)
    (callback : Callback) :
    (h.without foreign).installLine unit l callback =
      ((h.installLine unit l callback).1, (h.installLine unit l callback).2.without foreign) := by
  have fresh : h.lastId + 1 ∉ foreign := fun listed => by
    have := numbered _ listed
    omega
  unfold installLine interceptLine
  rw [show (h.without foreign).refuses = h.refuses from rfl,
    show (h.without foreign).isLoaded = h.isLoaded from rfl]
  split
  · rfl
  · split
    · rfl
    · simp [without, freshId, List.filter_append, fresh]

end Host

namespace Hooking

def without (foreign : List Nat) (s : Hooking) : Hooking := { s with host := s.host.without foreign }

/-- The foreign traces have numbers that the host has given out, but none of a hooked line; and
every hooked line has a handle that tells it. -/
structure Apart (foreign : List Nat) (s : Hooking) : Prop where
  numbered : ∀ i ∈ foreign, i ≤ s.host.lastId
  own : ∀ l handle, Table.get? l s.hooks.lines = some handle →
    handle.id ∉ foreign ∧ l = ⟨handle.file, handle.line⟩

structure Blind {α : Type} (foreign : List Nat) (f : Hooking → α × Hooking) (s : Hooking) :
    Prop where
  same : f (s.without foreign) = ((f s).1, (f s).2.without foreign)
  apart : Apart foreign (f s).2

variable {foreign : List Nat} {s : Hooking}

theorem Apart.of_parts {s' : Hooking} (apart : s.Apart foreign)
    (lastId : s'.host.lastId = s.host.lastId) (lines : s'.hooks.lines = s.hooks.lines) :
    s'.Apart foreign := by
  refine ⟨?_, ?_⟩
  · rw [lastId]
    exact apart.numbered
  · rw [lines]
    exact apart.own

/-! Methods. -/

theorem releaseMethod_without (m : MethodName) :
    (s.without foreign).releaseMethod m = (s.releaseMethod m).without foreign := by
  unfold releaseMethod
  rw [show (s.without foreign).hooks = s.hooks from rfl]
  split
  · rfl
  · rename_i previous _
    have removed := Host.removeMethod_without foreign s.host previous.handle
    dsimp only
    rw [show (s.without foreign).host = s.host.without foreign from rfl, removed]
    rcases s.host.removeMethod previous.handle with ⟨e | _, host⟩ <;> rfl

theorem hookMethod_without (m : MethodName) (callback : Callback) :
    (s.without foreign).hookMethod m callback =
      ((s.hookMethod m callback).1, (s.hookMethod m callback).2.without foreign) := by
  unfold hookMethod
  rw [releaseMethod_without]
  rcases numbered : (s.releaseMethod m).numberInstallation m with ⟨id, t⟩
  have numbered' : ((s.releaseMethod m).without foreign).numberInstallation m =
      (id, t.without foreign) := by
    cases numbered
    rfl
  rw [numbered']
  dsimp only
  have installed := Host.installMethod_without foreign t.host m
    (.hooked t.hooks.manager m id callback)
  rw [show (t.without foreign).host = t.host.without foreign from rfl,
    show (t.without foreign).hooks = t.hooks from rfl, installed]
  rcases t.host.installMethod m (.hooked t.hooks.manager m id callback) with ⟨e | handle, host⟩ <;>
    rfl

theorem unhookMethod_without (m : MethodName) :
    (s.without foreign).unhookMethod m =
      ((s.unhookMethod m).1, (s.unhookMethod m).2.without foreign) := by
  unfold unhookMethod
  rw [show (s.without foreign).hooks = s.hooks from rfl]
  split
  · rfl
  · rename_i installed _
    have removed := Host.removeMethod_without foreign s.host installed.handle
    rw [show (s.without foreign).host = s.host.without foreign from rfl, removed]
    rcases s.host.removeMethod installed.handle with ⟨e | _, host⟩ <;> rfl

/-! Lines. -/

theorem Apart.forgetLine (apart : s.Apart foreign) (l : SourceLine) {host : Host}
    (lastId : host.lastId = s.host.lastId) : Apart foreign { s with
      host, hooks := { s.hooks with lines := Table.erase l s.hooks.lines } } where
  numbered := lastId ▸ apart.numbered
  own other handle found := by
    dsimp only at found
    rw [Table.get?_erase] at found
    split at found
    · cases found
    · exact apart.own other handle found

theorem releaseLine_of_hooked {l : SourceLine} {previous : LineHandle}
    (hooked : Table.get? l s.hooks.lines = some previous) :
    s.releaseLine l = ((s.host.removeLine previous).1, { s with
      host := (s.host.removeLine previous).2
      hooks := { s.hooks with lines := Table.erase l s.hooks.lines } }) := by
  simp [releaseLine, hooked]

theorem Apart.releaseLine (apart : s.Apart foreign) (l : SourceLine) :
    Blind foreign (Hooking.releaseLine l) s := by
  cases hooked : Table.get? l s.hooks.lines with
  | none =>
    have idle : ∀ t : Hooking, t.hooks = s.hooks → t.releaseLine l = (.ok (), t) := by
      intro t same
      simp [Hooking.releaseLine, same, hooked]
    refine ⟨?_, ?_⟩
    · rw [idle s rfl, idle (s.without foreign) rfl]
    · rw [idle s rfl]
      exact apart
  | some previous =>
    have hooked' : Table.get? l (s.without foreign).hooks.lines = some previous := hooked
    refine ⟨?_, ?_⟩
    · rw [releaseLine_of_hooked hooked, releaseLine_of_hooked hooked']
      have removed := Host.removeLine_without foreign s.host previous
      rw [show (s.without foreign).host = s.host.without foreign from rfl, removed]
      rfl
    · rw [releaseLine_of_hooked hooked]
      apply apart.forgetLine l
      unfold Host.removeLine
      split <;> rfl

theorem Apart.unhookLine (apart : s.Apart foreign) (l : SourceLine) :
    Blind foreign (Hooking.unhookLine l) s := by
  refine ⟨?_, ?_⟩
  · unfold Hooking.unhookLine
    rw [show (s.without foreign).hooks = s.hooks from rfl]
    split
    · rfl
    · rename_i handle _
      have removed := Host.removeLine_without foreign s.host handle
      rw [show (s.without foreign).host = s.host.without foreign from rfl, removed]
      rcases s.host.removeLine handle with ⟨e | _, host⟩ <;> rfl
  · cases hooked : Table.get? l s.hooks.lines with
    | none =>
      have idle : s.unhookLine l = (.ok (), s) := by simp [Hooking.unhookLine, hooked]
      rw [idle]
      exact apart
    | some handle =>
      rcases unhookLine_cases hooked with ⟨e, -, refused⟩ | done
      · rw [refused]
        exact apart
      · rw [done]
        exact apart.forgetLine l rfl

theorem Apart.installLine (apart : s.Apart foreign) (unit : Option CompiledUnit) (l : SourceLine)
    (callback : Callback) : Blind foreign (Hooking.installLine unit l callback) s := by
  refine ⟨?_, ?_⟩
  · unfold Hooking.installLine
    rw [show (s.without foreign).host = s.host.without foreign from rfl,
      Host.installLine_without apart.numbered]
    rcases s.host.installLine unit l callback with ⟨e | handle, host⟩ <;> rfl
  · unfold Hooking.installLine
    rcases Host.installLine_cases s.host unit l callback with ⟨e, -, refused⟩ | ⟨-, done⟩
    · rw [refused]
      exact apart
    · rw [done]
      refine ⟨fun i listed => Nat.le_succ_of_le (apart.numbered i listed), ?_⟩
      intro other handle found
      dsimp only at found
      rw [Table.get?_insert] at found
      split at found
      · rename_i same
        cases found
        refine ⟨fun listed => ?_, same⟩
        have := apart.numbered _ listed
        dsimp only at this
        omega
      · exact apart.own other handle found

theorem Apart.hookLine (apart : s.Apart foreign) (code : Option CodeRegistry) (l : SourceLine)
    (callback : Callback) :
    Blind foreign (Hooking.hookLine code l callback) s := by
  obtain ⟨released, after⟩ := apart.releaseLine l
  have place : (s.without foreign).traceUnit code l = s.traceUnit code l := rfl
  refine ⟨?_, ?_⟩ <;> unfold Hooking.hookLine
  · rw [place]
    cases s.traceUnit code l with
    | error e => rfl
    | ok unit =>
      dsimp only
      rw [released]
      rcases answer : s.releaseLine l with ⟨e | _, t⟩
      · rfl
      · rw [answer] at after
        exact (after.installLine unit l callback).same
  · cases s.traceUnit code l with
    | error e => exact apart
    | ok unit =>
      dsimp only
      rcases answer : s.releaseLine l with ⟨e | _, t⟩ <;> rw [answer] at after
      · exact after
      · exact (after.installLine unit l callback).apart

/-! Targets of both kinds. -/

theorem host_hookMethod (m : MethodName) (callback : Callback) (s : Hooking) :
    ∃ types, (s.hookMethod m callback).2.host = { s.host with types } := by
  have prepared : ∃ types, (s.prepareMethod m).host = { s.host with types } := by
    cases hooked : Table.get? m s.hooks.methods with
    | none => exact ⟨s.host.types, (prepareMethod_of_free hooked).1⟩
    | some installed =>
      rw [(prepareMethod_of_hooked hooked).1]
      exact ⟨_, (Host.BodyFrame.removeMethod s.host installed.handle).rest⟩
  obtain ⟨types, host⟩ := prepared
  rcases hookMethod_cases s m callback with ⟨e, -, refused⟩ | ⟨saved, -, -, done⟩
  · rw [refused]
    exact ⟨types, host⟩
  · rw [done, host]
    exact ⟨_, rfl⟩

theorem Apart.hook (apart : s.Apart foreign) (code : Option CodeRegistry) (target : HookTarget)
    (callback : Callback) :
    Blind foreign (Hooking.hook code target callback) s := by
  cases target with
  | method m =>
    refine ⟨hookMethod_without m callback, ?_⟩
    obtain ⟨types, host⟩ := host_hookMethod m callback s
    obtain ⟨methods, slots, lastInstallation, hooks, -⟩ := hookMethod_rest s m callback
    show Apart foreign (s.hookMethod m callback).2
    exact apart.of_parts (by rw [host]) (by rw [hooks])
  | line l => exact apart.hookLine code l callback

theorem Apart.unhook (apart : s.Apart foreign) (target : HookTarget) :
    Blind foreign (Hooking.unhook target) s := by
  cases target with
  | method m =>
    refine ⟨unhookMethod_without m, ?_⟩
    show Apart foreign (s.unhookMethod m).2
    cases hooked : Table.get? m s.hooks.methods with
    | none =>
      have idle : s.unhookMethod m = (.ok (), s) := by simp [unhookMethod, hooked]
      rwa [idle]
    | some installed =>
      rcases unhookMethod_cases hooked with ⟨e, -, refused⟩ | ⟨-, host, hooks, -⟩
      · rwa [refused]
      · have bodies := Host.BodyFrame.restoreMethod s.host installed.handle
        rw [← host] at bodies
        exact apart.of_parts (by rw [bodies.rest]) (by rw [hooks])
  | line l => exact apart.unhookLine l

theorem Apart.addPending (apart : s.Apart foreign) (target : HookTarget) (callback : Callback) :
    Apart foreign (s.addPending target callback) := by
  cases target <;> exact apart.of_parts rfl rfl

theorem Apart.forget (apart : s.Apart foreign) (target : HookTarget) :
    Apart foreign (s.forget target) := by
  cases target <;> exact apart.of_parts rfl rfl

theorem Apart.hookWhenDefined (apart : s.Apart foreign) (code : Option CodeRegistry)
    (target : HookTarget) (callback : Callback) :
    Blind foreign (Hooking.hookWhenDefined code target callback) s := by
  obtain ⟨same, after⟩ := apart.hook code target callback
  refine ⟨?_, ?_⟩ <;> unfold Hooking.hookWhenDefined
  · rw [same]
    rcases s.hook code target callback with ⟨e | _, t⟩
    · cases e <;> rfl
    · rfl
  · rcases answer : s.hook code target callback with ⟨e | _, t⟩ <;> rw [answer] at after
    · cases e <;> first | exact after | exact after.addPending target callback
    · exact after

theorem Apart.retry (apart : s.Apart foreign) (code : Option CodeRegistry) (target : HookTarget)
    (callback : Callback) :
    Blind foreign (Hooking.retry code target callback) s := by
  obtain ⟨same, after⟩ := apart.hook code target callback
  refine ⟨?_, ?_⟩ <;> unfold Hooking.retry
  · rw [same]
    rcases s.hook code target callback with ⟨e | _, t⟩
    · cases e <;> rfl
    · rfl
  · rcases answer : s.hook code target callback with ⟨e | _, t⟩ <;> rw [answer] at after
    · cases e <;> exact after.of_parts rfl rfl
    · exact after.forget target

theorem Apart.retryAll (code : Option CodeRegistry) (waiting : List (HookTarget × Callback)) :
    ∀ {s : Hooking}, s.Apart foreign → Blind foreign (Hooking.retryAll code waiting) s := by
  induction waiting with
  | nil =>
    intro s apart
    exact ⟨rfl, apart⟩
  | cons e rest ih =>
    intro s apart
    obtain ⟨same, after⟩ := apart.retry code e.1 e.2
    obtain ⟨later, apart'⟩ := ih after
    refine ⟨?_, ?_⟩
    · rw [retryAll_cons, retryAll_cons, same, later]
    · rw [retryAll_cons]
      exact apart'

theorem Apart.unlessClosed (apart : s.Apart foreign) (code : Option CodeRegistry)
    (waiting : List (HookTarget × Callback)) :
    Blind foreign (fun s => if s.hooks.closed then ([], s) else s.retryAll code waiting) s := by
  have retried := retryAll code waiting apart
  refine ⟨?_, ?_⟩
  · rw [show (s.without foreign).hooks = s.hooks from rfl, retried.same]
    split <;> rfl
  · split
    · exact apart
    · exact retried.apart

theorem Apart.installPendingMethods (apart : s.Apart foreign) (code : Option CodeRegistry)
    (typeName : String) : Blind foreign (Hooking.installPendingMethods code typeName) s :=
  have tried := apart.unlessClosed code (waitingMethods typeName s.hooks)
  ⟨tried.same, tried.apart⟩

theorem Apart.installPendingLines (apart : s.Apart foreign) (code : Option CodeRegistry)
    (path : String) : Blind foreign (Hooking.installPendingLines code path) s :=
  have tried := apart.unlessClosed code (waitingLines path s.hooks)
  ⟨tried.same, tried.apart⟩

/-! What is removed. -/

def Spares (foreign : List Nat) (h h' : Host) : Prop :=
  ∃ stays : LineTrace → Bool, h'.traces = h.traces.filter stays ∧
    ∀ t ∈ h.traces, t.id ∈ foreign → stays t = true

theorem Spares.of_traces {h h' : Host} (traces : h'.traces = h.traces) : Spares foreign h h' :=
  ⟨fun _ => true, by rw [traces, List.filter_true], fun _ _ _ => rfl⟩

theorem Spares.trans {h h' h'' : Host} (first : Spares foreign h h')
    (second : Spares foreign h' h'') : Spares foreign h h'' := by
  obtain ⟨stays, traces, spared⟩ := first
  obtain ⟨stays', traces', spared'⟩ := second
  refine ⟨fun t => stays' t && stays t, by rw [traces', traces, List.filter_filter], ?_⟩
  intro t member listed
  have early := spared t member listed
  have late := spared' t (traces ▸ List.mem_filter.mpr ⟨member, early⟩) listed
  dsimp only
  rw [early, late, Bool.and_self]

theorem Apart.unhook_spares (apart : s.Apart foreign) (target : HookTarget) :
    Spares foreign s.host (s.unhook target).2.host := by
  cases target with
  | method m =>
    show Spares foreign s.host (s.unhookMethod m).2.host
    cases hooked : Table.get? m s.hooks.methods with
    | none =>
      have idle : s.unhookMethod m = (.ok (), s) := by simp [unhookMethod, hooked]
      rw [idle]
      exact Spares.of_traces rfl
    | some installed =>
      rcases unhookMethod_cases hooked with ⟨e, -, refused⟩ | ⟨-, host, -⟩
      · rw [refused]
        exact Spares.of_traces rfl
      · have bodies := Host.BodyFrame.restoreMethod s.host installed.handle
        rw [host]
        exact Spares.of_traces (by rw [bodies.rest])
  | line l =>
    show Spares foreign s.host (s.unhookLine l).2.host
    cases hooked : Table.get? l s.hooks.lines with
    | none =>
      have idle : s.unhookLine l = (.ok (), s) := by simp [Hooking.unhookLine, hooked]
      rw [idle]
      exact Spares.of_traces rfl
    | some handle =>
      rcases unhookLine_cases hooked with ⟨e, -, refused⟩ | done
      · rw [refused]
        exact Spares.of_traces rfl
      · rw [done]
        refine ⟨(·.id ≠ handle.id), rfl, fun t _ listed => ?_⟩
        have own := (apart.own l handle hooked).1
        simp only [ne_eq, decide_eq_true_eq]
        exact fun same => own (same ▸ listed)

theorem Same.of_without {s' : Hooking} {target : HookTarget}
    (same : Same target (s.without foreign) (s'.without foreign))
    (spares : Spares foreign s.host s'.host) : Same target s s' := by
  cases target with
  | method m => exact same
  | line l =>
    obtain ⟨lines, pending, traces⟩ := same
    obtain ⟨stays, removed, spared⟩ := spares
    refine ⟨lines, pending, ?_⟩
    have kept : ∀ t ∈ s.host.traces, t.only = some l → stays t = true := by
      intro t member meant
      by_cases listed : t.id ∈ foreign
      · exact spared t member listed
      · have before : t ∈ (s.without foreign).host.tracesAt l :=
          List.mem_filter.mpr
            ⟨List.mem_filter.mpr ⟨member, by simpa using listed⟩, by simpa using meant⟩
        rw [← traces] at before
        have after := (List.mem_filter.mp (List.mem_filter.mp before).1).1
        rw [removed] at after
        exact (List.mem_filter.mp after).2
    unfold Host.tracesAt
    rw [removed, List.filter_filter]
    refine List.filter_congr fun t member => ?_
    by_cases meant : t.only = some l
    · rw [kept t member meant, Bool.and_true]
    · simp [meant]

/-! What is refused. -/

end Hooking

def Host.declines (h : Host) : HookTarget → Option Error
  | .method m => h.refuses .removeMethod (.method m)
  | .line l => h.refuses .removeLine (.line l)

namespace Hooking

variable {foreign : List Nat} {s : Hooking}

theorem Apart.unhook_answer (apart : s.Apart foreign) (anchored : s.Anchored) {target : HookTarget}
    (hooked : s.hooks.isInstalled target = true) :
    (s.unhook target).1 = match s.host.declines target with
      | some e => .error e
      | none => .ok () := by
  cases target with
  | method m =>
    obtain ⟨installed, found⟩ := Table.contains_iff.mp hooked
    have home := anchored.home m installed found
    show (s.unhookMethod m).1 = match s.host.refuses .removeMethod (.method m) with
      | some e => .error e
      | none => .ok ()
    unfold unhookMethod Host.removeMethod
    rw [found]
    dsimp only
    rw [home]
    cases s.host.refuses .removeMethod (.method m) <;> rfl
  | line l =>
    obtain ⟨handle, found⟩ := Table.contains_iff.mp hooked
    have told := (apart.own l handle found).2
    show (s.unhookLine l).1 = match s.host.refuses .removeLine (.line l) with
      | some e => .error e
      | none => .ok ()
    unfold Hooking.unhookLine Host.removeLine
    rw [found]
    dsimp only
    rw [← told]
    cases s.host.refuses .removeLine (.line l) <;> rfl

end Hooking
end LiveProbe
