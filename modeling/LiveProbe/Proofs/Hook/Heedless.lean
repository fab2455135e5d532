import LiveProbe.Hook.Manager

/-!
What a manager does with its hooks does not depend on what has been warned of before.
-/
namespace LiveProbe.Hooking

variable {k k' : Hooking} {α : Type}

structure Like (k k' : Hooking) : Prop where
  host : k.host = k'.host
  hooks : k.hooks = k'.hooks

structure Alike (x y : α × Hooking) : Prop where
  answer : x.1 = y.1
  like : Like x.2 y.2

section Method

variable (m : MethodName)

theorem Like.releaseMethod (like : Like k k') : Like (k.releaseMethod m) (k'.releaseMethod m) := by
  obtain ⟨host, hooks⟩ := like
  unfold Hooking.releaseMethod
  rw [hooks, host]
  cases Table.get? m k'.hooks.methods with
  | none => exact ⟨host, hooks⟩
  | some previous =>
    dsimp only
    rcases k'.host.removeMethod previous.handle with ⟨_ | _, _⟩ <;> exact ⟨rfl, rfl⟩

theorem Like.numberInstallation (like : Like k k') :
    Alike (k.numberInstallation m) (k'.numberInstallation m) := by
  obtain ⟨host, hooks⟩ := like
  unfold Hooking.numberInstallation
  rw [hooks]
  exact ⟨rfl, host, rfl⟩

theorem Like.hookMethod (like : Like k k') (callback : Callback) :
    Alike (k.hookMethod m callback) (k'.hookMethod m callback) := by
  have numbered := (like.releaseMethod m).numberInstallation m
  unfold Hooking.hookMethod
  generalize (k.releaseMethod m).numberInstallation m = x at numbered ⊢
  generalize (k'.releaseMethod m).numberInstallation m = y at numbered ⊢
  obtain ⟨id, s⟩ := x
  obtain ⟨id', s'⟩ := y
  obtain ⟨rfl, host, hooks⟩ := numbered
  dsimp only at host hooks ⊢
  rw [host, hooks]
  rcases s'.host.installMethod m _ with ⟨_ | _, _⟩ <;> exact ⟨rfl, rfl, rfl⟩

theorem Like.unhookMethod (like : Like k k') : Alike (k.unhookMethod m) (k'.unhookMethod m) := by
  obtain ⟨host, hooks⟩ := id like
  unfold Hooking.unhookMethod
  rw [hooks, host]
  cases Table.get? m k'.hooks.methods with
  | none => exact ⟨rfl, like⟩
  | some installed =>
    dsimp only
    rcases k'.host.removeMethod installed.handle with ⟨_ | _, _⟩ <;> exact ⟨rfl, rfl, rfl⟩

end Method

section Line

variable (code : Option CodeRegistry) (l : SourceLine)

theorem Like.releaseLine (like : Like k k') : Alike (k.releaseLine l) (k'.releaseLine l) := by
  obtain ⟨host, hooks⟩ := id like
  unfold Hooking.releaseLine
  rw [hooks, host]
  cases Table.get? l k'.hooks.lines with
  | none => exact ⟨rfl, like⟩
  | some previous => exact ⟨rfl, rfl, rfl⟩

theorem Like.installLine (like : Like k k') (unit : Option CompiledUnit) (callback : Callback) :
    Alike (k.installLine unit l callback) (k'.installLine unit l callback) := by
  obtain ⟨host, hooks⟩ := like
  unfold Hooking.installLine
  rw [hooks, host]
  rcases k'.host.installLine unit l callback with ⟨_ | _, _⟩ <;> exact ⟨rfl, rfl, rfl⟩

theorem Like.hookLine (like : Like k k') (callback : Callback) :
    Alike (k.hookLine code l callback) (k'.hookLine code l callback) := by
  have released := like.releaseLine l
  have place : k.traceUnit code l = k'.traceUnit code l := by
    unfold traceUnit
    rw [like.hooks]
  unfold Hooking.hookLine
  rw [place]
  cases k'.traceUnit code l with
  | error e => exact ⟨rfl, like⟩
  | ok unit =>
    generalize k.releaseLine l = x at released ⊢
    generalize k'.releaseLine l = y at released ⊢
    obtain ⟨answer, s⟩ := x
    obtain ⟨answer', s'⟩ := y
    obtain ⟨rfl, like'⟩ := released
    cases answer with
    | error e => exact ⟨rfl, like'⟩
    | ok _ => exact like'.installLine l unit callback

theorem Like.unhookLine (like : Like k k') : Alike (k.unhookLine l) (k'.unhookLine l) := by
  obtain ⟨host, hooks⟩ := id like
  unfold Hooking.unhookLine
  rw [hooks, host]
  cases Table.get? l k'.hooks.lines with
  | none => exact ⟨rfl, like⟩
  | some handle =>
    dsimp only
    rcases k'.host.removeLine handle with ⟨_ | _, _⟩ <;> exact ⟨rfl, rfl, rfl⟩

end Line

section Target

variable (code : Option CodeRegistry) (target : HookTarget)

theorem Like.hook (like : Like k k') (callback : Callback) :
    Alike (k.hook code target callback) (k'.hook code target callback) := by
  cases target with
  | method m => exact like.hookMethod m callback
  | line l => exact like.hookLine code l callback

theorem Like.hookWhenDefined (like : Like k k') (callback : Callback) :
    Alike (k.hookWhenDefined code target callback) (k'.hookWhenDefined code target callback) := by
  have hooked := like.hook code target callback
  unfold Hooking.hookWhenDefined
  generalize k.hook code target callback = x at hooked ⊢
  generalize k'.hook code target callback = y at hooked ⊢
  obtain ⟨answer, s⟩ := x
  obtain ⟨answer', s'⟩ := y
  obtain ⟨rfl, host, hooks⟩ := hooked
  have waits : Like (s.addPending target callback) (s'.addPending target callback) := by
    unfold addPending
    rw [show s.hooks = s'.hooks from hooks]
    exact ⟨host, rfl⟩
  rcases answer with e | _
  · cases e <;> first | exact ⟨rfl, waits⟩ | exact ⟨rfl, host, hooks⟩
  · exact ⟨rfl, host, hooks⟩

theorem Like.retry (like : Like k k') (callback : Callback) :
    Alike (k.retry code target callback) (k'.retry code target callback) := by
  have hooked := like.hook code target callback
  unfold Hooking.retry
  generalize k.hook code target callback = x at hooked ⊢
  generalize k'.hook code target callback = y at hooked ⊢
  obtain ⟨answer, s⟩ := x
  obtain ⟨answer', s'⟩ := y
  obtain ⟨rfl, like'⟩ := hooked
  rcases answer with e | _
  · cases e <;> exact ⟨rfl, like'.host, like'.hooks⟩
  · exact ⟨rfl, like'.host, congrArg (·.forgetPending target) like'.hooks⟩

theorem Like.unhook (like : Like k k') : Alike (k.unhook target) (k'.unhook target) := by
  cases target with
  | method m => exact like.unhookMethod m
  | line l => exact like.unhookLine l

end Target

/-! All at once. -/

theorem Like.retryAll (like : Like k k') (code : Option CodeRegistry)
    (waiting : List (HookTarget × Callback)) :
    Alike (k.retryAll code waiting) (k'.retryAll code waiting) := by
  refine List.foldl_rel (r := Alike) ⟨rfl, like⟩ fun e _ x y both => ?_
  obtain ⟨installed, s⟩ := x
  obtain ⟨installed', s'⟩ := y
  obtain ⟨rfl, like'⟩ := both
  have retried := like'.retry code e.1 e.2
  dsimp only at retried ⊢
  generalize s.retry code e.1 e.2 = x at retried ⊢
  generalize s'.retry code e.1 e.2 = y at retried ⊢
  obtain ⟨answer, s⟩ := x
  obtain ⟨answer', s'⟩ := y
  obtain ⟨rfl, like''⟩ := retried
  cases answer <;> exact ⟨rfl, like''⟩

theorem Like.installPendingMethods (like : Like k k') (code : Option CodeRegistry)
    (typeName : String) :
    Alike (k.installPendingMethods code typeName) (k'.installPendingMethods code typeName) := by
  unfold Hooking.installPendingMethods
  rw [like.hooks]
  split
  · exact ⟨rfl, like⟩
  · exact like.retryAll code _

theorem Like.installPendingLines (like : Like k k') (code : Option CodeRegistry) (path : String) :
    Alike (k.installPendingLines code path) (k'.installPendingLines code path) := by
  unfold Hooking.installPendingLines
  rw [like.hooks]
  split
  · exact ⟨rfl, like⟩
  · exact like.retryAll code _

theorem Like.dropMethod (like : Like k k') (e : MethodName × InstalledMethod) :
    Like (k.dropMethod e) (k'.dropMethod e) := by
  obtain ⟨host, hooks⟩ := like
  unfold Hooking.dropMethod
  rw [host]
  rcases k'.host.removeMethod e.2.handle with ⟨_ | _, _⟩ <;> exact ⟨rfl, hooks⟩

theorem Like.dropLine (like : Like k k') (e : SourceLine × LineHandle) :
    Like (k.dropLine e) (k'.dropLine e) := by
  obtain ⟨host, hooks⟩ := like
  unfold Hooking.dropLine
  rw [host]
  rcases k'.host.removeLine e.2 with ⟨_ | _, _⟩ <;> exact ⟨rfl, hooks⟩

theorem Like.clearHooks (like : Like k k') : Like k.clearHooks k'.clearHooks := by
  obtain ⟨host, hooks⟩ := like
  unfold Hooking.clearHooks
  rw [hooks]
  refine List.foldl_rel (r := Like) (List.foldl_rel (r := Like) ⟨host, rfl⟩ ?_) ?_
  · exact fun e _ _ _ like => like.dropMethod e
  · exact fun e _ _ _ like => like.dropLine e

theorem Like.close (like : Like k k') : Like k.close k'.close := by
  have stopped : Like k.stopFollowing k'.stopFollowing := by
    obtain ⟨host, hooks⟩ := like
    unfold Hooking.stopFollowing
    rw [hooks, host]
    exact ⟨rfl, rfl⟩
  have cleared := stopped.clearHooks
  exact ⟨cleared.host, congrArg Hooks.clearAllPending cleared.hooks⟩

end LiveProbe.Hooking
