import LiveProbe.Hook.Manager
import LiveProbe.Proofs.Host.Bodies

/-!
What an operation on one target leaves alone. A manager and its host hold something for every
target; hooking, unhooking and waiting for one target changes nothing of what is held for another,
and nothing of how host and manager are connected. This needs handles that belong where they are
kept, and traces in the host that stand one for one for the hooked lines.
-/
namespace LiveProbe

def Host.tracesAt (h : Host) (l : SourceLine) : List LineTrace :=
  h.traces.filter fun t => t.only = some l

structure Host.BodyFrame (m : MethodName) (h h' : Host) : Prop where
  rest : h' = { h with types := h'.types }
  apart : ∀ other, other ≠ m → h'.body? other = h.body? other
  defined : ∀ other, (h'.body? other).isSome = (h.body? other).isSome

namespace Host.BodyFrame

theorem refl (m : MethodName) (h : Host) : BodyFrame m h h := ⟨rfl, fun _ _ => rfl, fun _ => rfl⟩

theorem setBody {h : Host} {m : MethodName} (defined : (h.body? m).isSome = true) (body : Body) :
    BodyFrame m h (h.setBody m body) where
  rest := rfl
  apart _ ne := body?_setBody_of_ne h ne body
  defined := isSome_body?_setBody h defined body

theorem restoreMethod (h : Host) (handle : MethodHandle) :
    BodyFrame handle.method h (h.restoreMethod handle) := by
  obtain ⟨types, eq⟩ := restoreMethod_eq h handle
  exact ⟨by rw [eq], fun other ne => body?_restoreMethod_of_ne h ne,
    fun other => isSome_body?_restoreMethod h handle other⟩

theorem removeMethod (h : Host) (handle : MethodHandle) :
    BodyFrame handle.method h (h.removeMethod handle).2 := by
  unfold Host.removeMethod
  split
  · exact refl _ h
  · exact restoreMethod h handle

end Host.BodyFrame

namespace Hooking

/-- How a manager and its host are connected, and what the host has loaded. -/
structure Wiring where
  manager : Nat
  untargeted : Bool
  closed : Bool
  definitions : Option Nat
  units : List (String × List CompiledUnit)
  listsUnits : Bool
  definitionObservers : List (Nat × Observer)
  compileObservers : List (Nat × Observer)
  refuses : Capability → HookTarget → Option Error

def wiring (s : Hooking) : Wiring where
  manager := s.hooks.manager
  untargeted := s.hooks.untargeted
  closed := s.hooks.closed
  definitions := s.hooks.definitions
  units := s.host.units
  listsUnits := s.host.listsUnits
  definitionObservers := s.host.definitionObservers
  compileObservers := s.host.compileObservers
  refuses := s.host.refuses

def Same (target : HookTarget) (s s' : Hooking) : Prop :=
  match target with
  | .method m =>
    Table.get? m s'.hooks.methods = Table.get? m s.hooks.methods ∧
      Table.get? m s'.hooks.pendingMethods = Table.get? m s.hooks.pendingMethods ∧
      s'.hooks.slot m = s.hooks.slot m ∧ s'.host.body? m = s.host.body? m
  | .line l =>
    Table.get? l s'.hooks.lines = Table.get? l s.hooks.lines ∧
      Table.get? l s'.hooks.pendingLines = Table.get? l s.hooks.pendingLines ∧
      s'.host.tracesAt l = s.host.tracesAt l

theorem Same.refl (target : HookTarget) (s : Hooking) : Same target s s := by
  cases target
  · exact ⟨rfl, rfl, rfl, rfl⟩
  · exact ⟨rfl, rfl, rfl⟩

theorem Same.trans {target : HookTarget} {s s' s'' : Hooking} (first : Same target s s')
    (second : Same target s' s'') : Same target s s'' := by
  cases target with
  | method m =>
    obtain ⟨a, b, c, d⟩ := first
    obtain ⟨a', b', c', d'⟩ := second
    exact ⟨a'.trans a, b'.trans b, c'.trans c, d'.trans d⟩
  | line l =>
    obtain ⟨a, b, c⟩ := first
    obtain ⟨a', b', c'⟩ := second
    exact ⟨a'.trans a, b'.trans b, c'.trans c⟩

theorem Same.isInstalled {target : HookTarget} {s s' : Hooking} (same : Same target s s') :
    s'.hooks.isInstalled target = s.hooks.isInstalled target := by
  cases target with
  | method m => simp only [Hooks.isInstalled, Table.contains, same.1]
  | line l => simp only [Hooks.isInstalled, Table.contains, same.1]

theorem Same.isPending {target : HookTarget} {s s' : Hooking} (same : Same target s s') :
    s'.hooks.isPending target = s.hooks.isPending target := by
  cases target with
  | method m => simp only [Hooks.isPending, Table.contains, same.2.1]
  | line l => simp only [Hooks.isPending, Table.contains, same.2.1]

/-- At most what is held for one target differs, and no method comes or goes. -/
structure Frame (target : HookTarget) (s s' : Hooking) : Prop where
  wiring : s'.wiring = s.wiring
  apart : ∀ other, other ≠ target → Same other s s'
  defined : ∀ m, (s'.host.body? m).isSome = (s.host.body? m).isSome

theorem Frame.refl (target : HookTarget) (s : Hooking) : Frame target s s :=
  ⟨rfl, fun other _ => Same.refl other s, fun _ => rfl⟩

theorem Frame.trans {target : HookTarget} {s s' s'' : Hooking} (first : Frame target s s')
    (second : Frame target s' s'') : Frame target s s'' where
  wiring := second.wiring.trans first.wiring
  apart other ne := (first.apart other ne).trans (second.apart other ne)
  defined m := (second.defined m).trans (first.defined m)

theorem Frame.of_method {m : MethodName} {s s' : Hooking}
    (host : Host.BodyFrame m s.host s'.host)
    (fixed : (s'.hooks.manager, s'.hooks.untargeted, s'.hooks.closed, s'.hooks.definitions) =
      (s.hooks.manager, s.hooks.untargeted, s.hooks.closed, s.hooks.definitions))
    (lines : s'.hooks.lines = s.hooks.lines)
    (pendingLines : s'.hooks.pendingLines = s.hooks.pendingLines)
    (methods : ∀ other, other ≠ m →
      Table.get? other s'.hooks.methods = Table.get? other s.hooks.methods)
    (pendingMethods : ∀ other, other ≠ m →
      Table.get? other s'.hooks.pendingMethods = Table.get? other s.hooks.pendingMethods)
    (slots : ∀ other, other ≠ m → s'.hooks.slot other = s.hooks.slot other) :
    Frame (.method m) s s' := by
  simp only [Prod.mk.injEq] at fixed
  obtain ⟨manager, untargeted, closed, definitions⟩ := fixed
  refine ⟨?_, ?_, host.defined⟩
  · unfold Hooking.wiring
    rw [host.rest, manager, untargeted, closed, definitions]
  · intro other ne
    cases other with
    | method o =>
      have apart : o ≠ m := fun eq => ne (by rw [eq])
      exact ⟨methods o apart, pendingMethods o apart, slots o apart, host.apart o apart⟩
    | line l =>
      refine ⟨by rw [lines], by rw [pendingLines], ?_⟩
      unfold Host.tracesAt
      rw [host.rest]

theorem Frame.of_line {l : SourceLine} {s s' : Hooking} (wiring : s'.wiring = s.wiring)
    (methods : ∀ m, Same (.method m) s s')
    (lines : ∀ other, other ≠ l →
      Table.get? other s'.hooks.lines = Table.get? other s.hooks.lines)
    (pendingLines : ∀ other, other ≠ l →
      Table.get? other s'.hooks.pendingLines = Table.get? other s.hooks.pendingLines)
    (traces : ∀ other, other ≠ l → s'.host.tracesAt other = s.host.tracesAt other) :
    Frame (.line l) s s' where
  wiring := wiring
  apart other ne := by
    cases other with
    | method m => exact methods m
    | line o =>
      have apart : o ≠ l := fun eq => ne (by rw [eq])
      exact ⟨lines o apart, pendingLines o apart, traces o apart⟩
  defined m := by rw [(methods m).2.2.2]

end Hooking
end LiveProbe
