import LiveProbe.Proofs.Dispatch.Chain
import LiveProbe.Proofs.Dispatch.Switchboard
import LiveProbe.Proofs.Hook.Waiting
import Mathlib.Logic.Function.Basic

/-!
A manager at its desk. What it holds for a method, with the chain of hooks on it, agrees with what
it is meant to hold, and every operation of one manager leaves the layers of all others where they
are.
-/
namespace LiveProbe

open Function (update)

/-- What the host has for a method: nothing, or hooks on the program it was defined as. -/
def Host.Chained (h : Host) (bound : Nat → Nat) (m : MethodName) (program : Option Code) : Prop :=
  match h.body? m with
  | none => program = none
  | some b => ∃ code, program = some code ∧ b.Stacked m code bound

theorem Host.Chained.mono {h : Host} {bound bound' : Nat → Nat} {m : MethodName}
    {program : Option Code} (chained : h.Chained bound m program) (le : ∀ n, bound n ≤ bound' n) :
    h.Chained bound' m program := by
  unfold Host.Chained at chained ⊢
  cases found : h.body? m with
  | none =>
    rw [found] at chained
    exact chained
  | some b =>
    rw [found] at chained
    obtain ⟨code, own, stacked⟩ := chained
    exact ⟨code, own, stacked.mono le⟩

def Host.layer? (h : Host) (m : MethodName) (n i : Nat) : Option (Callback × Body) :=
  (h.body? m).bind (Body.layer? n i)

structure Host.Numbered (h : Host) : Prop where
  distinct : (h.definitionObservers.map (·.1)).Nodup
  bounded : ∀ e ∈ h.definitionObservers, e.1 ≤ h.lastId

theorem Host.Numbered.eq_of_id {h : Host} (numbered : h.Numbered) {id : Nat} {o o' : Observer}
    (first : (id, o) ∈ h.definitionObservers) (second : (id, o') ∈ h.definitionObservers) :
    o = o' := by
  have same := List.inj_on_of_nodup_map numbered.distinct first second rfl
  exact (Prod.mk.inj same).2

/-- One manager has done something, with its last number going from one to another. -/
structure Shuffle (n last last' : Nat) (h h' : Host) : Prop where
  refuses : h'.refuses = h.refuses
  numbered : h.Numbered → h'.Numbered
  observers : ∀ n' id, n' ≠ n → ((id, Observer.engine n') ∈ h'.definitionObservers ↔
    (id, Observer.engine n') ∈ h.definitionObservers)
  defined : ∀ m, (h'.body? m).isSome = (h.body? m).isSome
  layers : ∀ m n' i, n' ≠ n → h'.layer? m n' i = h.layer? m n' i
  chained : ∀ m program bound, h.Chained (update bound n last) m program →
    h'.Chained (update bound n last') m program

namespace Shuffle

variable {n last last' last'' : Nat} {h h' h'' : Host} {m : MethodName}

theorem trans (first : Shuffle n last last' h h') (second : Shuffle n last' last'' h' h'') :
    Shuffle n last last'' h h'' where
  refuses := second.refuses.trans first.refuses
  numbered := second.numbered ∘ first.numbered
  observers n' id other := (second.observers n' id other).trans (first.observers n' id other)
  defined m := (second.defined m).trans (first.defined m)
  layers m n' i other := (second.layers m n' i other).trans (first.layers m n' i other)
  chained m program bound chained :=
    second.chained m program bound (first.chained m program bound chained)

theorem update_le (bound : Nat → Nat) (le : last ≤ last') (k : Nat) :
    update bound n last k ≤ update bound n last' k := by
  by_cases own : k = n
  · subst own
    rw [Function.update_self, Function.update_self]
    exact le
  · simp only [Function.update_of_ne own, Nat.le_refl]

theorem of_bodies (le : last ≤ last') (refuses : h'.refuses = h.refuses)
    (numbered : h.Numbered → h'.Numbered)
    (observers : ∀ n' id, n' ≠ n → ((id, Observer.engine n') ∈ h'.definitionObservers ↔
      (id, Observer.engine n') ∈ h.definitionObservers))
    (bodies : ∀ m, h'.body? m = h.body? m) : Shuffle n last last' h h' where
  refuses := refuses
  numbered := numbered
  observers := observers
  defined m := by rw [bodies]
  layers m n' i _ := by rw [Host.layer?, bodies, ← Host.layer?]
  chained m program bound chained := by
    have raised := chained.mono (update_le bound le)
    unfold Host.Chained at raised ⊢
    rw [bodies]
    exact raised

theorem of_numbers (n : Nat) (le : last ≤ last') (h : Host) : Shuffle n last last' h h :=
  of_bodies le rfl id (fun _ _ _ => Iff.rfl) fun _ => rfl

theorem refl (n last : Nat) (h : Host) : Shuffle n last last h h :=
  of_numbers n (Nat.le_refl last) h

theorem of_traces (n last : Nat) (h : Host) (traces : List LineTrace) :
    Shuffle n last last h { h with traces } :=
  of_bodies (Nat.le_refl last) rfl (fun numbered => ⟨numbered.distinct, numbered.bounded⟩)
    (fun _ _ _ => Iff.rfl) fun _ => rfl

theorem of_setBody {b b' : Body} (found : h.body? m = some b) (le : last ≤ last')
    (layers : ∀ n' i, n' ≠ n → b'.layer? n' i = b.layer? n' i)
    (stacked : ∀ code bound, b.Stacked m code (update bound n last) →
      b'.Stacked m code (update bound n last')) : Shuffle n last last' h (h.setBody m b') where
  refuses := rfl
  numbered numbered := ⟨numbered.distinct, numbered.bounded⟩
  observers _ _ _ := Iff.rfl
  defined := Host.isSome_body?_setBody h (by rw [found]; rfl) b'
  layers m' n' i other := by
    unfold Host.layer?
    by_cases own : m' = m
    · rw [own, Host.body?_setBody, found]
      exact layers n' i other
    · rw [Host.body?_setBody_of_ne h own]
  chained m' program bound chained := by
    by_cases own : m' = m
    · subst own
      unfold Host.Chained at chained ⊢
      rw [found] at chained
      obtain ⟨code, same, below⟩ := chained
      rw [Host.body?_setBody]
      exact ⟨code, same, stacked code bound below⟩
    · have raised := chained.mono (update_le bound le)
      unfold Host.Chained at raised ⊢
      rw [Host.body?_setBody_of_ne h own]
      exact raised

end Shuffle

/-- A manager's table, slot and layer for a method agree with what it is meant to hold. -/
def Seated (n : Nat) (m : MethodName) (entry : Option InstalledMethod) (slot : Nat) (h : Host) :
    Option Ticket → Prop
  | none => entry = none ∧ slot = 0
  | some t => ∃ saved, entry = some ⟨slot, ⟨m, some (.hook n slot), saved⟩⟩ ∧ 0 < slot ∧
      (h.body? m).isSome = true ∧
      h.layer? m n slot = if t.current then some (t.callback, saved) else none

theorem Seated.congr {n : Nat} {m : MethodName} {entry : Option InstalledMethod} {slot : Nat}
    {h h' : Host} {t : Option Ticket} (seated : Seated n m entry slot h t)
    (defined : (h'.body? m).isSome = (h.body? m).isSome)
    (layers : ∀ i, h'.layer? m n i = h.layer? m n i) : Seated n m entry slot h' t := by
  cases t with
  | none => exact seated
  | some t =>
    obtain ⟨saved, held, positive, known, layer⟩ := seated
    refine ⟨saved, held, positive, ?_, ?_⟩
    · rw [defined]
      exact known
    · rw [layers]
      exact layer

/-- A manager holds what it is meant to hold. -/
structure Mirrors (d : Desk) (h : Host) (k : Hooks) : Prop where
  seated : ∀ m, Seated k.manager m (Table.get? m k.methods) (k.slot m) h (d.installed m)
  methodKeys : (Table.keys k.methods).Nodup
  waiting : ∀ m, Table.get? m k.pendingMethods = d.waiting m
  waitingKeys : (Table.keys k.pendingMethods).Nodup
  observed : ∀ id, (id, Observer.engine k.manager) ∈ h.definitionObservers ↔ k.definitions = some id
  subscribed : k.definitions.isSome = d.subscribed
  closed : k.closed = d.closed

theorem Mirrors.shuffle {d : Desk} {h h' : Host} {k : Hooks} {n last last' : Nat}
    (mirrors : Mirrors d h k) (shuffle : Shuffle n last last' h h') (other : k.manager ≠ n) :
    Mirrors d h' k :=
  { mirrors with
    seated := fun m => (mirrors.seated m).congr (shuffle.defined m)
      fun i => shuffle.layers m k.manager i other
    observed := fun id => (shuffle.observers k.manager id other).trans (mirrors.observed id) }

theorem Mirrors.free {d : Desk} {h : Host} {k : Hooks} {m : MethodName} (mirrors : Mirrors d h k)
    (free : Table.get? m k.methods = none) : d.installed m = none ∧ k.slot m = 0 := by
  have seated := mirrors.seated m
  cases ticket : d.installed m with
  | none =>
    rw [ticket] at seated
    exact ⟨rfl, seated.2⟩
  | some t =>
    rw [ticket] at seated
    obtain ⟨saved, held, -⟩ := seated
    rw [free] at held
    cases held

theorem Mirrors.isInstalled {d : Desk} {h : Host} {k : Hooks} (mirrors : Mirrors d h k)
    (m : MethodName) : k.isInstalled (.method m) = (d.installed m).isSome := by
  have seated := mirrors.seated m
  cases ticket : d.installed m with
  | none =>
    rw [ticket] at seated
    rw [Hooks.isInstalled, Table.contains, seated.1]
    rfl
  | some t =>
    rw [ticket] at seated
    obtain ⟨saved, held, -⟩ := seated
    rw [Hooks.isInstalled, Table.contains, held]
    rfl

theorem Mirrors.held {d : Desk} {h : Host} {k : Hooks} {m : MethodName} {e : InstalledMethod}
    (mirrors : Mirrors d h k) (hooked : Table.get? m k.methods = some e) :
    ∃ saved, e = ⟨k.slot m, ⟨m, some (.hook k.manager (k.slot m)), saved⟩⟩ ∧ 0 < k.slot m ∧
      ∀ callback below, h.layer? m k.manager (k.slot m) = some (callback, below) →
        below = saved := by
  have seated := mirrors.seated m
  rw [hooked] at seated
  cases ticket : d.installed m with
  | none =>
    rw [ticket] at seated
    cases seated.1
  | some t =>
    rw [ticket] at seated
    obtain ⟨saved, held, positive, -, layer⟩ := seated
    refine ⟨saved, Option.some.inj held, positive, fun callback below found => ?_⟩
    rw [layer] at found
    split at found
    · cases found
      rfl
    · cases found

theorem Mirrors.clear {d : Desk} {h h' : Host} {k k' : Hooks} {m : MethodName}
    (mirrors : Mirrors d h k)
    (manager : k'.manager = k.manager) (methods : k'.methods = Table.erase m k.methods)
    (slots : ∀ other, k'.slot other = if other = m then 0 else k.slot other)
    (rest : (k'.pendingMethods, k'.definitions, k'.closed) =
      (k.pendingMethods, k.definitions, k.closed))
    (frame : h.BodyFrame m h') : Mirrors (d.clear m) h' k' := by
  simp only [Prod.mk.injEq] at rest
  obtain ⟨pendingMethods, definitions, closed⟩ := rest
  refine ⟨fun other => ?_, ?_, ?_, ?_, ?_, ?_, ?_⟩
  · rw [methods, Table.get?_erase, slots]
    by_cases own : other = m
    · simp [own, Desk.clear, Seated]
    · rw [manager, if_neg own, if_neg own]
      simp only [Desk.clear, if_neg own]
      refine (mirrors.seated other).congr ?_ fun i => ?_
      · exact frame.defined other
      · rw [Host.layer?, frame.apart other own, ← Host.layer?]
  · rw [methods]
    exact Table.nodup_keys_erase mirrors.methodKeys m
  · rw [pendingMethods]
    exact mirrors.waiting
  · rw [pendingMethods]
    exact mirrors.waitingKeys
  · rw [manager, frame.rest, definitions]
    exact mirrors.observed
  · rw [definitions]
    exact mirrors.subscribed
  · rw [closed]
    exact mirrors.closed

namespace Hooking

variable {s s' s'' : Hooking} {d d' d'' : Desk}

/-- A manager has moved to another desk, alone. -/
structure Move (d : Desk) (s s' : Hooking) : Prop where
  shuffle : Shuffle s.hooks.manager s.hooks.lastInstallation s'.hooks.lastInstallation
    s.host s'.host
  mirrors : Mirrors d s'.host s'.hooks
  manager : s'.hooks.manager = s.hooks.manager

theorem Move.trans (first : Move d' s s') (second : Move d'' s' s'') : Move d'' s s'' where
  shuffle := by
    have later := second.shuffle
    rw [first.manager] at later
    exact first.shuffle.trans later
  mirrors := second.mirrors
  manager := second.manager.trans first.manager

theorem Move.refl (mirrors : Mirrors d s.host s.hooks) : Move d s s :=
  ⟨Shuffle.refl _ _ _, mirrors, rfl⟩

theorem seat_shuffle {h : Host} {m : MethodName} {saved : Body} (found : h.body? m = some saved)
    (n last : Nat) (callback : Callback) :
    Shuffle n last (last + 1) h (h.setBody m (.hooked n m (last + 1) callback saved)) := by
  refine Shuffle.of_setBody found (Nat.le_succ last) (fun n' i other => ?_)
    fun code bound below => ?_
  · rw [Body.layer?_hooked_of_ne]
    exact fun same => other same.1.symm
  · refine ⟨rfl, Nat.succ_pos last, ?_, ?_, below.mono (Shuffle.update_le bound (Nat.le_succ last))⟩
    · simp only [Function.update_self, Nat.le_refl]
    · refine below.layer?_eq_none ?_
      rw [Function.update_self]
      exact Nat.lt_succ_self last

theorem seat_mirrors {h : Host} {k : Hooks} {m : MethodName} {i : Nat} (saved : Body)
    (mirrors : Mirrors (d.clear m) h k) (positive : 0 < i) (callback : Callback) :
    Mirrors (d.seat m callback) (h.setBody m (.hooked k.manager m i callback saved))
      { k.setSlot m i with
        methods := Table.insert m ⟨i, ⟨m, some (.hook k.manager i), saved⟩⟩ k.methods } := by
  refine { mirrors with
    seated := fun other => ?_
    methodKeys := Table.nodup_keys_insert mirrors.methodKeys }
  show Seated k.manager other (Table.get? other (Table.insert m _ _))
    ((k.setSlot m i).slot other) _ _
  rw [Table.get?_insert, Hooks.slot_setSlot]
  by_cases own : other = m
  · subst own
    simp only [if_true, Desk.seat]
    refine ⟨saved, rfl, positive, ?_, ?_⟩
    · rw [Host.body?_setBody]
      rfl
    · rw [Host.layer?, Host.body?_setBody]
      exact Body.layer?_hooked_self _ _ other _ _
  · rw [if_neg own, if_neg own]
    have seated := mirrors.seated other
    simp only [Desk.clear, if_neg own] at seated
    simp only [Desk.seat, if_neg own]
    refine seated.congr ?_ fun i => ?_
    · rw [Host.body?_setBody_of_ne _ own]
    · rw [Host.layer?, Host.body?_setBody_of_ne _ own, ← Host.layer?]

theorem restoreMethod_shuffle (h : Host) (m : MethodName) (n i last : Nat) (saved : Body)
    (fits : ∀ callback below, h.layer? m n i = some (callback, below) → below = saved) :
    Shuffle n last last h (h.restoreMethod ⟨m, some (.hook n i), saved⟩) := by
  rcases Host.restoreMethod_cases h ⟨m, some (.hook n i), saved⟩ with
    same | ⟨b, found, -, key, changed⟩
  · rw [same]
    exact Shuffle.refl n last h
  · rw [changed]
    cases b with
    | hooked n' m' i' callback below =>
      cases key
      have laid : below = saved := by
        apply fits callback below
        rw [Host.layer?, show h.body? m = _ from found]
        exact Body.layer?_hooked_self n i m' callback below
      subst laid
      refine Shuffle.of_setBody found (Nat.le_refl last) (fun n' j other => ?_)
        fun code bound stacked => stacked.2.2.2.2
      rw [Body.layer?_hooked_of_ne]
      exact fun same => other same.1.symm
    | _ => cases key

end Hooking
end LiveProbe
