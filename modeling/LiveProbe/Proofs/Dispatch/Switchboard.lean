import LiveProbe.Proofs.Table
import LiveProbe.World.Run

/-!
What managers of one host are meant to do, told without bodies, slots and handles. A manager has
at most one hook on a method, which is current until the method is defined anew; and it keeps what
waits for a definition.
-/
namespace LiveProbe

/-- What can be asked of the managers of a host, and of the host. -/
inductive Command where
  | define (typeName : String) (methods : List (String × Code))
  | hook (manager : Nat) (m : MethodName) (callback : Callback)
  | hookWhenDefined (manager : Nat) (m : MethodName) (callback : Callback)
  | unhook (manager : Nat) (target : HookTarget)
  | clearHooks (manager : Nat)
  | close (manager : Nat)
  | subscribe (manager : Nat)

namespace World

def obey (w : World) : Command → World
  | .define typeName methods => w.define typeName methods
  | .hook n m callback =>
    (w.inSetup n fun s => s.hooking (Hooking.hook s.engine.code (.method m) callback)).2
  | .hookWhenDefined n m callback =>
    (w.inSetup n fun s => s.hooking (Hooking.hookWhenDefined s.engine.code (.method m) callback)).2
  | .unhook n target => (w.inSetup n fun s => s.hooking (Hooking.unhook target)).2
  | .clearHooks n => (w.inSetup n fun s => s.hooking fun k => ((), k.clearHooks)).2
  | .close n => (w.inSetup n fun s => s.hooking fun k => ((), k.close)).2
  | .subscribe n => w.updateSetup n Setup.subscribe

end World

structure Ticket where
  callback : Callback
  current : Bool

/-- What a manager is meant to hold. -/
structure Desk where
  installed : MethodName → Option Ticket := fun _ => none
  waiting : MethodName → Option Callback := fun _ => none
  subscribed : Bool := false
  closed : Bool := false

namespace Desk

def seat (m : MethodName) (callback : Callback) (d : Desk) : Desk :=
  { d with
    installed := fun other => if other = m then some ⟨callback, true⟩ else d.installed other }

def clear (m : MethodName) (d : Desk) : Desk :=
  { d with installed := fun other => if other = m then none else d.installed other }

def await (m : MethodName) (callback : Callback) (d : Desk) : Desk :=
  { d with waiting := fun other => if other = m then some callback else d.waiting other }

def clearAll (d : Desk) : Desk := { d with installed := fun _ => none }

def close : Desk := { closed := true }

def outdate (anew : MethodName → Bool) (d : Desk) : Desk :=
  { d with installed := fun m =>
      (d.installed m).map fun t => { t with current := t.current && !anew m } }

def seatWaiting (due : MethodName → Bool) (d : Desk) : Desk :=
  { d with
    installed := fun m =>
      if due m then ((d.waiting m).map (⟨·, true⟩)).or (d.installed m) else d.installed m
    waiting := fun m => if due m then none else d.waiting m }

def attend (typeName : String) (defined : MethodName → Bool) (d : Desk) : Desk :=
  if d.closed then d else d.seatWaiting fun m => m.typeName == typeName && defined m

theorem clear_of_free {d : Desk} {m : MethodName} (free : d.installed m = none) :
    d.clear m = d := by
  unfold clear
  congr 1
  funext other
  split
  · rename_i own
    rw [own, free]
  · rfl

theorem seatWaiting_seatWaiting (due due' : MethodName → Bool) (d : Desk) :
    (d.seatWaiting due').seatWaiting due = d.seatWaiting fun m => due m || due' m := by
  unfold seatWaiting
  congr 1 <;> funext m
  all_goals
    by_cases first : due m = true <;> by_cases second : due' m = true <;> simp [first, second]

theorem attend_attend (typeName : String) (defined : MethodName → Bool) (d : Desk) :
    (d.attend typeName defined).attend typeName defined = d.attend typeName defined := by
  unfold attend
  cases closed : d.closed with
  | true => simp [closed]
  | false =>
    have still : (d.seatWaiting fun m => m.typeName == typeName && defined m).closed = false :=
      closed
    simp only [Bool.false_eq_true, if_false, still, seatWaiting_seatWaiting, Bool.or_self]

theorem seatWaiting_congr {due due' : MethodName → Bool} {d : Desk}
    (same : ∀ m, (d.waiting m).isSome = true → due m = due' m) :
    d.seatWaiting due = d.seatWaiting due' := by
  unfold seatWaiting
  congr 1 <;> funext m
  all_goals
    cases waiting : d.waiting m with
    | none => simp
    | some callback => simp [same m (by rw [waiting]; rfl)]

end Desk

structure Switchboard where
  defined : MethodName → Option Code := fun _ => none
  desks : List Desk

namespace Switchboard

def idle (count : Nat) : Switchboard := { desks := List.replicate count {} }

def atDesk (n : Nat) (f : Desk → Desk) (b : Switchboard) : Switchboard :=
  { b with desks := b.desks.modify n f }

theorem atDesk_id (n : Nat) (b : Switchboard) : b.atDesk n id = b := by
  unfold atDesk
  rw [List.modify_id]

def isDefined (b : Switchboard) (m : MethodName) : Bool := (b.defined m).isSome

def given (typeName : String) (methods : List (String × Code)) (m : MethodName) : Option Code :=
  if m.typeName = typeName then Table.get? m.name methods.reverse else none

/-- Hooks on redefined methods are not current any more; then managers that follow definitions
install what waits for the type. -/
def define (typeName : String) (methods : List (String × Code)) (b : Switchboard) : Switchboard :=
  let given := given typeName methods
  let defined m := (given m).or (b.defined m)
  { defined, desks := b.desks.map fun d =>
      let d := d.outdate fun m => (given m).isSome
      if d.subscribed then d.attend typeName fun m => (defined m).isSome else d }

def obey (b : Switchboard) : Command → Switchboard
  | .define typeName methods => b.define typeName methods
  | .hook n m callback => if b.isDefined m then b.atDesk n (·.seat m callback) else b
  | .hookWhenDefined n m callback =>
    b.atDesk n (if b.isDefined m then (·.seat m callback) else (·.await m callback))
  | .unhook n (.method m) => b.atDesk n (·.clear m)
  | .unhook _ (.line _) => b
  | .clearHooks n => b.atDesk n (·.clearAll)
  | .close n => b.atDesk n fun _ => .close
  | .subscribe n => b.atDesk n fun d => { d with subscribed := true }

def isHooked (b : Switchboard) (n : Nat) (m : MethodName) : Bool :=
  b.desks[n]?.any fun d => (d.installed m).isSome

/-- A manager has a hook on a method, which has not been defined anew since. -/
def Fires (b : Switchboard) (n : Nat) (m : MethodName) (callback : Callback) : Prop :=
  ∃ d, b.desks[n]? = some d ∧ d.installed m = some ⟨callback, true⟩

end Switchboard
end LiveProbe
