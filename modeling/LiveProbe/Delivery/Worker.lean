import LiveProbe.Delivery.Queue
import LiveProbe.Warning

/-!
The worker that ships status and snapshot events. It goes round and round: it looks whether it has
to stop, drains both queues up to their capacity, and hands what it took to the transport, statuses
first. The transport may fail or unwind, which is caught and warned of. When the loop is over the
worker says so, and then leaves its queues, one after the other. Every step is atomic, and producers
may push between any two of them.
-/
namespace LiveProbe

inductive Lane where
  | statuses
  | snapshots
  deriving DecidableEq, Repr

def Lane.other : Lane → Lane
  | .statuses => .snapshots
  | .snapshots => .statuses

inductive Batch (σ τ : Type) where
  | statuses (events : List σ)
  | snapshots (events : List τ)
  deriving DecidableEq, Repr

namespace Batch

variable {σ τ : Type}

def size : Batch σ τ → Nat
  | .statuses events => events.length
  | .snapshots events => events.length

def kind : Batch σ τ → String
  | .statuses _ => "status event"
  | .snapshots _ => "snapshot"

end Batch

/-- How code ends that has been called: it returns something, or it unwinds. -/
inductive Ending (α : Type) where
  | returned (a : α)
  | unwound

namespace Ending

variable {α β : Type}

def map (f : α → β) : Ending α → Ending β
  | .returned a => .returned (f a)
  | .unwound => .unwound

def caught : Ending α → Ending (Option α)
  | .returned a => .returned (some a)
  | .unwound => .returned none

end Ending

/-- What comes of handing a batch to the transport. -/
abbrev SendReply := Ending (Except Error Unit)

inductive WorkerPhase (σ τ : Type) where
  | starting
  | drainingStatuses (taken : List σ)
  | drainingSnapshots (statuses : List σ) (taken : List τ)
  /-- Both queues are drained, and these events are not handed over yet. -/
  | handing (statuses : List σ) (snapshots : List τ)
  /-- The transport has the batch, and these snapshots are to follow. -/
  | sending (batch : Batch σ τ) (snapshots : List τ)
  /-- The loop is over, and both queues can still be pushed to. -/
  | leaving
  /-- One queue has been left, this one not yet. -/
  | closing (last : Lane)
  | ended

structure DeliveryWorker (σ τ : Type) where
  statuses : DeliveryQueue σ
  snapshots : DeliveryQueue τ
  phase : WorkerPhase σ τ := .starting
  stopping : Bool := false
  handed : List (Batch σ τ) := []
  warnings : List Warning := []
  finished : Bool := false
  /-- The queue that is left first. -/
  first : Lane := .statuses

namespace DeliveryWorker

variable {σ τ : Type}

def ofCapacity (capacity : Nat) : DeliveryWorker σ τ :=
  { statuses := { capacity }, snapshots := { capacity } }

def pushStatus (e : σ) (w : DeliveryWorker σ τ) : DeliveryWorker σ τ :=
  { w with statuses := w.statuses.push e }

def pushSnapshot (e : τ) (w : DeliveryWorker σ τ) : DeliveryWorker σ τ :=
  { w with snapshots := w.snapshots.push e }

def requestStop (w : DeliveryWorker σ τ) : DeliveryWorker σ τ := { w with stopping := true }

def dropped (w : DeliveryWorker σ τ) : Nat × Nat := (w.statuses.dropped, w.snapshots.dropped)

def hand (batch : Batch σ τ) (snapshots : List τ) (w : DeliveryWorker σ τ) : DeliveryWorker σ τ :=
  { w with handed := w.handed ++ [batch], phase := .sending batch snapshots }

def leave (phase : WorkerPhase σ τ) : Lane → DeliveryWorker σ τ → DeliveryWorker σ τ
  | .statuses, w => { w with statuses := w.statuses.abandon, phase }
  | .snapshots, w => { w with snapshots := w.snapshots.abandon, phase }

def nextOf {α : Type} (taken : List α) (q : DeliveryQueue α) : Option (α × DeliveryQueue α) :=
  if taken.length < q.capacity then q.take? else none

def dispatch (batch : Batch σ τ) (reply : SendReply) : Ending (Option Warning) :=
  reply.caught.map fun
    | some (.ok ()) => none
    | some (.error e) => some (.batchNotSent batch.size batch.kind e)
    | none => some (.transportPanicked batch.size batch.kind)

/-- A step of the worker. The reply is that of the transport, if the transport has a batch; if the
thread were to unwind, it would leave the loop and not say so. -/
def step (reply : SendReply) (w : DeliveryWorker σ τ) : DeliveryWorker σ τ :=
  match w.phase with
  | .starting =>
    if w.stopping then { w with phase := .leaving, finished := true }
    else { w with phase := .drainingStatuses [] }
  | .drainingStatuses taken =>
    match nextOf taken w.statuses with
    | some (e, statuses) => { w with statuses, phase := .drainingStatuses (taken ++ [e]) }
    | none => { w with phase := .drainingSnapshots taken [] }
  | .drainingSnapshots statuses taken =>
    match nextOf taken w.snapshots with
    | some (e, snapshots) =>
      { w with snapshots, phase := .drainingSnapshots statuses (taken ++ [e]) }
    | none => { w with phase := .handing statuses taken }
  | .handing [] [] => { w with phase := .starting }
  | .handing [] snapshots => w.hand (.snapshots snapshots) []
  | .handing statuses snapshots => w.hand (.statuses statuses) snapshots
  | .sending batch snapshots =>
    match dispatch batch reply with
    | .returned warning =>
      { w with phase := .handing [] snapshots, warnings := w.warnings ++ warning.toList }
    | .unwound => { w with phase := .leaving }
  | .leaving => w.leave (.closing w.first.other) w.first
  | .closing last => w.leave .ended last
  | .ended => w

def isIdle (w : DeliveryWorker σ τ) : Bool :=
  match w.phase with
  | .starting => !w.stopping && w.statuses.items.isEmpty && w.snapshots.items.isEmpty
  | _ => false

def hasEnded (w : DeliveryWorker σ τ) : Bool :=
  match w.phase with
  | .ended => true
  | _ => false

def inTransport? (w : DeliveryWorker σ τ) : Option (Batch σ τ) :=
  match w.phase with
  | .sending batch _ => some batch
  | _ => none

end DeliveryWorker
end LiveProbe
