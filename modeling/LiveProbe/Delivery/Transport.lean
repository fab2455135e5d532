import LiveProbe.Delivery.Worker

/-!
Delivery by a worker and a transport. The transport may fail or panic, which loses the batch only,
and it may be held up, which keeps the worker inside it.
-/
namespace LiveProbe

inductive SendOutcome where
  | sent
  | error
  | panic
  deriving DecidableEq, Repr

def SendOutcome.of : SendReply → SendOutcome
  | .returned (.ok ()) => .sent
  | .returned (.error _) => .error
  | .unwound => .panic

structure Transport (σ τ : Type) where
  held : Bool := false
  failing : Bool := false
  failure : Error := .agentCommunication "recording failure"
  panics : Batch σ τ → Bool := fun _ => false

/-- A failing transport does not get as far as a panic. -/
def Transport.send {σ τ : Type} (t : Transport σ τ) (batch : Batch σ τ) : SendReply :=
  if t.failing then .returned (.error t.failure)
  else if t.panics batch then .unwound
  else .returned (.ok ())

structure Delivery (σ τ : Type) where
  worker : DeliveryWorker σ τ
  transport : Transport σ τ := {}
  handled : List (Batch σ τ × SendOutcome) := []
  stopTimeoutMs : UInt64
  stopped : Bool := false

namespace Delivery

variable {σ τ : Type}

def ofCapacity (capacity : Nat) (stopTimeoutMs : UInt64) : Delivery σ τ :=
  { worker := .ofCapacity capacity, stopTimeoutMs }

def stepOn (reply : SendReply) (d : Delivery σ τ) : Delivery σ τ :=
  let handled := match d.worker.inTransport? with
    | some batch => d.handled ++ [(batch, .of reply)]
    | none => d.handled
  { d with worker := d.worker.step reply, handled }

def step (d : Delivery σ τ) : Delivery σ τ :=
  d.stepOn <| match d.worker.inTransport? with
    | some batch => d.transport.send batch
    | none => .returned (.ok ())

/-- Whether the worker can do nothing until something is pushed or the transport goes on. -/
def isWaiting (d : Delivery σ τ) : Bool :=
  d.worker.hasEnded || d.worker.isIdle || (d.transport.held && d.worker.inTransport?.isSome)

def steps : Nat → Delivery σ τ → Delivery σ τ
  | 0, d => d
  | n + 1, d => if d.isWaiting then d else steps n d.step

/-- A bound on the steps that the worker has to take until it waits: every round but the last hands
over an event. -/
def stepBound (d : Delivery σ τ) : Nat :=
  9 * (d.worker.statuses.items.length + d.worker.snapshots.items.length) + 16

def settle (d : Delivery σ τ) : Delivery σ τ := d.steps d.stepBound

def pushStatus (e : σ) (d : Delivery σ τ) : Delivery σ τ :=
  { d with worker := d.worker.pushStatus e }

def pushSnapshot (e : τ) (d : Delivery σ τ) : Delivery σ τ :=
  { d with worker := d.worker.pushSnapshot e }

def statusesOf (batches : List (Batch σ τ × SendOutcome)) : List σ :=
  batches.flatMap fun
    | (.statuses events, _) => events
    | _ => []

def snapshotsOf (batches : List (Batch σ τ × SendOutcome)) : List τ :=
  batches.flatMap fun
    | (.snapshots events, _) => events
    | _ => []

/-- Stops the worker and tells what there is to warn of, once. A worker that is held up is left
behind. -/
def stop (d : Delivery σ τ) : List Warning × Delivery σ τ :=
  if d.stopped then ([], d)
  else
    let d := { d with worker := d.worker.requestStop, stopped := true }.settle
    let late := if d.worker.finished then [] else [Warning.deliveryLeftBehind d.stopTimeoutMs]
    let (statuses, snapshots) := d.worker.dropped
    let lost := if statuses > 0 || snapshots > 0 then [.noticesDropped statuses snapshots] else []
    (late ++ lost, d)

theorem stop_of_stopped {d : Delivery σ τ} (h : d.stopped = true) : d.stop = ([], d) := by
  simp [stop, h]

end Delivery
end LiveProbe
