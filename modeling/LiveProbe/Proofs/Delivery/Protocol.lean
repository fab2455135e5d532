import LiveProbe.Delivery.Transport
import Mathlib.Data.List.Basic

/-!
The delivery protocol. Producers push, the worker takes its steps, a stop is requested, and the
transport replies to every batch as it likes, all in any order. What a queue has accepted is handed
over, drained, queued or left behind, in the order of the pushes; what it has not accepted is
counted. The order across the two queues is left open.
-/
namespace LiveProbe

variable {σ τ : Type}

/-- What can happen to a delivery. -/
inductive DeliveryEvent (σ τ : Type) where
  | status (e : σ)
  | snapshot (e : τ)
  /-- The worker takes its next step; this is what the transport replies if it has a batch. -/
  | work (reply : SendReply)
  | stop

abbrev Lane.Item (σ τ : Type) : Lane → Type
  | .statuses => σ
  | .snapshots => τ

def DeliveryEvent.pushed? : (l : Lane) → DeliveryEvent σ τ → Option (l.Item σ τ)
  | .statuses, .status e => some e
  | .snapshots, .snapshot e => some e
  | _, _ => none

def DeliveryEvent.isWork : DeliveryEvent σ τ → Bool
  | .work _ => true
  | _ => false

theorem DeliveryEvent.working (event : DeliveryEvent σ τ) :
    (∃ reply, event = .work reply) ∨ event.isWork = false := by
  cases event <;> first | exact Or.inl ⟨_, rfl⟩ | exact Or.inr rfl

def DeliveryEvent.isStop : DeliveryEvent σ τ → Bool
  | .stop => true
  | _ => false

def Batch.eventsOf : (l : Lane) → Batch σ τ → List (l.Item σ τ)
  | .statuses, .statuses events => events
  | .snapshots, .snapshots events => events
  | _, _ => []

/-- What has been taken out of a queue and not been handed over. -/
def WorkerPhase.drained : (l : Lane) → WorkerPhase σ τ → List (l.Item σ τ)
  | .statuses, .drainingStatuses taken => taken
  | .statuses, .drainingSnapshots statuses _ => statuses
  | .statuses, .handing statuses _ => statuses
  | .snapshots, .drainingSnapshots _ taken => taken
  | .snapshots, .handing _ snapshots => snapshots
  | .snapshots, .sending _ snapshots => snapshots
  | _, _ => []

/-- What a queue has let in and nobody has taken out, be it still queued or left behind. -/
def DeliveryQueue.remaining {α : Type} (q : DeliveryQueue α) : List α := q.discarded ++ q.items

def WorkerPhase.isOver : WorkerPhase σ τ → Bool
  | .leaving | .closing _ | .ended => true
  | _ => false

def WorkerPhase.attends (l : Lane) : WorkerPhase σ τ → Bool
  | .closing last => l = last
  | .ended => false
  | _ => true

namespace DeliveryWorker

def queue (w : DeliveryWorker σ τ) : (l : Lane) → DeliveryQueue (l.Item σ τ)
  | .statuses => w.statuses
  | .snapshots => w.snapshots

def handedOf (w : DeliveryWorker σ τ) (l : Lane) : List (l.Item σ τ) :=
  w.handed.flatMap (Batch.eventsOf l)

/-- Everything that a queue has let in, the oldest first. -/
def flow (w : DeliveryWorker σ τ) (l : Lane) : List (l.Item σ τ) :=
  w.handedOf l ++ w.phase.drained l ++ (w.queue l).remaining

end DeliveryWorker

namespace Delivery

def take (d : Delivery σ τ) : DeliveryEvent σ τ → Delivery σ τ
  | .status e => d.pushStatus e
  | .snapshot e => d.pushSnapshot e
  | .work reply => d.stepOn reply
  | .stop => { d with worker := d.worker.requestStop }

def after (events : List (DeliveryEvent σ τ)) (d : Delivery σ τ) : Delivery σ τ :=
  events.foldl take d

def accepted (l : Lane) : List (DeliveryEvent σ τ) → Delivery σ τ → List (l.Item σ τ)
  | [], _ => []
  | event :: rest, d =>
    (if (d.worker.queue l).accepts then (event.pushed? l).toList else []) ++
      accepted l rest (d.take event)

end Delivery

def pushes (l : Lane) (events : List (DeliveryEvent σ τ)) : List (l.Item σ τ) :=
  events.filterMap (DeliveryEvent.pushed? l)

def works (events : List (DeliveryEvent σ τ)) : Nat := events.countP DeliveryEvent.isWork

namespace DeliveryQueue

variable {α : Type}

theorem push_eq (a : α) (q : DeliveryQueue α) :
    q.push a = { q with items := (q.push a).items, dropped := (q.push a).dropped } := by
  unfold push
  split <;> rfl

theorem capacity_push (a : α) (q : DeliveryQueue α) : (q.push a).capacity = q.capacity := by
  rw [push_eq]

theorem items_push (a : α) (q : DeliveryQueue α) :
    (q.push a).items = q.items ++ if q.accepts then [a] else [] := by
  unfold push
  split <;> simp

theorem remaining_push (a : α) (q : DeliveryQueue α) :
    (q.push a).remaining = q.remaining ++ if q.accepts then [a] else [] := by
  rw [remaining, remaining, items_push, List.append_assoc, push_eq]

theorem dropped_push (a : α) (q : DeliveryQueue α) :
    (if q.accepts then [a] else []).length + (q.push a).dropped = q.dropped + 1 := by
  unfold push
  split <;> simp; omega

structure Sound (capacity : Nat) (live : Bool) (q : DeliveryQueue α) : Prop where
  attended : q.attended = live
  capacity_eq : q.capacity = capacity
  length_items_le : q.items.length ≤ capacity
  kept : live = true → q.discarded = []
  emptied : live = false → q.items = []

namespace Sound

variable {capacity : Nat} {live : Bool} {q : DeliveryQueue α}

theorem push (sound : q.Sound capacity live) (a : α) : (q.push a).Sound capacity live := by
  have room := length_push_le (sound.capacity_eq.symm ▸ sound.length_items_le) a
  rw [capacity_push, sound.capacity_eq] at room
  constructor
  case attended => rw [push_eq, sound.attended]
  case capacity_eq => rw [capacity_push, sound.capacity_eq]
  case length_items_le => exact room
  case kept => rw [push_eq]; exact sound.kept
  case emptied =>
    intro left
    have refused : q.accepts = false := by simp [accepts, sound.attended, left]
    rw [items_push, refused, sound.emptied left]
    rfl

theorem tail (sound : q.Sound capacity true) {a : α} {rest : List α} (items : q.items = a :: rest) :
    ({ q with items := rest } : DeliveryQueue α).Sound capacity true := by
  have room := sound.length_items_le
  rw [items, List.length_cons] at room
  exact ⟨sound.attended, sound.capacity_eq, Nat.le_of_succ_le room, sound.kept, nofun⟩

theorem abandon (sound : q.Sound capacity true) : q.abandon.Sound capacity false :=
  ⟨rfl, sound.capacity_eq, Nat.zero_le capacity, nofun, fun _ => rfl⟩

theorem remaining_abandon (sound : q.Sound capacity true) : q.abandon.remaining = q.remaining := by
  simp [remaining, DeliveryQueue.abandon, sound.kept rfl]

theorem accepts_eq_false_iff (sound : q.Sound capacity live) :
    q.accepts = false ↔ live = false ∨ q.items.length = capacity := by
  have room := sound.length_items_le
  simp only [accepts, sound.attended, sound.capacity_eq, Bool.and_eq_false_iff,
    decide_eq_false_iff_not]
  exact or_congr_right ⟨fun full => by omega, fun full => by omega⟩

end Sound
end DeliveryQueue

/-! One event after the other. -/

namespace Delivery

variable {d : Delivery σ τ} {l : Lane} {event : DeliveryEvent σ τ}

theorem queue_take (d : Delivery σ τ) (passive : event.isWork = false) (l : Lane) :
    (d.take event).worker.queue l =
      (event.pushed? l).elim (d.worker.queue l) fun e => (d.worker.queue l).push e := by
  cases event <;> cases l <;> first | rfl | cases passive

theorem phase_take (d : Delivery σ τ) (passive : event.isWork = false) :
    (d.take event).worker.phase = d.worker.phase := by
  cases event <;> first | rfl | cases passive

theorem handed_take (d : Delivery σ τ) (passive : event.isWork = false) :
    (d.take event).worker.handed = d.worker.handed ∧ (d.take event).handled = d.handled := by
  cases event <;> first | exact ⟨rfl, rfl⟩ | cases passive

theorem pushed?_of_isWork (work : event.isWork = true) : event.pushed? l = none := by
  cases event <;> first | (cases l <;> rfl) | cases work

end Delivery

namespace DeliveryWorker

variable {w : DeliveryWorker σ τ} {l : Lane}

theorem nextOf_eq_some {α : Type} {taken : List α} {q q' : DeliveryQueue α} {e : α}
    (next : nextOf taken q = some (e, q')) :
    ∃ rest, q.items = e :: rest ∧ q' = { q with items := rest } ∧ taken.length < q.capacity := by
  unfold nextOf DeliveryQueue.take? at next
  split at next
  · rename_i room
    split at next
    · cases next
    · rename_i rest items
      cases next
      exact ⟨rest, items, rfl, room⟩
  · cases next

theorem length_le_of_nextOf {α : Type} {taken : List α} {q q' : DeliveryQueue α} {e : α}
    (next : nextOf taken q = some (e, q')) : (taken ++ [e]).length ≤ q.capacity := by
  obtain ⟨-, -, -, room⟩ := nextOf_eq_some next
  rw [List.length_append]
  exact room

theorem nextOf_eq_none {α : Type} {taken : List α} {q : DeliveryQueue α}
    (done : nextOf taken q = none) : q.capacity ≤ taken.length ∨ q.items = [] := by
  unfold nextOf at done
  split at done
  · right
    unfold DeliveryQueue.take? at done
    split at done
    · assumption
    · cases done
  · left
    omega

theorem dispatch_returns (batch : Batch σ τ) (reply : SendReply) :
    ∃ warning, dispatch batch reply = .returned warning ∧
      (warning = none ↔ SendOutcome.of reply = .sent) := by
  match reply with
  | .returned (.ok ()) => exact ⟨_, rfl, fun _ => rfl, fun _ => rfl⟩
  | .returned (.error e) => exact ⟨_, rfl, nofun, nofun⟩
  | .unwound => exact ⟨_, rfl, nofun, nofun⟩

inductive Moves (reply : SendReply) (w : DeliveryWorker σ τ) : DeliveryWorker σ τ → Prop
  | ends (starting : w.phase = .starting) (stopping : w.stopping = true) :
    Moves reply w { w with phase := .leaving, finished := true }
  | begins (starting : w.phase = .starting) (goesOn : w.stopping = false) :
    Moves reply w { w with phase := .drainingStatuses [] }
  | takesStatus {taken : List σ} {e : σ} {statuses : DeliveryQueue σ}
    (draining : w.phase = .drainingStatuses taken)
    (next : nextOf taken w.statuses = some (e, statuses)) :
    Moves reply w { w with statuses, phase := .drainingStatuses (taken ++ [e]) }
  | hasStatuses {taken : List σ} (draining : w.phase = .drainingStatuses taken)
    (done : nextOf taken w.statuses = none) :
    Moves reply w { w with phase := .drainingSnapshots taken [] }
  | takesSnapshot {statuses : List σ} {taken : List τ} {e : τ} {snapshots : DeliveryQueue τ}
    (draining : w.phase = .drainingSnapshots statuses taken)
    (next : nextOf taken w.snapshots = some (e, snapshots)) :
    Moves reply w { w with snapshots, phase := .drainingSnapshots statuses (taken ++ [e]) }
  | hasSnapshots {statuses : List σ} {taken : List τ}
    (draining : w.phase = .drainingSnapshots statuses taken)
    (done : nextOf taken w.snapshots = none) :
    Moves reply w { w with phase := .handing statuses taken }
  | returns (nothing : w.phase = .handing [] []) : Moves reply w { w with phase := .starting }
  | handsSnapshots {snapshots : List τ} (handing : w.phase = .handing [] snapshots)
    (some : snapshots ≠ []) : Moves reply w (w.hand (.snapshots snapshots) [])
  | handsStatuses {statuses : List σ} {snapshots : List τ}
    (handing : w.phase = .handing statuses snapshots) (some : statuses ≠ []) :
    Moves reply w (w.hand (.statuses statuses) snapshots)
  | replied {batch : Batch σ τ} {snapshots : List τ} {warning : Option Warning}
    (sending : w.phase = .sending batch snapshots)
    (warns : warning = none ↔ SendOutcome.of reply = .sent) :
    Moves reply w
      { w with phase := .handing [] snapshots, warnings := w.warnings ++ warning.toList }
  | leaves (leaving : w.phase = .leaving) :
    Moves reply w (w.leave (.closing w.first.other) w.first)
  | closes {last : Lane} (closing : w.phase = .closing last) :
    Moves reply w (w.leave .ended last)
  | rests (ended : w.phase = .ended) : Moves reply w w

theorem moves_step (reply : SendReply) (w : DeliveryWorker σ τ) : Moves reply w (w.step reply) := by
  cases phase : w.phase with
  | starting =>
    cases stopping : w.stopping with
    | true => simpa [step, phase, stopping] using Moves.ends phase stopping
    | false => simpa [step, phase, stopping] using Moves.begins phase stopping
  | drainingStatuses taken =>
    cases next : nextOf taken w.statuses with
    | none => simpa [step, phase, next] using Moves.hasStatuses phase next
    | some r => simpa [step, phase, next] using Moves.takesStatus phase next
  | drainingSnapshots statuses taken =>
    cases next : nextOf taken w.snapshots with
    | none => simpa [step, phase, next] using Moves.hasSnapshots phase next
    | some r => simpa [step, phase, next] using Moves.takesSnapshot phase next
  | handing statuses snapshots =>
    cases statuses with
    | cons e rest => simpa [step, phase] using Moves.handsStatuses phase (List.cons_ne_nil e rest)
    | nil =>
      cases snapshots with
      | cons e rest =>
        simpa [step, phase] using Moves.handsSnapshots phase (List.cons_ne_nil e rest)
      | nil => simpa [step, phase] using Moves.returns phase
  | sending batch snapshots =>
    obtain ⟨warning, returned, warns⟩ := dispatch_returns batch reply
    simpa [step, phase, returned] using Moves.replied phase warns
  | leaving => simpa [step, phase] using Moves.leaves phase
  | closing last => simpa [step, phase] using Moves.closes phase
  | ended => simpa [step, phase] using Moves.rests phase

/-- What keeps the parts of a worker together. -/
structure Sound (capacity : Nat) (w : DeliveryWorker σ τ) : Prop where
  queues : ∀ l, (w.queue l).Sound capacity (w.phase.attends l)
  length_drained_le : ∀ l, (w.phase.drained l).length ≤ capacity
  batches : ∀ batch ∈ w.handed, batch.size ≠ 0 ∧ batch.size ≤ capacity
  told : w.phase.isOver = true → w.stopping = true
  finished : w.finished = w.phase.isOver

section Leave

variable {capacity : Nat} {first : Lane} (phase : WorkerPhase σ τ) (w)

theorem queue_leave (first l : Lane) :
    (w.leave phase first).queue l = if l = first then (w.queue l).abandon else w.queue l := by
  cases first <;> cases l <;> rfl

theorem phase_leave (first : Lane) : (w.leave phase first).phase = phase := by
  cases first <;> rfl

theorem leave_eq (first : Lane) : w.leave phase first =
    { w with
      statuses := (w.leave phase first).statuses
      snapshots := (w.leave phase first).snapshots
      phase } := by
  cases first <;> rfl

theorem remaining_leave {w : DeliveryWorker σ τ} (sound : (w.queue first).Sound capacity true)
    (l : Lane) : ((w.leave phase first).queue l).remaining = (w.queue l).remaining := by
  rw [queue_leave]
  split
  · next same => exact same ▸ sound.remaining_abandon
  · rfl

end Leave

theorem flow_step {capacity : Nat} (sound : Sound capacity w) (reply : SendReply) (l : Lane) :
    (w.step reply).flow l = w.flow l := by
  have queues := sound.queues
  have moves := moves_step reply w
  generalize w.step reply = w' at moves ⊢
  unfold flow handedOf
  cases moves with
  | ends phase | begins phase | hasStatuses phase | hasSnapshots phase | returns phase
  | replied phase =>
    cases l <;> simp [queue, phase, WorkerPhase.drained]
  | takesStatus phase next | takesSnapshot phase next =>
    obtain ⟨rest, items, rfl, -⟩ := nextOf_eq_some next
    have kept := (phase ▸ queues l).kept rfl
    cases l <;> simp_all [queue, WorkerPhase.drained, DeliveryQueue.remaining]
  | handsSnapshots phase | handsStatuses phase =>
    cases l <;> simp [queue, hand, phase, WorkerPhase.drained, Batch.eventsOf]
  | leaves phase =>
    have live : (w.queue w.first).Sound capacity true := by
      simpa [phase, WorkerPhase.attends] using queues w.first
    rw [remaining_leave _ live, leave_eq, phase]
    cases l <;> rfl
  | @closes last phase =>
    have live : (w.queue last).Sound capacity true := by
      simpa [phase, WorkerPhase.attends] using queues last
    rw [remaining_leave _ live, leave_eq, phase]
    cases l <;> rfl
  | rests phase => rfl

theorem queues_step {capacity : Nat} (sound : Sound capacity w) (reply : SendReply) (l : Lane) :
    ((w.step reply).queue l).Sound capacity ((w.step reply).phase.attends l) := by
  have before := sound.queues l
  have moves := moves_step reply w
  generalize w.step reply = w' at moves ⊢
  cases moves with
  | ends phase | begins phase | hasStatuses phase | hasSnapshots phase | returns phase
  | replied phase | handsSnapshots phase | handsStatuses phase =>
    rw [phase] at before
    exact before
  | takesStatus phase next | takesSnapshot phase next =>
    obtain ⟨rest, items, rfl, -⟩ := nextOf_eq_some next
    rw [phase] at before
    cases l <;> first | exact before | exact before.tail items
  | leaves phase =>
    rw [phase] at before
    rw [queue_leave, phase_leave]
    cases first : w.first <;> cases l <;> first | exact before | exact before.abandon
  | @closes last phase =>
    rw [phase] at before
    rw [queue_leave, phase_leave]
    cases last <;> cases l <;> first | exact before | exact before.abandon
  | rests => exact before

theorem length_drained_step {capacity : Nat} (sound : Sound capacity w) (reply : SendReply)
    (l : Lane) : ((w.step reply).phase.drained l).length ≤ capacity := by
  have before := sound.length_drained_le l
  have moves := moves_step reply w
  generalize w.step reply = w' at moves ⊢
  cases moves with
  | takesStatus phase next =>
    have limit := (sound.queues .statuses).capacity_eq
    have fits := Nat.le_trans (length_le_of_nextOf next) (Nat.le_of_eq limit)
    rw [phase] at before
    cases l <;> first | exact fits | exact before
  | takesSnapshot phase next =>
    have limit := (sound.queues .snapshots).capacity_eq
    have fits := Nat.le_trans (length_le_of_nextOf next) (Nat.le_of_eq limit)
    rw [phase] at before
    cases l <;> first | exact fits | exact before
  | leaves | closes =>
    rw [phase_leave]
    cases l <;> exact Nat.zero_le capacity
  | rests => exact before
  | ends phase | begins phase | hasStatuses phase | hasSnapshots phase | returns phase
  | replied phase | handsSnapshots phase | handsStatuses phase =>
    rw [phase] at before
    cases l <;> first | exact before | exact Nat.zero_le capacity

theorem batches_step {capacity : Nat} (sound : Sound capacity w) (reply : SendReply) :
    ∀ batch ∈ (w.step reply).handed, batch.size ≠ 0 ∧ batch.size ≤ capacity := by
  have before := sound.batches
  have drained := sound.length_drained_le
  have moves := moves_step reply w
  generalize w.step reply = w' at moves ⊢
  have handsOn : ∀ {batch : Batch σ τ}, batch.size ≠ 0 → batch.size ≤ capacity →
      ∀ other ∈ w.handed ++ [batch], other.size ≠ 0 ∧ other.size ≤ capacity := by
    intro batch full limit other mem
    rcases List.mem_append.1 mem with old | new
    · exact before other old
    · exact List.mem_singleton.1 new ▸ ⟨full, limit⟩
  cases moves with
  | handsStatuses phase some =>
    have limit := drained .statuses
    rw [phase] at limit
    exact handsOn (fun none => some (List.length_eq_zero_iff.1 none)) limit
  | handsSnapshots phase some =>
    have limit := drained .snapshots
    rw [phase] at limit
    exact handsOn (fun none => some (List.length_eq_zero_iff.1 none)) limit
  | leaves | closes =>
    rw [leave_eq]
    exact before
  | _ => exact before

theorem over_step {capacity : Nat} (sound : Sound capacity w) (reply : SendReply) :
    ((w.step reply).phase.isOver = true → (w.step reply).stopping = true) ∧
      (w.step reply).finished = (w.step reply).phase.isOver := by
  have told := sound.told
  have finished := sound.finished
  have moves := moves_step reply w
  generalize w.step reply = w' at moves ⊢
  cases moves with
  | ends phase stopping => exact ⟨fun _ => stopping, rfl⟩
  | leaves phase | closes phase =>
    rw [phase] at told finished
    rw [leave_eq]
    exact ⟨fun _ => told rfl, finished⟩
  | rests => exact ⟨told, finished⟩
  | begins phase | takesStatus phase | hasStatuses phase | takesSnapshot phase | hasSnapshots phase
  | returns phase | replied phase | handsSnapshots phase | handsStatuses phase =>
    rw [phase] at finished
    exact ⟨nofun, finished⟩

theorem sound_step {capacity : Nat} (sound : Sound capacity w) (reply : SendReply) :
    Sound capacity (w.step reply) :=
  ⟨queues_step sound reply, length_drained_step sound reply, batches_step sound reply,
    (over_step sound reply).1, (over_step sound reply).2⟩

theorem dropped_step (reply : SendReply) (w : DeliveryWorker σ τ) (l : Lane) :
    ((w.step reply).queue l).dropped = (w.queue l).dropped := by
  have moves := moves_step reply w
  generalize w.step reply = w' at moves ⊢
  cases moves with
  | takesStatus phase next | takesSnapshot phase next =>
    obtain ⟨rest, -, rfl, -⟩ := nextOf_eq_some next
    cases l <;> rfl
  | leaves | closes =>
    rw [queue_leave]
    split <;> rfl
  | _ => cases l <;> rfl

theorem handed_step (reply : SendReply) (w : DeliveryWorker σ τ) : ∃ next,
    (w.step reply).handed = w.handed ++ next ∧ (w.step reply).inTransport?.toList = next := by
  have moves := moves_step reply w
  generalize w.step reply = w' at moves ⊢
  cases moves with
  | handsSnapshots | handsStatuses => exact ⟨[_], rfl, rfl⟩
  | leaves | closes =>
    refine ⟨[], ?_, ?_⟩
    · rw [leave_eq]
      exact (List.append_nil _).symm
    · unfold inTransport?
      rw [phase_leave]
      rfl
  | rests phase => exact ⟨[], by simp [inTransport?, phase]⟩
  | takesStatus | takesSnapshot | ends | begins | hasStatuses | hasSnapshots | returns | replied =>
    exact ⟨[], (List.append_nil _).symm, rfl⟩

theorem warnings_step (reply : SendReply) (w : DeliveryWorker σ τ) :
    (w.step reply).warnings.length = w.warnings.length +
      if w.inTransport?.isSome ∧ SendOutcome.of reply ≠ .sent then 1 else 0 := by
  have moves := moves_step reply w
  generalize w.step reply = w' at moves ⊢
  cases moves with
  | @replied batch snapshots warning phase warns =>
    cases warning <;> simp_all [inTransport?]
  | leaves phase | closes phase =>
    rw [leave_eq]
    simp [inTransport?, phase]
  | ends phase | begins phase | takesStatus phase | hasStatuses phase | takesSnapshot phase
  | hasSnapshots phase | returns phase | handsSnapshots phase | handsStatuses phase
  | rests phase => simp [inTransport?, phase, hand]

theorem step_of_isOver (ended : w.phase.isOver = true) (reply : SendReply) :
    (w.step reply).phase.isOver = true ∧ (w.step reply).handed = w.handed := by
  have moves := moves_step reply w
  generalize w.step reply = w' at moves ⊢
  cases moves with
  | leaves | closes =>
    rw [leave_eq]
    exact ⟨rfl, rfl⟩
  | rests => exact ⟨ended, rfl⟩
  | ends phase | begins phase | takesStatus phase | hasStatuses phase | takesSnapshot phase
  | hasSnapshots phase | returns phase | handsSnapshots phase | handsStatuses phase
  | replied phase =>
    rw [phase] at ended
    cases ended

theorem attends_step (left : w.phase.attends l = false) (reply : SendReply) :
    (w.step reply).phase.attends l = false := by
  have moves := moves_step reply w
  generalize w.step reply = w' at moves ⊢
  cases moves with
  | closes =>
    rw [phase_leave]
    rfl
  | rests => exact left
  | ends phase | begins phase | takesStatus phase | hasStatuses phase | takesSnapshot phase
  | hasSnapshots phase | returns phase | handsSnapshots phase | handsStatuses phase
  | replied phase | leaves phase =>
    rw [phase] at left
    cases left

end DeliveryWorker

/-! A whole run. -/

namespace Delivery

variable {d : Delivery σ τ} {l : Lane} {event : DeliveryEvent σ τ} {capacity : Nat}

theorem worker_work (reply : SendReply) (d : Delivery σ τ) :
    (d.take (.work reply)).worker = d.worker.step reply := rfl

theorem flow_take (sound : d.worker.Sound capacity) (event : DeliveryEvent σ τ) (l : Lane) :
    (d.take event).worker.flow l = d.worker.flow l ++
      if (d.worker.queue l).accepts then (event.pushed? l).toList else [] := by
  rcases event.working with ⟨reply, rfl⟩ | passive
  · rw [worker_work, DeliveryWorker.flow_step sound, pushed?_of_isWork rfl]
    simp
  · unfold DeliveryWorker.flow DeliveryWorker.handedOf
    rw [(handed_take d passive).1, phase_take d passive, queue_take d passive]
    cases event.pushed? l with
    | none => simp
    | some e => simp [DeliveryQueue.remaining_push]

theorem sound_take (sound : d.worker.Sound capacity) (event : DeliveryEvent σ τ) :
    (d.take event).worker.Sound capacity := by
  rcases event.working with ⟨reply, rfl⟩ | passive
  · exact DeliveryWorker.sound_step sound reply
  · constructor
    case queues =>
      intro l
      rw [phase_take d passive, queue_take d passive]
      cases event.pushed? l with
      | none => exact sound.queues l
      | some e => exact (sound.queues l).push e
    case length_drained_le => exact phase_take d passive ▸ sound.length_drained_le
    case batches => exact (handed_take d passive).1 ▸ sound.batches
    case told =>
      rw [phase_take d passive]
      intro ended
      cases event with
      | stop => rfl
      | work => cases passive
      | status | snapshot => exact sound.told ended
    case finished =>
      rw [phase_take d passive]
      cases event <;> first | exact sound.finished | cases passive

theorem sound_after (events : List (DeliveryEvent σ τ)) (sound : d.worker.Sound capacity) :
    (d.after events).worker.Sound capacity := by
  induction events generalizing d with
  | nil => exact sound
  | cons event rest ih => exact ih (sound_take sound event)

theorem flow_after (events : List (DeliveryEvent σ τ)) (sound : d.worker.Sound capacity)
    (l : Lane) : (d.after events).worker.flow l = d.worker.flow l ++ d.accepted l events := by
  induction events generalizing d with
  | nil => simp [after, accepted]
  | cons event rest ih =>
    calc ((d.take event).after rest).worker.flow l
        = (d.take event).worker.flow l ++ (d.take event).accepted l rest :=
          ih (sound_take sound event)
      _ = d.worker.flow l ++ d.accepted l (event :: rest) := by
        rw [flow_take sound, accepted, List.append_assoc]

theorem dropped_take (d : Delivery σ τ) (event : DeliveryEvent σ τ) (l : Lane) :
    (if (d.worker.queue l).accepts then (event.pushed? l).toList else []).length +
        ((d.take event).worker.queue l).dropped =
      (d.worker.queue l).dropped + (event.pushed? l).toList.length := by
  rcases event.working with ⟨reply, rfl⟩ | passive
  · rw [worker_work, DeliveryWorker.dropped_step, pushed?_of_isWork rfl]
    simp
  · rw [queue_take d passive]
    cases event.pushed? l with
    | none => simp
    | some e =>
      have push := DeliveryQueue.dropped_push e (d.worker.queue l)
      simp only [Option.elim_some, Option.toList_some, List.length_singleton]
      exact push

theorem dropped_after (events : List (DeliveryEvent σ τ)) (d : Delivery σ τ) (l : Lane) :
    (d.accepted l events).length + ((d.after events).worker.queue l).dropped =
      (d.worker.queue l).dropped + (pushes l events).length := by
  induction events generalizing d with
  | nil => simp [after, accepted, pushes]
  | cons event rest ih =>
    have first := dropped_take d event l
    have later := ih (d.take event)
    have split : (pushes l (event :: rest)).length =
        (event.pushed? l).toList.length + (pushes l rest).length := by
      unfold pushes
      cases pushed : event.pushed? l <;> simp [pushed]; omega
    rw [accepted, List.length_append, split]
    change _ + ((((d.take event).after rest).worker.queue l).dropped) = _
    omega

/-- The transport is done with every batch that has been handed over but the one that it has, and
there is a warning for each that it has not sent. -/
structure Tallied (d : Delivery σ τ) : Prop where
  once : d.handled.map (·.1) ++ d.worker.inTransport?.toList = d.worker.handed
  warned : d.worker.warnings.length = d.handled.countP fun e => e.2 ≠ .sent

theorem handled_stepOn (reply : SendReply) (d : Delivery σ τ) : (d.stepOn reply).handled =
    d.handled ++ d.worker.inTransport?.toList.map fun batch => (batch, SendOutcome.of reply) := by
  unfold stepOn
  cases d.worker.inTransport? <;> simp

theorem tallied_take (tallied : d.Tallied) (event : DeliveryEvent σ τ) :
    (d.take event).Tallied := by
  cases event with
  | work reply =>
    obtain ⟨next, handed, transport⟩ := d.worker.handed_step reply
    constructor
    case once =>
      change (d.stepOn reply).handled.map _ ++ (d.worker.step reply).inTransport?.toList =
        (d.worker.step reply).handed
      rw [handled_stepOn, handed, transport, ← tallied.once, List.map_append, List.map_map]
      simp [Function.comp_def]
    case warned =>
      change (d.worker.step reply).warnings.length = (d.stepOn reply).handled.countP _
      rw [DeliveryWorker.warnings_step, handled_stepOn, tallied.warned, List.countP_append]
      cases d.worker.inTransport? <;> simp
  | status | snapshot | stop => exact ⟨tallied.once, tallied.warned⟩

theorem tallied_after (events : List (DeliveryEvent σ τ)) (tallied : d.Tallied) :
    (d.after events).Tallied := by
  induction events generalizing d with
  | nil => exact tallied
  | cons event rest ih => exact ih (tallied_take tallied event)

theorem handed_take_append (d : Delivery σ τ) (event : DeliveryEvent σ τ) :
    d.worker.handed <+: (d.take event).worker.handed := by
  rcases event.working with ⟨reply, rfl⟩ | passive
  · obtain ⟨next, handed, -⟩ := d.worker.handed_step reply
    exact handed ▸ List.prefix_append _ _
  · exact (handed_take d passive).1 ▸ List.prefix_rfl

theorem handed_after_append (events : List (DeliveryEvent σ τ)) (d : Delivery σ τ) :
    d.worker.handed <+: (d.after events).worker.handed := by
  induction events generalizing d with
  | nil => exact List.prefix_rfl
  | cons event rest ih => exact (handed_take_append d event).trans (ih (d.take event))

theorem isOver_after (events : List (DeliveryEvent σ τ)) (ended : d.worker.phase.isOver = true) :
    (d.after events).worker.phase.isOver = true ∧
      (d.after events).worker.handed = d.worker.handed := by
  induction events generalizing d with
  | nil => exact ⟨ended, rfl⟩
  | cons event rest ih =>
    have still : (d.take event).worker.phase.isOver = true ∧
        (d.take event).worker.handed = d.worker.handed := by
      rcases event.working with ⟨reply, rfl⟩ | passive
      · exact DeliveryWorker.step_of_isOver ended reply
      · exact ⟨phase_take d passive ▸ ended, (handed_take d passive).1⟩
    obtain ⟨later, handed⟩ := ih still.1
    exact ⟨later, handed.trans still.2⟩

theorem attends_after (events : List (DeliveryEvent σ τ))
    (left : d.worker.phase.attends l = false) :
    (d.after events).worker.phase.attends l = false := by
  induction events generalizing d with
  | nil => exact left
  | cons event rest ih =>
    refine ih ?_
    rcases event.working with ⟨reply, rfl⟩ | passive
    · exact DeliveryWorker.attends_step left reply
    · exact phase_take d passive ▸ left

theorem accepted_of_left (events : List (DeliveryEvent σ τ)) (sound : d.worker.Sound capacity)
    (left : d.worker.phase.attends l = false) : d.accepted l events = [] := by
  induction events generalizing d with
  | nil => rfl
  | cons event rest ih =>
    have refused := (sound.queues l).accepts_eq_false_iff.mpr (Or.inl left)
    rw [accepted, refused]
    exact ih (sound_take sound event) (attends_after [event] left)

end Delivery
end LiveProbe
