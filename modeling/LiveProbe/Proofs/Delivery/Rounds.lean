import LiveProbe.Proofs.Delivery.Protocol

/-!
The rounds of the delivery worker. A round comes to its end after a bounded number of steps of the
worker, whatever the transport makes of the batches, and takes along what was queued when it began.
Main statement: how a delivery is conducted, over all orders of its events.
-/
namespace LiveProbe

variable {σ τ : Type}

def WorkerPhase.fills : Lane → WorkerPhase σ τ → Bool
  | _, .starting => true
  | _, .drainingStatuses _ => true
  | .snapshots, .drainingSnapshots _ _ => true
  | _, _ => false

def WorkerPhase.unleft : WorkerPhase σ τ → Nat
  | .leaving => 2
  | .closing _ => 1
  | _ => 0

namespace WorkerPhase

variable {phase : WorkerPhase σ τ} {l : Lane}

theorem unleft_le (phase : WorkerPhase σ τ) : phase.unleft ≤ 2 := by
  unfold unleft
  split <;> omega

theorem not_attends_of_unleft (ended : phase.isOver = true) (none : phase.unleft = 0) (l : Lane) :
    phase.attends l = false := by
  cases phase with
  | ended => rfl
  | leaving | closing => simp [unleft] at none
  | _ => cases ended

theorem isOver_of_not_attends (left : phase.attends l = false) : phase.isOver = true := by
  cases phase <;> first | rfl | cases left

end WorkerPhase

namespace DeliveryWorker

variable {w : DeliveryWorker σ τ} {l : Lane}

/-- How many events of a queue are handed over by the end of the round, if no more are pushed. -/
def reach (w : DeliveryWorker σ τ) (l : Lane) : Nat :=
  (w.handedOf l).length +
    if w.phase.fills l then
      min (w.queue l).capacity ((w.phase.drained l).length + (w.queue l).items.length)
    else (w.phase.drained l).length

/-- A bound on the steps to the end of the round. -/
def left (w : DeliveryWorker σ τ) : Nat :=
  match w.phase with
  | .starting => w.statuses.capacity + w.snapshots.capacity + 8
  | .drainingStatuses taken => w.statuses.capacity - taken.length + w.snapshots.capacity + 7
  | .drainingSnapshots _ taken => w.snapshots.capacity - taken.length + 6
  | .handing statuses snapshots =>
    1 + (if statuses.isEmpty then 0 else 2) + (if snapshots.isEmpty then 0 else 2)
  | .sending _ snapshots => 2 + if snapshots.isEmpty then 0 else 2
  | .leaving | .closing _ | .ended => 0

def GoesOn (w : DeliveryWorker σ τ) : Prop := w.stopping = false ∧ w.phase.isOver = false

theorem goesOn_step (goesOn : w.GoesOn) (reply : SendReply) : (w.step reply).GoesOn := by
  obtain ⟨stopping, going⟩ := goesOn
  have moves := moves_step reply w
  generalize w.step reply = w' at moves ⊢
  cases moves with
  | ends _ told => simp [told] at stopping
  | leaves phase | closes phase | rests phase =>
    rw [phase] at going
    cases going
  | _ => exact ⟨stopping, rfl⟩

theorem left_pos (goesOn : w.GoesOn) : 0 < w.left := by
  have going := goesOn.2
  unfold left
  cases phase : w.phase with
  | leaving | closing | ended =>
    rw [phase] at going
    cases going
  | _ => simp only; omega

theorem left_le {capacity : Nat} (sound : w.Sound capacity) : w.left ≤ 2 * capacity + 8 := by
  have statuses : w.statuses.capacity = capacity := (sound.queues .statuses).capacity_eq
  have snapshots : w.snapshots.capacity = capacity := (sound.queues .snapshots).capacity_eq
  unfold left
  split <;> (try split) <;> (try split) <;> omega

theorem left_step (goesOn : w.GoesOn) (busy : w.phase ≠ .handing [] []) (reply : SendReply) :
    (w.step reply).left < w.left := by
  have moves := moves_step reply w
  generalize w.step reply = w' at moves ⊢
  cases moves with
  | ends _ told => simp [goesOn.1] at told
  | leaves phase | closes phase | rests phase => simp [GoesOn, WorkerPhase.isOver, phase] at goesOn
  | returns phase => exact absurd phase busy
  | takesStatus phase next | takesSnapshot phase next =>
    obtain ⟨rest, -, rfl, room⟩ := nextOf_eq_some next
    simp only [left, phase, List.length_append, List.length_singleton]
    omega
  | begins phase | replied phase => simp [left, phase]
  | hasStatuses phase =>
    simp only [left, phase, List.length_nil]
    omega
  | hasSnapshots phase =>
    simp only [left, phase]
    split <;> split <;> omega
  | handsSnapshots phase some | handsStatuses phase some =>
    simp [left, hand, phase, some]

theorem min_le_of_nextOf_eq_none {α : Type} {taken : List α} {q : DeliveryQueue α}
    (done : nextOf taken q = none) :
    min q.capacity (taken.length + q.items.length) ≤ taken.length := by
  rcases nextOf_eq_none done with full | empty
  · exact Nat.le_trans (Nat.min_le_left _ _) full
  · rw [empty]
    exact Nat.min_le_right _ _

theorem reach_step {capacity : Nat} (sound : w.Sound capacity) (goesOn : w.GoesOn)
    (reply : SendReply) (l : Lane) : w.reach l ≤ (w.step reply).reach l := by
  have drained := sound.length_drained_le l
  have capacities := (sound.queues l).capacity_eq
  have moves := moves_step reply w
  generalize w.step reply = w' at moves ⊢
  unfold reach handedOf
  cases moves with
  | ends _ told => simp [goesOn.1] at told
  | leaves phase | closes phase => simp [GoesOn, WorkerPhase.isOver, phase] at goesOn
  | rests phase => exact Nat.le_refl _
  | begins phase | returns phase | replied phase =>
    cases l <;> simp [phase, queue, WorkerPhase.fills, WorkerPhase.drained]
  | takesStatus phase next | takesSnapshot phase next =>
    obtain ⟨rest, items, rfl, room⟩ := nextOf_eq_some next
    cases l <;> simp [phase, items, queue, WorkerPhase.fills, WorkerPhase.drained]
    all_goals omega
  | hasStatuses phase done | hasSnapshots phase done =>
    rw [phase]
    cases l <;> first
      | exact Nat.le_refl _
      | exact Nat.add_le_add_left (min_le_of_nextOf_eq_none done) _
  | handsSnapshots phase some | handsStatuses phase some =>
    cases l <;> simp [hand, phase, WorkerPhase.fills, WorkerPhase.drained, Batch.eventsOf]

theorem reach_of_starting {capacity : Nat} (sound : w.Sound capacity)
    (starting : w.phase = .starting)
    (l : Lane) : w.reach l = (w.flow l).length := by
  have drained : w.phase.drained l = [] := by
    rw [starting]
    cases l <;> rfl
  have queue := sound.queues l
  have kept : (w.queue l).discarded = [] := queue.kept (by rw [starting]; rfl)
  have items := queue.length_items_le
  have fills : w.phase.fills l = true := by rw [starting]; cases l <;> rfl
  simp only [reach, flow, fills, drained, kept, queue.capacity_eq, DeliveryQueue.remaining,
    List.length_append, List.length_nil, if_true]
  omega

theorem reach_of_handing_nil (finished : w.phase = .handing [] []) (l : Lane) :
    w.reach l = (w.handedOf l).length := by
  unfold reach
  rw [finished]
  cases l <;> rfl

theorem unleft_step (ended : w.phase.isOver = true) (reply : SendReply) :
    (w.step reply).phase.unleft = w.phase.unleft - 1 := by
  have moves := moves_step reply w
  generalize w.step reply = w' at moves ⊢
  cases moves with
  | leaves phase | closes phase => rw [phase_leave, phase]; rfl
  | rests phase => rw [phase]; rfl
  | ends phase | begins phase | takesStatus phase | hasStatuses phase | takesSnapshot phase
  | hasSnapshots phase | returns phase | handsSnapshots phase | handsStatuses phase
  | replied phase =>
    rw [phase] at ended
    cases ended

end DeliveryWorker

namespace Delivery

variable {d : Delivery σ τ} {l : Lane} {event : DeliveryEvent σ τ}

theorem after_append (before later : List (DeliveryEvent σ τ)) (d : Delivery σ τ) :
    d.after (before ++ later) = (d.after before).after later := by
  simp [after, List.foldl_append]

theorem works_append (before later : List (DeliveryEvent σ τ)) :
    works (before ++ later) = works before + works later := by
  simp [works]

theorem works_work (reply : SendReply) (events : List (DeliveryEvent σ τ)) :
    works (.work reply :: events) = works events + 1 :=
  List.countP_cons_of_pos rfl

theorem goesOn_take (goesOn : d.worker.GoesOn) (event : DeliveryEvent σ τ)
    (noStop : event.isStop = false) :
    (d.take event).worker.GoesOn := by
  cases event with
  | work reply => exact DeliveryWorker.goesOn_step goesOn reply
  | stop => cases noStop
  | status | snapshot => exact goesOn

theorem left_take (passive : event.isWork = false) :
    (d.take event).worker.left = d.worker.left := by
  cases event with
  | work => cases passive
  | stop => rfl
  | status e | snapshot e =>
    simp only [take, pushStatus, pushSnapshot, DeliveryWorker.pushStatus,
      DeliveryWorker.pushSnapshot, DeliveryWorker.left, DeliveryQueue.capacity_push]

theorem reach_take {capacity : Nat} (sound : d.worker.Sound capacity) (goesOn : d.worker.GoesOn)
    (event : DeliveryEvent σ τ) (l : Lane) : d.worker.reach l ≤ (d.take event).worker.reach l := by
  rcases event.working with ⟨reply, rfl⟩ | passive
  · exact DeliveryWorker.reach_step sound goesOn reply l
  · unfold DeliveryWorker.reach DeliveryWorker.handedOf
    rw [(handed_take d passive).1, phase_take d passive, queue_take d passive]
    cases event.pushed? l with
    | none => exact Nat.le_refl _
    | some e =>
      rw [Option.elim_some, DeliveryQueue.push_eq, DeliveryQueue.items_push]
      simp only [List.length_append]
      split <;> omega

theorem goesOn_after (events : List (DeliveryEvent σ τ)) (goesOn : d.worker.GoesOn)
    (noStop : ∀ event ∈ events, event.isStop = false) : (d.after events).worker.GoesOn := by
  induction events generalizing d with
  | nil => exact goesOn
  | cons event rest ih =>
    exact ih (goesOn_take goesOn event (noStop event List.mem_cons_self))
      fun other mem => noStop other (List.mem_cons_of_mem _ mem)

theorem reach_after {capacity : Nat} (events : List (DeliveryEvent σ τ))
    (sound : d.worker.Sound capacity) (goesOn : d.worker.GoesOn)
    (noStop : ∀ event ∈ events, event.isStop = false) (l : Lane) :
    d.worker.reach l ≤ (d.after events).worker.reach l := by
  induction events generalizing d with
  | nil => exact Nat.le_refl _
  | cons event rest ih =>
    have goesOn' := goesOn_take goesOn event (noStop event List.mem_cons_self)
    exact Nat.le_trans (reach_take sound goesOn event l) (ih (sound_take sound event) goesOn'
      fun other mem => noStop other (List.mem_cons_of_mem _ mem))

theorem round_ends (events : List (DeliveryEvent σ τ)) (goesOn : d.worker.GoesOn)
    (noStop : ∀ event ∈ events, event.isStop = false) (enough : d.worker.left ≤ works events) :
    ∃ before reply later, events = before ++ .work reply :: later ∧
      works before < d.worker.left ∧ (d.after before).worker.phase = .handing [] [] := by
  induction events generalizing d with
  | nil => exact absurd enough (Nat.not_le.2 (DeliveryWorker.left_pos goesOn))
  | cons event rest ih =>
    have goesOn' := goesOn_take goesOn event (noStop event List.mem_cons_self)
    have noStop' : ∀ other ∈ rest, other.isStop = false :=
      fun other mem => noStop other (List.mem_cons_of_mem _ mem)
    rcases event.working with ⟨reply, rfl⟩ | passive
    · by_cases finished : d.worker.phase = .handing [] []
      · exact ⟨[], reply, rest, rfl, DeliveryWorker.left_pos goesOn, finished⟩
      · have less : (d.take (.work reply)).worker.left < d.worker.left :=
          DeliveryWorker.left_step goesOn finished reply
        have left : (d.take (.work reply)).worker.left ≤ works rest := by
          rw [works_work] at enough
          omega
        obtain ⟨before, reply', later, rfl, bound, finished⟩ := ih goesOn' noStop' left
        refine ⟨.work reply :: before, reply', later, rfl, ?_, finished⟩
        rw [works_work]
        omega
    · have same := left_take (d := d) passive
      have left : (d.take event).worker.left ≤ works rest := by
        simpa [works, passive, same] using enough
      obtain ⟨before, reply, later, rfl, bound, finished⟩ := ih goesOn' noStop' left
      exact ⟨event :: before, reply, later, rfl, by simpa [works, passive, same] using bound,
        finished⟩

theorem starting_of_round_over (finished : d.worker.phase = .handing [] []) (reply : SendReply) :
    (d.take (.work reply)).worker.phase = .starting := by
  change (d.worker.step reply).phase = .starting
  simp [DeliveryWorker.step, finished]

theorem handedOf_prefix_flow (w : DeliveryWorker σ τ) (l : Lane) : w.handedOf l <+: w.flow l := by
  rw [DeliveryWorker.flow, List.append_assoc]
  exact List.prefix_append _ _

theorem handedOf_after_append (before later : List (DeliveryEvent σ τ)) (d : Delivery σ τ)
    (l : Lane) :
    (d.after before).worker.handedOf l <+: (d.after (before ++ later)).worker.handedOf l := by
  rw [after_append]
  obtain ⟨more, eq⟩ := handed_after_append later (d.after before)
  exact ⟨more.flatMap (Batch.eventsOf l), by simp [DeliveryWorker.handedOf, ← eq]⟩

/-- A round that is about to begin hands over all that a queue has let in by then. -/
theorem flow_delivered_of_starting {capacity : Nat} (events : List (DeliveryEvent σ τ))
    (sound : d.worker.Sound capacity) (goesOn : d.worker.GoesOn)
    (starting : d.worker.phase = .starting) (noStop : ∀ event ∈ events, event.isStop = false)
    (enough : 2 * capacity + 8 ≤ works events) (l : Lane) :
    d.worker.flow l <+: (d.after events).worker.handedOf l := by
  have bound := DeliveryWorker.left_le sound
  obtain ⟨during, reply, last, rfl, -, finished⟩ := round_ends events goesOn noStop (by omega)
  have noStopDuring := fun event mem => noStop event (List.mem_append_left _ mem)
  have handed : (d.worker.flow l).length ≤ ((d.after during).worker.handedOf l).length := by
    calc (d.worker.flow l).length
        = d.worker.reach l := (DeliveryWorker.reach_of_starting sound starting l).symm
      _ ≤ (d.after during).worker.reach l := reach_after during sound goesOn noStopDuring l
      _ = ((d.after during).worker.handedOf l).length :=
        DeliveryWorker.reach_of_handing_nil finished l
  have later := handedOf_after_append during (.work reply :: last) d l
  have whole : d.worker.flow l <+: (d.after (during ++ .work reply :: last)).worker.flow l := by
    rw [flow_after _ sound]
    exact List.prefix_append _ _
  exact List.prefix_of_prefix_length_le whole (handedOf_prefix_flow _ l)
    (Nat.le_trans handed later.length_le)

/-- Two rounds are enough to hand over all that a queue has let in: the one under way comes to its
end, and the next one takes along what is queued by then. -/
theorem flow_delivered {capacity : Nat} (events : List (DeliveryEvent σ τ))
    (sound : d.worker.Sound capacity) (goesOn : d.worker.GoesOn)
    (noStop : ∀ event ∈ events, event.isStop = false) (enough : 4 * capacity + 16 ≤ works events)
    (l : Lane) : d.worker.flow l <+: (d.after events).worker.handedOf l := by
  have bound := DeliveryWorker.left_le sound
  obtain ⟨before, reply, rest, rfl, ended, finished⟩ := round_ends events goesOn noStop (by omega)
  rw [works_append, works_work] at enough
  have noStopBefore := fun event mem => noStop event (List.mem_append_left _ mem)
  have noStopRest := fun event mem =>
    noStop event (List.mem_append_right _ (List.mem_cons_of_mem _ mem))
  have soundBefore := sound_after before sound
  have goesOnBefore := goesOn_after before goesOn noStopBefore
  have grown : d.worker.flow l <+: ((d.after before).take (.work reply)).worker.flow l := by
    rw [flow_take soundBefore, flow_after before sound, List.append_assoc]
    exact List.prefix_append _ _
  have next := flow_delivered_of_starting rest (sound_take soundBefore (.work reply))
    (goesOn_take goesOnBefore (.work reply) rfl) (starting_of_round_over finished reply) noStopRest
    (by omega) l
  rw [after_append]
  exact grown.trans next

/-- Up to the next step of the worker nothing but pushes and requests to stop can come. -/
theorem exists_next_work (events : List (DeliveryEvent σ τ)) (d : Delivery σ τ)
    (enough : 0 < works events) :
    ∃ (s : Delivery σ τ) (reply : SendReply) (rest : List (DeliveryEvent σ τ)),
      d.after events = (s.take (.work reply)).after rest ∧ works events = works rest + 1 ∧
        s.worker.phase = d.worker.phase ∧ s.worker.handed = d.worker.handed := by
  induction events generalizing d with
  | nil => simp [works] at enough
  | cons event rest ih =>
    rcases event.working with ⟨reply, rfl⟩ | passive
    · exact ⟨d, reply, rest, rfl, works_work reply rest, rfl, rfl⟩
    · have same : works (event :: rest) = works rest := by simp [works, passive]
      obtain ⟨s, reply, last, after, count, phase, handed⟩ := ih (d.take event) (same ▸ enough)
      exact ⟨s, reply, last, after, same.trans count, phase.trans (phase_take d passive),
        handed.trans (handed_take d passive).1⟩

/-- The snapshots of a round are handed over once the transport is done with its statuses, whatever
it replies, and even if the worker has been told to stop by then. -/
theorem snapshots_follow {batch : Batch σ τ} {snapshots : List τ}
    (events : List (DeliveryEvent σ τ)) (sending : d.worker.phase = .sending batch snapshots)
    (some : snapshots ≠ []) (enough : 2 ≤ works events) :
    d.worker.handed ++ [.snapshots snapshots] <+: (d.after events).worker.handed := by
  obtain ⟨s, reply, rest, after, count, phase, handed⟩ := exists_next_work events d (by omega)
  -- the transport replies
  have done : (s.take (.work reply)).worker.phase = .handing [] snapshots ∧
      (s.take (.work reply)).worker.handed = d.worker.handed := by
    obtain ⟨warning, returned, -⟩ := DeliveryWorker.dispatch_returns batch reply
    rw [sending] at phase
    rw [worker_work, DeliveryWorker.step, phase]
    simp [returned, handed]
  obtain ⟨s', reply', last, after', -, phase', handed'⟩ :=
    exists_next_work rest (s.take (.work reply)) (by omega)
  -- the worker hands the snapshots over
  have next : (s'.take (.work reply')).worker.handed =
      d.worker.handed ++ [.snapshots snapshots] := by
    rw [done.1] at phase'
    rw [done.2] at handed'
    obtain ⟨e, more, rfl⟩ := List.exists_cons_of_ne_nil some
    simp [worker_work, DeliveryWorker.step, phase', DeliveryWorker.hand, handed']
  rw [after, after', ← next]
  exact handed_after_append last _

theorem unleft_after (events : List (DeliveryEvent σ τ)) (ended : d.worker.phase.isOver = true) :
    (d.after events).worker.phase.unleft = d.worker.phase.unleft - works events := by
  induction events generalizing d with
  | nil => rfl
  | cons event rest ih =>
    have later := ih (d := d.take event) (isOver_after [event] ended).1
    change ((d.take event).after rest).worker.phase.unleft = _
    rcases event.working with ⟨reply, rfl⟩ | passive
    · rw [later, worker_work, DeliveryWorker.unleft_step ended, works_work]
      omega
    · rw [later, phase_take d passive]
      simp [works, passive]

theorem left_after (events : List (DeliveryEvent σ τ)) (ended : d.worker.phase.isOver = true)
    (enough : 2 ≤ works events) (l : Lane) :
    (d.after events).worker.phase.attends l = false := by
  have unleft := unleft_after events ended
  have started : d.worker.phase.unleft ≤ 2 := WorkerPhase.unleft_le d.worker.phase
  exact WorkerPhase.not_attends_of_unleft (isOver_after events ended).1 (by omega) l

/-- What can be relied on after some events, for all orders in which pushes, steps of the worker,
replies of the transport and requests to stop come. -/
structure Conducted (capacity : Nat) (start : Delivery σ τ) (events : List (DeliveryEvent σ τ)) :
    Prop where
  /-- Nothing is lost, doubled or put in another order on the way. -/
  conserved : ∀ l, (start.after events).worker.handedOf l ++
    (start.after events).worker.phase.drained l ++
    ((start.after events).worker.queue l).discarded ++ ((start.after events).worker.queue l).items =
      start.accepted l events
  counted : ∀ l, (start.accepted l events).length + ((start.after events).worker.queue l).dropped =
    (pushes l events).length
  refused : ∀ l, ((start.after events).worker.queue l).accepts = false ↔
    ((start.after events).worker.queue l).attended = false ∨
      ((start.after events).worker.queue l).items.length = capacity
  /-- A queue is left when the loop is over, and not before; what is in it then is discarded. -/
  attended : ∀ l, ((start.after events).worker.queue l).attended = true ∧
      ((start.after events).worker.queue l).discarded = [] ∨
    ((start.after events).worker.queue l).attended = false ∧
      ((start.after events).worker.queue l).items = [] ∧
      (start.after events).worker.phase.isOver = true
  batches : ∀ batch ∈ (start.after events).worker.handed, batch.size ≠ 0 ∧ batch.size ≤ capacity
  once : (start.after events).handled.map (·.1) ++
    (start.after events).worker.inTransport?.toList = (start.after events).worker.handed
  warned : (start.after events).worker.warnings.length =
    (start.after events).handled.countP fun e => e.2 ≠ .sent
  /-- While the transport has the statuses of a round, its snapshots are sure to follow. -/
  unhindered : ∀ batch snapshots, (start.after events).worker.phase = .sending batch snapshots →
    snapshots ≠ [] → ∀ more, 2 ≤ works more →
      (start.after events).worker.handed ++ [.snapshots snapshots] <+:
        ((start.after events).after more).worker.handed
  /-- As long as the worker is not told to stop, all that was let in is handed over. -/
  delivered : (start.after events).worker.stopping = false → ∀ more,
    (∀ event ∈ more, event.isStop = false) → 4 * capacity + 16 ≤ works more →
      ∀ l, start.accepted l events <+: ((start.after events).after more).worker.handedOf l
  /-- Once the loop is over nothing is handed over, and the queues are about to be left. -/
  afterwards : (start.after events).worker.phase.isOver = true → ∀ more,
    ((start.after events).after more).worker.phase.isOver = true ∧
    ((start.after events).after more).worker.handed = (start.after events).worker.handed ∧
    (2 ≤ works more → ∀ l, (((start.after events).after more).worker.queue l).attended = false)
  /-- Once a queue has been left every push to it is counted. -/
  left : ∀ l, ((start.after events).worker.queue l).attended = false → ∀ more,
    (((start.after events).after more).worker.queue l).attended = false ∧
    (((start.after events).after more).worker.queue l).dropped =
      ((start.after events).worker.queue l).dropped + (pushes l more).length

def leavingFirst (first : Lane) (d : Delivery σ τ) : Delivery σ τ :=
  { d with worker := { d.worker with first } }

theorem sound_ofCapacity (capacity : Nat) (stopTimeoutMs : UInt64) (first : Lane) :
    ((ofCapacity capacity stopTimeoutMs : Delivery σ τ).leavingFirst first).worker.Sound
      capacity where
  queues l := by
    cases l <;> exact ⟨rfl, rfl, Nat.zero_le capacity, fun _ => rfl, nofun⟩
  length_drained_le l := by cases l <;> exact Nat.zero_le capacity
  batches := by simp [leavingFirst, ofCapacity, DeliveryWorker.ofCapacity]
  told ended := by cases ended
  finished := rfl

theorem conducted (capacity : Nat) (stopTimeoutMs : UInt64) (first : Lane)
    (events : List (DeliveryEvent σ τ)) :
    Conducted capacity ((ofCapacity capacity stopTimeoutMs).leavingFirst first) events := by
  have begun := sound_ofCapacity (σ := σ) (τ := τ) capacity stopTimeoutMs first
  generalize start : (ofCapacity capacity stopTimeoutMs : Delivery σ τ).leavingFirst first = d
    at begun ⊢
  have sound := sound_after events begun
  have nothing : ∀ l, d.worker.flow l = [] ∧ (d.worker.queue l).dropped = 0 := by
    rw [← start]
    intro l
    cases l <;> exact ⟨rfl, rfl⟩
  have conserved := fun l => flow_after events begun l
  have counted := fun l => dropped_after events d l
  simp only [(nothing _).1, (nothing _).2, List.nil_append, Nat.zero_add] at conserved counted
  have tallied : (d.after events).Tallied := by
    rw [← start]
    exact tallied_after events ⟨rfl, rfl⟩
  constructor
  case conserved =>
    intro l
    rw [← conserved l, DeliveryWorker.flow, DeliveryQueue.remaining,
      List.append_assoc _ _ (DeliveryQueue.items _)]
  case counted => exact counted
  case refused =>
    intro l
    rw [(sound.queues l).attended]
    exact (sound.queues l).accepts_eq_false_iff
  case attended =>
    intro l
    have queue := sound.queues l
    rw [queue.attended]
    cases live : (d.after events).worker.phase.attends l with
    | true => exact Or.inl ⟨rfl, queue.kept live⟩
    | false =>
      refine Or.inr ⟨rfl, queue.emptied live, ?_⟩
      exact WorkerPhase.isOver_of_not_attends live
  case batches => exact sound.batches
  case once => exact tallied.once
  case warned => exact tallied.warned
  case unhindered =>
    intro batch snapshots sending some more enough
    exact snapshots_follow more sending some enough
  case delivered =>
    intro unstopped more noStop enough l
    have goesOn : (d.after events).worker.GoesOn := by
      refine ⟨unstopped, Bool.eq_false_iff.mpr fun ended => ?_⟩
      rw [sound.told ended] at unstopped
      cases unstopped
    exact conserved l ▸ flow_delivered more sound goesOn noStop enough l
  case afterwards =>
    intro ended more
    obtain ⟨still, handed⟩ := isOver_after more ended
    refine ⟨still, handed, fun enough l => ?_⟩
    rw [((sound_after more sound).queues l).attended]
    exact left_after more ended enough l
  case left =>
    intro l gone more
    rw [(sound.queues l).attended] at gone
    have dropped := dropped_after more (d.after events) l
    rw [accepted_of_left more sound gone, List.length_nil, Nat.zero_add] at dropped
    rw [((sound_after more sound).queues l).attended]
    exact ⟨attends_after more gone, dropped⟩

/-- An event that is pushed between the end of the loop and the leaving of its queue is let in, and
then neither handed over, nor drained, nor queued, nor counted. So is one that is pushed after a
stop that has left the worker behind in the transport. -/
theorem conducted_discarded :
    let reply : SendReply := .returned (.ok ())
    let start : Delivery String String := ofCapacity 4 20
    let stopped : List (DeliveryEvent String String) := [.stop, .work reply]
    let more : List (DeliveryEvent String String) := [.status "b", .work reply, .work reply]
    let ended := (start.after (stopped ++ more)).worker
    let held : Delivery String String := { start with transport := { held := true } }
    let (warnings, behind) := (held.pushStatus "a").settle.stop
    let late := { behind.pushStatus "b" with transport := {} }.settle.worker
    ((start.after stopped).worker.phase.isOver = true ∧ (pushes .statuses more).length = 1 ∧
      start.accepted .statuses (stopped ++ more) = ["b"] ∧ ended.hasEnded = true ∧
      ended.handed = [] ∧ ended.phase.drained .statuses = [] ∧ ended.statuses.items = [] ∧
      ended.dropped = (0, 0)) ∧
    warnings.length = 1 ∧ behind.stopped = true ∧ late.hasEnded = true ∧
      late.handed = [.statuses ["a"]] ∧ late.statuses.items = [] ∧ late.dropped = (0, 0) := by
  decide

end Delivery
end LiveProbe
