import LiveProbe.Probe.Groups
import Mathlib.Data.List.Basic

/-!
How often a limiter lets pass. Over any readings of a clock that does not go back, no more pass than
there were tokens at first and have come back since; the first to ask of a fresh limiter passes, and
whether the later ones do is up to the clock.
-/
namespace LiveProbe

namespace TokenBucket

variable {b : TokenBucket} {cost now : Nat}

def passes (cost : Nat) : List Nat → TokenBucket → List Bool
  | [], _ => []
  | now :: rest, b => (b.tryTake cost now).1 :: passes cost rest (b.tryTake cost now).2

theorem tryTake_of_le (enough : cost ≤ (b.refill now).tokens) :
    b.tryTake cost now =
      (true, { b.refill now with tokens := (b.refill now).tokens - cost }) :=
  if_pos enough

theorem tryTake_of_lt (few : (b.refill now).tokens < cost) :
    b.tryTake cost now = (false, b.refill now) :=
  if_neg (Nat.not_le_of_lt few)

theorem tryTake_full {capacity : Nat} (enough : cost ≤ capacity * token) (rate now : Nat) :
    ((full capacity rate).tryTake cost now).1 = true := by
  have left : cost ≤ ((full capacity rate).refill now).tokens :=
    Nat.le_min.mpr ⟨Nat.le_add_right_of_le enough, enough⟩
  rw [tryTake_of_le left]

theorem lastUpdate_tryTake (cost now : Nat) (b : TokenBucket) :
    (b.tryTake cost now).2.lastUpdate = now := by
  rcases Nat.lt_or_ge (b.refill now).tokens cost with few | enough
  · rw [tryTake_of_lt few]
    rfl
  · rw [tryTake_of_le enough]
    rfl

theorem refillRate_tryTake (cost now : Nat) (b : TokenBucket) :
    (b.tryTake cost now).2.refillRate = b.refillRate := by
  rcases Nat.lt_or_ge (b.refill now).tokens cost with few | enough
  · rw [tryTake_of_lt few]
    rfl
  · rw [tryTake_of_le enough]
    rfl

theorem tokens_tryTake (cost now : Nat) (b : TokenBucket) :
    (if (b.tryTake cost now).1 then cost else 0) + (b.tryTake cost now).2.tokens =
      (b.refill now).tokens := by
  rcases Nat.lt_or_ge (b.refill now).tokens cost with few | enough
  · rw [tryTake_of_lt few]
    exact Nat.zero_add _
  · rw [tryTake_of_le enough]
    exact Nat.add_sub_cancel' enough

theorem count_passes_le (cost : Nat) (readings : List Nat) :
    ∀ {b : TokenBucket}, (b.lastUpdate :: readings).Pairwise (· ≤ ·) →
      (passes cost readings b).count true * cost ≤
        b.tokens + (readings.getLastD b.lastUpdate - b.lastUpdate) * b.refillRate := by
  induction readings with
  | nil => exact fun _ => by simp [passes]
  | cons now rest ih =>
    intro b ascending
    obtain ⟨first, later⟩ := List.pairwise_cons.mp ascending
    have bound := ih (b := (b.tryTake cost now).2) (by rwa [lastUpdate_tryTake])
    rw [lastUpdate_tryTake, refillRate_tryTake] at bound
    have paid := tokens_tryTake cost now b
    have refilled : (b.refill now).tokens ≤
        b.tokens + (now - b.lastUpdate) * b.refillRate := Nat.min_le_left _ _
    have since : b.lastUpdate ≤ now := first now List.mem_cons_self
    have ahead : now ≤ rest.getLastD now := by
      cases rest with
      | nil => exact Nat.le_refl now
      | cons next rest =>
        rw [List.getLastD_cons]
        exact (List.pairwise_cons.mp later).1 _ List.getLastD_mem_cons
    have elapsed : (rest.getLastD now - b.lastUpdate) * b.refillRate =
        (now - b.lastUpdate) * b.refillRate + (rest.getLastD now - now) * b.refillRate := by
      rw [← Nat.add_mul, Nat.add_comm, Nat.sub_add_sub_cancel ahead since]
    rw [passes, List.getLastD_cons, elapsed, List.count_cons, Nat.add_mul]
    cases passed : (b.tryTake cost now).1 with
    | false =>
      simp only [passed, Bool.false_eq_true, if_false] at paid
      simp only [beq_true, Bool.false_eq_true, if_false]
      omega
    | true =>
      simp only [passed, if_true] at paid
      simp only [BEq.rfl, if_true]
      omega

theorem tryTake_again (single : b.capacity = cost) (passed : (b.tryTake cost now).1 = true)
    (later : Nat) : ((b.tryTake cost now).2.tryTake cost later).1 =
      decide (cost ≤ (later - now) * b.refillRate) := by
  have held : (b.refill now).tokens ≤ cost := single ▸ Nat.min_le_right _ _
  have enough : cost ≤ (b.refill now).tokens := by
    refine Nat.le_of_not_lt fun few => ?_
    rw [tryTake_of_lt few] at passed
    cases passed
  have emptied : ((b.tryTake cost now).2.refill later).tokens =
      min ((later - now) * b.refillRate) cost := by
    rw [tryTake_of_le enough]
    show min ((b.refill now).tokens - cost + (later - now) * b.refillRate) b.capacity = _
    rw [Nat.sub_eq_zero_of_le held, Nat.zero_add, single]
  by_cases back : cost ≤ (later - now) * b.refillRate
  · rw [tryTake_of_le (emptied ▸ Nat.le_min.mpr ⟨back, Nat.le_refl _⟩), decide_eq_true back]
  · rw [tryTake_of_lt (emptied ▸ Nat.lt_of_le_of_lt (Nat.min_le_left _ _) (Nat.lt_of_not_le back)),
      decide_eq_false back]

theorem exists_readings_of_emptied (answers : List Bool) {b : TokenBucket} (empty : b.tokens = 0)
    (single : b.capacity = token) (rate : b.refillRate = 1) :
    ∃ readings, (b.lastUpdate :: readings).Pairwise (· ≤ ·) ∧
      passes token readings b = answers := by
  induction answers generalizing b with
  | nil => exact ⟨[], List.pairwise_singleton _ _, rfl⟩
  | cons answer rest ih =>
    let now := b.lastUpdate + if answer then token else 0
    have refilled : (b.refill now).tokens = if answer then token else 0 := by
      cases answer <;> simp [refill, now, empty, single, rate]
    have taken : b.tryTake token now = (answer, { b.refill now with tokens := 0 }) := by
      cases answer with
      | true =>
        have full : (b.refill now).tokens = token := refilled
        rw [tryTake_of_le (Nat.le_of_eq full.symm), full, Nat.sub_self]
      | false =>
        have few : (b.refill now).tokens < token := refilled ▸ (by decide : 0 < token)
        rw [tryTake_of_lt few]
        exact congrArg (fun tokens => (false, { b.refill now with tokens })) refilled
    obtain ⟨readings, ascending, answers⟩ :=
      ih (b := { b.refill now with tokens := 0 }) rfl single rate
    have since : b.lastUpdate ≤ now := Nat.le_add_right _ _
    refine ⟨now :: readings, List.pairwise_cons.mpr ⟨fun later mem => ?_, ascending⟩, ?_⟩
    · rcases List.mem_cons.mp mem with rfl | mem
      · exact since
      · exact Nat.le_trans since ((List.pairwise_cons.mp ascending).1 later mem)
    · rw [passes, taken]
      exact congrArg (answer :: ·) answers

/-- A limiter may answer anything after the first time, with a clock that does not go back. So what
is so with every clock does not depend on how tokens are rounded. -/
theorem exists_readings (answers : List Bool) : ∃ readings : List Nat,
    readings.Pairwise (· ≤ ·) ∧
      passes token readings (perSecond snapshotRate) = true :: answers := by
  obtain ⟨readings, ascending, later⟩ := exists_readings_of_emptied answers
    (b := ((perSecond snapshotRate).tryTake token 0).2) rfl rfl rfl
  exact ⟨0 :: readings, ascending, congrArg (true :: ·) later⟩

example : passes token [0, 0, 500000000, 1100000000] (perSecond 1) =
    [true, false, false, true] := by
  decide

end TokenBucket

theorem Probes.takeTurn_of_fresh {k : KnownProbe} {ps : Probes}
    (fresh : ps.limiters.limiterOf k.serial = {}) : (ps.takeTurn k).1 = true := by
  unfold takeTurn
  cases k.probe.capturing with
  | false => rfl
  | true =>
    simp only [Bool.not_true, Bool.false_eq_true, if_false, Limiters.ask, fresh]
    exact TokenBucket.tryTake_full (Nat.le_of_eq (Nat.one_mul _).symm) _ _

end LiveProbe
