import LiveProbe.Table

/-!
Rate limiting. A bucket holds tokens up to its capacity, whoever passes takes one, and time puts
tokens back. Time is counted in nanoseconds and tokens in billionths, so that the tokens that come
back in a second are the billionths that come back in a nanosecond.
-/
namespace LiveProbe

structure TokenBucket where
  capacity : Nat
  refillRate : Nat
  tokens : Nat
  lastUpdate : Nat := 0
  deriving DecidableEq, Repr

namespace TokenBucket

def token : Nat := 1000000000

def full (capacity refillRate : Nat) : TokenBucket :=
  { capacity := capacity * token, refillRate, tokens := capacity * token }

def perSecond (rate : Nat) : TokenBucket := full (max rate 1) rate

/-- A clock that goes back counts as one that stands still. -/
def refill (now : Nat) (b : TokenBucket) : TokenBucket :=
  { b with
    tokens := min (b.tokens + (now - b.lastUpdate) * b.refillRate) b.capacity
    lastUpdate := now }

def tryTake (cost now : Nat) (b : TokenBucket) : Bool × TokenBucket :=
  let b := b.refill now
  if cost ≤ b.tokens then (true, { b with tokens := b.tokens - cost }) else (false, b)

def tryAcquireAt (now : Nat) (b : TokenBucket) : Bool × TokenBucket := b.tryTake token now

end TokenBucket

def snapshotRate : Nat := 1

structure Limiter where
  bucket : TokenBucket := .perSecond snapshotRate
  asked : Nat := 0

/-- The limiters of probes, by serial number, and what the clock shows to each of them time after
time. -/
structure Limiters where
  used : List (Nat × Limiter) := []
  clock : Nat → Nat → Nat := fun _ _ => 0

namespace Limiters

def limiterOf (serial : Nat) (ls : Limiters) : Limiter := (Table.get? serial ls.used).getD {}

def ask (serial : Nat) (ls : Limiters) : Bool × Limiters :=
  let limiter := ls.limiterOf serial
  let (passes, bucket) := limiter.bucket.tryAcquireAt (ls.clock serial limiter.asked)
  (passes, { ls with used := Table.insert serial ⟨bucket, limiter.asked + 1⟩ ls.used })

theorem ask_of_other {serial other : Nat} (apart : other ≠ serial) (ls : Limiters) :
    ((ls.ask serial).2.ask other).1 = (ls.ask other).1 := by
  have kept : (ls.ask serial).2.limiterOf other = ls.limiterOf other := by
    simp [ask, limiterOf, Table.get?_insert_of_ne apart]
  have clock : (ls.ask serial).2.clock = ls.clock := rfl
  unfold ask at kept clock ⊢
  dsimp only at kept clock ⊢
  rw [kept]

end Limiters
end LiveProbe
