/-!
A bounded queue in front of the delivery. It never makes the producer wait: what does not fit, or
comes when nobody takes items out any more, is refused and counted. What is queued when its receiver
goes is discarded with it.
-/
namespace LiveProbe

structure DeliveryQueue (α : Type) where
  capacity : Nat
  items : List α := []
  /-- Whether somebody still takes items out. -/
  attended : Bool := true
  dropped : Nat := 0
  /-- What was queued when the receiver went. -/
  discarded : List α := []

namespace DeliveryQueue

variable {α : Type}

def accepts (q : DeliveryQueue α) : Bool := q.attended && q.items.length < q.capacity

def push (a : α) (q : DeliveryQueue α) : DeliveryQueue α :=
  if q.accepts then { q with items := q.items ++ [a] } else { q with dropped := q.dropped + 1 }

def take? (q : DeliveryQueue α) : Option (α × DeliveryQueue α) :=
  match q.items with
  | [] => none
  | a :: rest => some (a, { q with items := rest })

/-- The receiver goes. What it leaves behind is not counted. -/
def abandon (q : DeliveryQueue α) : DeliveryQueue α :=
  { q with attended := false, items := [], discarded := q.items }

theorem length_push_le {q : DeliveryQueue α} (h : q.items.length ≤ q.capacity) (a : α) :
    (q.push a).items.length ≤ (q.push a).capacity := by
  unfold push accepts
  split
  · next ok => simp at ok ⊢; omega
  · exact h

end DeliveryQueue
end LiveProbe
