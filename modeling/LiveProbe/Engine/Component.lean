import LiveProbe.Engine.Configuration

/-!
The engine as a whole: how it is put together, started on its host, and shut down.
-/
namespace LiveProbe

namespace Engine

def bare (number : Nat) (s : Settings) (origin : Origin) : Engine where
  hooks := { manager := number, untargeted := s.untargetedTracing }
  probes := { limiters := { clock := origin.clock } }
  reporter := s.reporter origin
  propagate := s.propagate

def complete (number : Nat) (s : Settings) (origin : Origin) : Engine :=
  { bare number s origin with
    code := some {}
    delivery := some (.ofCapacity s.delivery.queueCapacity.toNat s.delivery.stopTimeoutMs) }

def build? (number : Nat) (s : Settings) (origin : Origin) : Option Engine :=
  if s.enabled then some (complete number s origin) else none

end Engine

namespace Setup

def start (s : Setup) : Setup := s.track.subscribe

def settleDelivery (s : Setup) : Setup :=
  { s with engine := { s.engine with delivery := s.engine.delivery.map Delivery.settle } }

def stopDelivery (s : Setup) : Setup :=
  match s.engine.delivery with
  | none => s
  | some delivery =>
    let (warnings, delivery) := delivery.stop
    { s with
      engine := { s.engine with delivery := some delivery }, warnings := s.warnings ++ warnings }

def shutdown (s : Setup) : Setup := s.closeProbes.untrack.stopDelivery

end Setup
end LiveProbe
