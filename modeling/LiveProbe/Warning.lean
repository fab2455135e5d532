import LiveProbe.Error
import LiveProbe.Hook.Target

/-! What the engine warns of, by cause. -/
namespace LiveProbe

inductive Warning where
  | previousHookStays (target : HookTarget) (e : Error)
  | pendingHookFailed (target : HookTarget) (e : Error)
  | hookStays (target : HookTarget) (e : Error)
  | probeFailed (probe : String)
  | probeStays (probe : String) (e : Error)
  | documentRefused (e : Error)
  | staleProbesStay (e : Error)
  | batchNotSent (size : Nat) (kind : String) (e : Error)
  | transportPanicked (size : Nat) (kind : String)
  | deliveryLeftBehind (timeoutMs : UInt64)
  | noticesDropped (statuses snapshots : Nat)

namespace Warning

def message : Warning → String
  | .previousHookStays target e =>
    "Could not remove previous hook on " ++ target.display ++ ": " ++ e.message
  | .pendingHookFailed target e =>
    "Could not install pending hook on " ++ target.display ++ ": " ++ e.message
  | .hookStays target e => "Could not remove hook on " ++ target.display ++ ": " ++ e.message
  | .probeFailed probe => "Probe " ++ probe ++ " failed while handling an execution"
  | .probeStays probe e => "Could not remove probe " ++ probe ++ ": " ++ e.message
  | .documentRefused e => "Could not apply probe configuration: " ++ e.message
  | .staleProbesStay e => "Could not remove stale probes: " ++ e.message
  | .batchNotSent size kind e =>
    "Could not send " ++ toString size ++ " " ++ kind ++ "(s): " ++ e.message
  | .transportPanicked size kind =>
    "Transport panicked sending " ++ toString size ++ " " ++ kind ++ "(s)"
  | .deliveryLeftBehind timeoutMs =>
    "Delivery worker did not stop within " ++ toString timeoutMs.toNat ++ "ms, leaving it behind"
  | .noticesDropped statuses snapshots =>
    "Dropped " ++ toString statuses ++ " status event(s) and " ++ toString snapshots ++
      " snapshot(s)"

end Warning
end LiveProbe
