/-!
Errors of the engine, by cause. Callers tell them apart by their constructor; the wording is in
one place.
-/
namespace LiveProbe

inductive Error where
  /-- The type, method or unit to hook does not exist yet, so that the hook can be kept waiting. -/
  | targetNotDefined (detail : String)
  | untargetedTracingDisallowed (target : String)
  | malformedConfig (detail : String)
  | agentCommunication (detail : String)
  | unknownProbeType (probe : String)
  | multipleLines (probe : String)
  | install (detail : String)
  | internal (detail : String)
  deriving DecidableEq, Repr

namespace Error

def message : Error → String
  | .targetNotDefined detail => "Target not defined: " ++ detail
  | .untargetedTracingDisallowed target =>
    "Cannot hook " ++ target ++
      ": code tracking is inactive and untargeted tracing is disallowed"
  | .malformedConfig detail => "Malformed probe configuration: " ++ detail
  | .agentCommunication detail => "Agent communication error: " ++ detail
  | .unknownProbeType probe => "Unknown probe type: " ++ probe
  | .multipleLines probe => "Probe " ++ probe ++ " targets multiple lines"
  | .install detail => "Hook installation failed: " ++ detail
  | .internal detail => "Internal error: " ++ detail

def isTargetNotDefined : Error → Bool
  | .targetNotDefined _ => true
  | _ => false

end Error
end LiveProbe
