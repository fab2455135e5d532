import LiveProbe.Settings.Basic
import LiveProbe.Text.Blank
import LiveProbe.Text.Lowercase

/-!
Settings from the environment. A variable that is set takes precedence over the document, also
when it is empty, apart from the service's name.
-/
namespace LiveProbe

structure Environment where
  enabled : Option String := none
  redactedNames : Option String := none
  redactedTypes : Option String := none
  service : Option String := none

namespace Environment

def enabledName : String := "DD_INTERNAL_DYNAMIC_INSTRUMENTATION_ENABLED"

def trimmed (s : String) : String := String.ofList (Text.trim s.toList)

def readBool (s : String) : Option Bool :=
  let word := String.ofList (Text.lower (Text.trim s.toList))
  if ["1", "true", "yes", "on"].contains word then some true
  else if ["0", "false", "no", "off", ""].contains word then some false
  else none

def applyEnabled (e : Environment) (s : Settings) : Except SettingsError Settings :=
  match e.enabled with
  | none => .ok s
  | some text => match readBool text with
    | some b => .ok { s with enabled := b }
    | none => .error (.notBoolean enabledName text)

def service? (e : Environment) : Option String :=
  (e.service.map trimmed).filter (· ≠ "")

def apply (e : Environment) (s : Settings) : Except SettingsError Settings := do
  let s ← e.applyEnabled s
  return { s with
    redactedNames := (e.redactedNames.map Text.commaList).getD s.redactedNames
    redactedTypes := (e.redactedTypes.map Text.commaList).getD s.redactedTypes
    service := e.service?.getD s.service }

end Environment
end LiveProbe
