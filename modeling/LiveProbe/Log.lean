import LiveProbe.Text.Front

/-!
Log lines. Every record that the logger's level admits is written after the tag of the engine;
the time is given only by a talkative logger, the level also where there is a problem, and the
target where the record does not come from the engine. A terminal may show the level in its colour.
-/
namespace LiveProbe

inductive LogLevel where
  | error
  | warn
  | info
  | debug
  | trace
  deriving DecidableEq, Repr

inductive LogColour where
  | red
  | yellow
  | blue
  | cyan
  | white
  deriving DecidableEq, Repr

/-- What sets a colour of the output and what takes it back; by default the output has no colours. -/
structure Palette where
  start : LogColour → String := fun _ => ""
  stop : String := ""

structure LogRecord where
  level : LogLevel
  target : String
  text : String

structure Logger where
  maxLevel : Option LogLevel

namespace LogLevel

def rank : LogLevel → Nat
  | .error => 1
  | .warn => 2
  | .info => 3
  | .debug => 4
  | .trace => 5

def column : LogLevel → String
  | .error => "ERROR"
  | .warn => "WARN "
  | .info => "INFO "
  | .debug => "DEBUG"
  | .trace => "TRACE"

def colour : LogLevel → LogColour
  | .error => .red
  | .warn => .yellow
  | .info => .blue
  | .debug => .cyan
  | .trace => .white

end LogLevel

namespace Logger

def tag : String := "[probekit]"

def engineTarget : String := "probekit"

def rank (l : Logger) : Nat := (l.maxLevel.map LogLevel.rank).getD 0

def enabled (l : Logger) (level : LogLevel) : Bool := level.rank ≤ l.rank

def verbose (l : Logger) : Bool := LogLevel.debug.rank ≤ l.rank

def showsLevel (l : Logger) (level : LogLevel) : Bool :=
  l.verbose || level.rank ≤ LogLevel.warn.rank

def isEngine (target : String) : Bool := Text.startsWith engineTarget.toList target.toList

def mark (palette : Palette) (level : LogLevel) : String :=
  palette.start level.colour ++ (level.column ++ " ") ++ palette.stop

def heading (l : Logger) (time : String) (r : LogRecord) (palette : Palette := {}) : String :=
  (if l.verbose then time ++ " " else "") ++
    (if l.showsLevel r.level then mark palette r.level else "") ++
    (if isEngine r.target then "" else r.target ++ ": ")

def line (l : Logger) (time : String) (r : LogRecord) (palette : Palette := {}) : String :=
  tag ++ " " ++ l.heading time r palette ++ r.text ++ "\n"

def write (l : Logger) (records : List (String × LogRecord)) (palette : Palette := {}) : String :=
  String.join ((records.filter fun r => l.enabled r.2.level).map fun r => l.line r.1 r.2 palette)

end Logger
end LiveProbe
