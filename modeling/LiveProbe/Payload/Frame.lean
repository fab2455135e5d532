import LiveProbe.Json.Compact
import LiveProbe.Json.Decode

/-! A frame of the call stack that is sent along with a snapshot. -/
namespace LiveProbe

structure StackFrame where
  file : String
  function : String
  line : UInt32
  deriving DecidableEq, Repr, Inhabited

namespace StackFrame

def encode (f : StackFrame) : Json :=
  .object [("fileName", .string f.file), ("function", .string f.function),
    ("lineNumber", .nat f.line.toNat)]

open Json Outline in
def decode? (levels : Nat) (o : Outline) : Option StackFrame := do
  let [file, function, line] ← record? ["fileName", "function", "lineNumber"] levels o | none
  return {
    file := ← required string? file
    function := ← required string? function
    line := ← required uint32? line }

end StackFrame
end LiveProbe
