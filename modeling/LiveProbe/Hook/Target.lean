import LiveProbe.Text.Path

/-!
What can be hooked: a method of a type, or a line of a file. Files are identified by base name.
-/
namespace LiveProbe

structure MethodName where
  typeName : String
  name : String
  deriving DecidableEq, Repr

structure SourceLine where
  file : String
  line : UInt32
  deriving DecidableEq, Repr

inductive HookTarget where
  | method (m : MethodName)
  | line (l : SourceLine)
  deriving DecidableEq, Repr

def MethodName.display (m : MethodName) : String := m.typeName ++ "." ++ m.name

def SourceLine.display (l : SourceLine) : String := l.file ++ ":" ++ toString l.line.toNat

namespace SourceLine

def ofPath (path : String) (line : UInt32) : SourceLine := ⟨Text.basename path, line⟩

end SourceLine

namespace HookTarget

def display : HookTarget → String
  | .method m => m.display
  | .line l => l.display

def lineOf (path : String) (line : UInt32) : HookTarget := .line (.ofPath path line)

end HookTarget
end LiveProbe
