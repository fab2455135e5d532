import LiveProbe.Table
import LiveProbe.Text.Path

/-!
Code that the host has loaded. The registry finds the unit of a location by its path or its base
name; the first unit under a key stays.
-/
namespace LiveProbe

/-- The code of one file, as it was loaded once. -/
structure CompiledUnit where
  id : Nat
  path : String
  lines : List UInt32
  deriving DecidableEq, Repr

def CompiledUnit.isExecutable (u : CompiledUnit) (line : UInt32) : Bool := u.lines.contains line

inductive CodeListener where
  | hooks
  | watcher (label : String)
  deriving DecidableEq, Repr

structure CodeRegistry where
  units : List (String × CompiledUnit) := []
  active : Bool := false
  subscription : Option Nat := none
  listeners : List CodeListener := []

namespace CodeRegistry

/-- The keys of a path: the path and its base name, as far as they are not empty. -/
def keysOf (path : String) : List String := [path, Text.basename path].filter (· ≠ "")

def addUnder (key : String) (unit : CompiledUnit) (r : CodeRegistry) : Bool × CodeRegistry :=
  if Table.contains key r.units then (false, r)
  else (true, { r with units := r.units ++ [(key, unit)] })

/-- Registers a unit under the keys of a path; tells whether any of them was new. -/
def register (path : String) (unit : CompiledUnit) (r : CodeRegistry) : Bool × CodeRegistry :=
  (keysOf path).foldl (fun (added, r) key =>
    let (new, r) := r.addUnder key unit
    (added || new, r)) (false, r)

/-- The unit of a location, found by its path first and by its base name then. -/
def lookup (r : CodeRegistry) (location : String) : Option CompiledUnit :=
  (Table.get? location r.units).orElse fun _ => Table.get? (Text.basename location) r.units

def addListener (l : CodeListener) (r : CodeRegistry) : CodeRegistry :=
  { r with listeners := r.listeners ++ [l] }

def dropWatcher (label : String) (r : CodeRegistry) : CodeRegistry :=
  { r with listeners := r.listeners.filter fun l => l ≠ .watcher label }

theorem units_addUnder_of_contains {key : String} {unit : CompiledUnit} {r : CodeRegistry}
    (h : Table.contains key r.units = true) : r.addUnder key unit = (false, r) := by
  simp [addUnder, h]

end CodeRegistry
end LiveProbe
