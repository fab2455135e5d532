import LiveProbe.Engine.Configuration

/-!
A host that runs, with the engines on it: what the host holds, the calls in progress, and what has
happened. Engines are known by their place in the list.
-/
namespace LiveProbe

structure World where
  host : Host := {}
  heap : Heap := {}
  engines : List Engine := []
  /-- Calls in progress, the innermost first. -/
  stack : List StackFrame := []
  journal : List Occurrence := []
  warnings : List Warning := []
  /-- Probes whose snapshots make the receiver panic. -/
  poisoned : List String := []
  elapsed : Elapsed := .ofParts 0 0

namespace World

def note (o : Occurrence) (w : World) : World := { w with journal := w.journal ++ [o] }

def warn (warning : Warning) (w : World) : World := { w with warnings := w.warnings ++ [warning] }

def inSetup {α : Type} (n : Nat) (f : Setup → α × Setup) (w : World) : Option α × World :=
  match w.engines[n]? with
  | none => (none, w)
  | some engine =>
    let (a, s) := f ⟨w.host, engine, w.journal, w.warnings⟩
    (some a, { w with
      host := s.host, engines := w.engines.set n s.engine, journal := s.journal,
      warnings := s.warnings })

def updateSetup (n : Nat) (f : Setup → Setup) (w : World) : World :=
  (w.inSetup n fun s => ((), f s)).2

def tellDefined (typeName : String) (w : World) : Observer → World
  | .engine n => w.updateSetup n (·.typeDefined typeName)
  | .watcher label => w.note (.defined label typeName)

def define (typeName : String) (methods : List (String × Code)) (w : World) : World :=
  let host := w.host.define typeName (methods.map fun (name, code) => (name, .program code))
  (host.definitionObservers.map (·.2)).foldl (tellDefined typeName) { w with host }

def tellLoaded (unit : CompiledUnit) (w : World) : Observer → World
  | .engine n => w.updateSetup n (·.unitLoaded unit)
  | .watcher label => w.note (.compiled label unit)

def load (path : String) (lines : List UInt32) (w : World) : CompiledUnit × World :=
  let (unit, host) := w.host.load path lines
  (unit, (host.compileObservers.map (·.2)).foldl (tellLoaded unit) { w with host })

def slot (w : World) (engine : Nat) (m : MethodName) : Nat :=
  (w.engines[engine]?.map fun e => e.hooks.slot m).getD 0

theorem inSetup_of_none {α : Type} {n : Nat} {w : World} (h : w.engines[n]? = none)
    (f : Setup → α × Setup) : w.inSetup n f = (none, w) := by
  simp [inSetup, h]

end World
end LiveProbe
