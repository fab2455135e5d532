import LiveProbe.Proofs.Fault.Sessions
import LiveProbe.Proofs.Frame.Discipline

/-!
How far a panic of a probe gets. On a host whose engines keep their errors to themselves, calls and
lines come to what they come to without it; where errors reach the host, it passes through whatever
has been laid on the body, to the caller.
-/
namespace LiveProbe

/-- What is laid on a body: the hook of a group of probes, or a wrapper of another tool. -/
inductive Layer where
  | hook (engine : Nat) (m : MethodName) (installation group : Nat)
  | wrapper (serial : Nat) (label : String)

namespace Layer

def lay : Layer → Body → Body
  | .hook engine m installation group, saved =>
    .hooked engine m installation (.probes engine group) saved
  | .wrapper serial label, saved => .wrapped serial label saved

def enter (w : World) : Layer → World
  | .hook .. => w
  | .wrapper _ label => w.note (.intercepted label w.stack)

/-- What happens when the saved body has returned. Whether the hook acts was settled before. -/
def leave (acts : Acts) (args : CallArgs) (w : World) (returned : Value) : Layer → Action Value
  | .hook engine m installation group => do
    if w.slot engine m = installation then
      let w ← get
      acts engine group (.method { args, returned, elapsed := w.elapsed, stack := w.stack })
    return returned
  | .wrapper _ label => return .array [.string label, returned]

end Layer

def Body.under (saved : Body) (layers : List Layer) : Body := layers.foldr Layer.lay saved

namespace World

def flags (w : World) : List Bool := w.engines.map (·.propagate)

def Unheard (lapses : Lapses) (w : World) : Prop :=
  ∀ n, w.flags[n]? = some true → ∀ v x k, lapses v n x k = none

def entered (m : MethodName) (layers : List Layer) (w : World) : World :=
  layers.foldl Layer.enter { w with stack := Action.frameOf m :: w.stack }

end World

namespace Action

variable {acts : Acts} {run : Runner} {args : CallArgs} {w w' : World} {f : Fault}

end Action

/-! Where no error reaches the host. -/

namespace World

variable {w v : World} {c : Contrast} {lapses : Lapses}

theorem Unheard.compatible (unheard : w.Unheard lapses)
    (named : ∀ w n x k, lapses w n x k ≠ none → c.apart k.probe.id = true) :
    Action.Compatible c w.flags lapses Lapses.nobody := by
  intro v _ _ n x k
  by_cases fine : lapses v n x k = none
  · exact Or.inl fine
  · exact Or.inr ⟨named v n x k fine, fun heard => fine (unheard n heard v x k)⟩

end World

namespace Action

variable {lapses : Lapses} {w : World} {fuel : Nat} {args : CallArgs}

end Action

/-! Calls and lines as a whole. -/

namespace World

def left (w : World) : World := { w with stack := w.stack.tail }

end World

namespace Action

variable {acts : Acts} {run : Runner} {m : MethodName} {args : CallArgs} {w : World} {body : Body}

section Traces

variable {path : String} {line : UInt32} {locals : Vars} {t : LineTrace} {rest : List LineTrace}

end Traces

end Action

end LiveProbe
