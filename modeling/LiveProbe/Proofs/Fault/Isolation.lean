import LiveProbe.Proofs.Fault.Containment
import LiveProbe.Proofs.Fault.Enrolment

/-!
Probes at one location are isolated from each other. Whichever of them panic while an execution is
processed, and wherever they do, the others are told of as if those were not there, the stack is
what it was, and whatever is asked later is answered as without the panic. The host observes a panic
only if errors shall reach it; then it is the first in the order in which the probes joined, and the
probes after it are not asked.
-/
namespace LiveProbe

namespace World

/-- Whatever is asked of two worlds that a session may hold, with whatever calls in progress, is
answered alike from then on. -/
def GoesOnLike (w v : World) : Prop :=
  ∀ (stack : List StackFrame) (s : Session) (steps : List SessionStep) (step : SessionStep),
    ((({ s with world := { w with stack } }).after steps).advance step).1.Agrees step
      ((({ s with world := { v with stack } }).after steps).advance step).1

/-- A round in which the panics do not reach the host. Everybody has the turn that is granted; who
does not panic is told of in full, and has its turn whether the others are there or not. -/
structure Kept (lapse : KnownProbe → Option Lapse) (n : Nat) (x : Execution) (ks : List KnownProbe)
    (e : Engine) (w w' : World) : Prop where
  told : Reported n e
    ((Probes.granted ks e.probes).flatMap fun k => e.reporter.told w.heap x (lapse k) k)
    (Probes.asked ks e.probes) w w'
  alone :
    let others := ks.filter fun k => (lapse k).isNone
    (Probes.granted ks e.probes).filter (fun k => (lapse k).isNone) =
        Probes.granted others e.probes ∧
      ∃ v, Action.roundWith lapse n x others w = (.ok (), v) ∧
        Reported n e ((Probes.granted others e.probes).flatMap (e.reporter.report w.heap x))
          (Probes.asked others e.probes) w v

structure FirstLapse (lapses : Lapses) (n g : Nat) (x : Execution) (w : World) (e : Engine)
    (before : List KnownProbe) (k : KnownProbe) (l : Lapse) : Prop where
  there : w.engines[n]? = some e
  propagate : e.propagate = true
  joined : ∃ after, e.probes.membersOf g = before ++ k :: after
  calm : ∀ b ∈ Probes.granted before e.probes, lapses w n x b = none
  turn : ((Probes.asked before e.probes).takeTurn k).1 = true
  fails : lapses w n x k = some l

/-- A round that a panic has ended. Those before it have been told of in full, nobody after it has
been asked, and nothing else is different from a round that has ended there without a panic. -/
structure Broken (n : Nat) (x : Execution) (e : Engine) (before : List KnownProbe) (k : KnownProbe)
    (l : Lapse) (w w' : World) : Prop where
  told : Reported n e
    ((Probes.granted before e.probes).flatMap (e.reporter.report w.heap x) ++
      (e.reporter.report w.heap x k).take l.told)
    (Probes.asked (before ++ [k]) e.probes) w w'
  later : ∃ v, Action.roundWith (fun _ => none) n x (before ++ [k]) w = (.ok (), v) ∧
    w'.GoesOnLike v

end World

namespace World

variable {c : Contrast} {flags : List Bool} {apart : String → Bool} {w v w' : World} {n g : Nat}
  {x : Execution} {e : Engine} {told told' : List Notice} {ps : Probes} {lapses : Lapses}
  {before : List KnownProbe} {k : KnownProbe} {l : Lapse}

theorem Spared.goesOnLike (both : Spared c flags w v) : w.GoesOnLike v := by
  intro stack s steps step
  have similar : Session.Similar { s with world := { w with stack } }
      { s with world := { v with stack } } :=
    ⟨c, flags, ⟨{ both with stack := rfl }, rfl, rfl, rfl, rfl, rfl, rfl⟩⟩
  exact ((similar.after steps).advance step).1

theorem Reported.goesOnLike (left : Reported n e told ps w w') (right : Reported n e told' ps w v) :
    w'.GoesOnLike v := by
  obtain ⟨there, delivery, warnings, kept, rfl⟩ := left
  obtain ⟨-, delivery', warnings', kept', rfl⟩ := right
  have flag : w.flags[n]? = some e.propagate := by
    rw [World.flags, List.getElem?_map, there, Option.map_some]
  have paired : Paired e.propagate { e with probes := ps, delivery }
      { e with probes := ps, delivery := delivery' } := ⟨rfl, kept.trans kept'.symm, rfl⟩
  let c : Contrast := ⟨fun _ => false, w.journal, w.journal⟩
  have both := (Spared.refl c c.told_refl).replace flag paired (Eq.refl w.host) c.told_refl
    warnings warnings'
  let c' : Contrast :=
    ⟨fun _ => false, w.journal ++ told.map .notice, w.journal ++ told'.map .notice⟩
  suffices Spared c' w.flags _ _ from this.goesOnLike
  exact { both with told := c'.told_refl }

theorem FirstLapse.broken (first : FirstLapse lapses n g x w e before k l) :
    ∃ w', Action.reportAllWith lapses n g x w = (.error (.panicked l.text), w') ∧
      Broken n x e before k l w w' := by
  obtain ⟨after, joined⟩ := first.joined
  obtain ⟨w', run, told⟩ := Action.roundWith_of_broken first.there first.propagate x after
    first.calm first.turn first.fails
  obtain ⟨v, calm, told'⟩ := Action.roundWith_of_kept (fun _ => none) x (before ++ [k])
    first.there (.inr fun _ _ => rfl)
  refine ⟨w', ?_, told, v, calm, told.goesOnLike told'⟩
  unfold Action.reportAllWith
  rw [Action.get_bind_apply, first.there, Option.map_some, joined]
  exact run

end World

namespace Action

variable {lapses : Lapses} {fuel : Nat} {w w₁ : World} {args : CallArgs} {n g i : Nat} {e : Engine}
  {before : List KnownProbe} {k : KnownProbe} {l : Lapse}

end Action

namespace World.Sample

def sharing : Event := .process <| ["p", "q", "r"].map fun id =>
  .object [("id", .string id), ("type", .string "LOG_PROBE"),
    ("where", .object [("typeName", .string method.typeName), ("methodName", .string method.name)])]

def shared (propagate : Bool) : World :=
  World.history 1 { settings with propagate } origin [] [defining [.ret (.integer 1)], sharing] {}

def failing : Lapses := fun _ _ _ k =>
  if k.probe.id ∈ ["q"] then some (.atSnapshot "out of order") else none

def hooks : Body → Bool
  | .hooked 0 m 1 (.probes 0 1) (.program [.ret (.integer n)]) => m = method ∧ n = 1
  | _ => false

def called (propagate : Bool) : Except Fault (Except Error Value) :=
  let acts := Action.reportAllWith failing
  (Action.callWith acts (Action.runCodeWith acts 1) method {} (shared propagate)).1

end World.Sample

end LiveProbe
