import LiveProbe.Proofs.World.Acting
import LiveProbe.Proofs.World.Observation

/-!
Probes that panic while an execution is processed. Which of them do, how far they come before, and
with what text, is left open; it may be anything, at each firing of a hook anew. With receivers that
panic at the snapshots of poisoned probes, it is the code that runs.

Each probe is guarded on its own. What the hook of a group tells when it fires, how it ends and what
it leaves follows from what one probe does when it is asked.
-/
namespace LiveProbe

/-- A panic while an execution is processed: before the status is told, before the snapshot is, or
when both have been. -/
structure Lapse where
  told : Fin 3
  text : String

def Lapse.atSnapshot (text : String) : Lapse := ⟨1, text⟩

/-- Which probes panic when a hook fires. -/
abbrev Lapses := World → Nat → Execution → KnownProbe → Option Lapse

namespace Lapses

def poisoned : Lapses := fun w _ _ k =>
  if k.probe.id ∈ w.poisoned then some (.atSnapshot "sink failure") else none

def nobody : Lapses := fun _ _ _ _ => none

end Lapses

def Reporter.told (r : Reporter) (heap : Heap) (x : Execution) (lapse : Option Lapse)
    (k : KnownProbe) : List Notice :=
  match lapse with
  | none => r.report heap x k
  | some l => (r.report heap x k).take l.told

theorem Reporter.probeId_told {r : Reporter} {heap : Heap} {x : Execution} {lapse : Option Lapse}
    {k : KnownProbe} {n : Notice} (member : n ∈ r.told heap x lapse k) :
    n.probeId = k.probe.id := by
  cases lapse with
  | none => exact probeId_report member
  | some l => exact probeId_report (List.mem_of_mem_take member)

def Lapse.outcome : Option Lapse → Except Fault Unit
  | none => .ok ()
  | some l => .error (.panicked l.text)

def Probes.asked (ks : List KnownProbe) (ps : Probes) : Probes :=
  ks.foldl (fun ps k => (ps.takeTurn k).2) ps

namespace Action

def lapseAt (told : Fin 3) (lapse : Option Lapse) : Action Unit :=
  match lapse with
  | some l => if l.told = told then throw (.panicked l.text) else pure ()
  | none => pure ()

def reportWith (lapse : Option Lapse) (engine : Nat) (e : Execution) (k : KnownProbe) :
    Action Unit := do
  let (turn, w) := (← get).inSetup engine fun s => s.onProbes (Probes.takeTurn k)
  set w
  if turn = some true then
    lapseAt 0 lapse
    update (·.updateSetup engine (·.tellStatus k.probe .emitting))
    lapseAt 1 lapse
    update fun w => w.updateSetup engine fun s =>
      s.tell (.snapshot (s.engine.reporter.snapshot w.heap k.probe e))
    lapseAt 2 lapse

def roundWith (lapse : KnownProbe → Option Lapse) (engine : Nat) (e : Execution)
    (ks : List KnownProbe) : Action Unit :=
  ks.forM fun k => guarded engine k (reportWith (lapse k) engine e k)

def reportAllWith (lapses : Lapses) : Acts := fun engine group e => do
  let w ← get
  roundWith (lapses w engine e) engine e
    ((w.engines[engine]?.map fun e => e.probes.membersOf group).getD [])

end Action

namespace World

/-- Nothing has happened but that turns were taken and notices told on behalf of an engine. -/
structure Reported (n : Nat) (e : Engine) (told : List Notice) (ps : Probes) (w w' : World) :
    Prop where
  before : w.engines[n]? = some e
  rest : ∃ delivery warnings, delivery.isSome = e.delivery.isSome ∧
    w' = { w with
      engines := w.engines.set n { e with probes := ps, delivery }
      journal := w.journal ++ told.map .notice
      warnings }

namespace Reported

variable {n : Nat} {e : Engine} {told told' : List Notice} {ps ps' : Probes} {w w' w'' : World}

theorem refl (there : w.engines[n]? = some e) : Reported n e [] e.probes w w := by
  refine ⟨there, e.delivery, w.warnings, rfl, ?_⟩
  obtain ⟨inside, own⟩ := List.getElem?_eq_some_iff.mp there
  have same : w.engines.set n e = w.engines := by
    rw [← own, List.set_getElem_self]
  rw [List.map_nil, List.append_nil, same]

theorem heap (reported : Reported n e told ps w w') : w'.heap = w.heap := by
  obtain ⟨-, _, _, -, rfl⟩ := reported
  rfl

theorem after (first : Reported n e told ps w w') :
    ∃ delivery, w'.engines[n]? = some { e with probes := ps, delivery } ∧ ∀ {told' ps' w''},
      Reported n { e with probes := ps, delivery } told' ps' w' w'' →
        Reported n e (told ++ told') ps' w w'' := by
  obtain ⟨there, delivery, warnings, same, rfl⟩ := first
  have inside : n < w.engines.length := (List.getElem?_eq_some_iff.mp there).1
  refine ⟨delivery, List.getElem?_set_self inside, fun later => ?_⟩
  obtain ⟨-, delivery', warnings', same', rfl⟩ := later
  refine ⟨there, delivery', warnings', same'.trans same, ?_⟩
  simp only [List.set_set, List.map_append, List.append_assoc]

theorem warn (reported : Reported n e told ps w w') (warning : Warning) :
    Reported n e told ps w (w'.warn warning) := by
  obtain ⟨there, delivery, warnings, same, rfl⟩ := reported
  exact ⟨there, delivery, warnings ++ [warning], same, rfl⟩

theorem propagate (reported : Reported n e told ps w w') :
    w'.engines[n]?.any (·.propagate) = e.propagate := by
  obtain ⟨delivery, there, -⟩ := reported.after
  rw [there, Option.any_some]

theorem turn (there : w.engines[n]? = some e) (k : KnownProbe) :
    Reported n e [] (e.probes.takeTurn k).2 w
      (w.inSetup n fun s => s.onProbes (Probes.takeTurn k)).2 := by
  refine ⟨there, e.delivery, w.warnings, rfl, ?_⟩
  unfold World.inSetup
  rw [there, List.map_nil, List.append_nil]
  rfl

theorem tell (there : w.engines[n]? = some e) (f : Setup → Notice) :
    Reported n e [f ⟨w.host, e, w.journal, w.warnings⟩] e.probes w
      (w.updateSetup n fun s => s.tell (f s)) := by
  unfold World.updateSetup World.inSetup
  rw [there]
  exact ⟨there, _, w.warnings, Option.isSome_map, rfl⟩

end Reported
end World

namespace Action

variable {n : Nat} {e : Engine} {w : World} {k : KnownProbe}

theorem reportWith_of_declined (lapse : Option Lapse) (there : w.engines[n]? = some e)
    (x : Execution) (declined : (e.probes.takeTurn k).1 = false) :
    ∃ w', reportWith lapse n x k w = (.ok (), w') ∧
      World.Reported n e [] (e.probes.takeTurn k).2 w w' := by
  have asked := turn_apply there k
  rw [declined] at asked
  refine ⟨_, ?_, World.Reported.turn there k⟩
  unfold reportWith
  rw [get_bind_apply]
  dsimp only
  rw [asked]
  rfl

theorem reportWith_of_granted (lapse : Option Lapse) (there : w.engines[n]? = some e)
    (x : Execution) (granted : (e.probes.takeTurn k).1 = true) :
    ∃ w', reportWith lapse n x k w = (Lapse.outcome lapse, w') ∧
      World.Reported n e (e.reporter.told w.heap x lapse k) (e.probes.takeTurn k).2 w w' := by
  let turned := (w.inSetup n fun s => s.onProbes (Probes.takeTurn k)).2
  let emitting := turned.updateSetup n (·.tellStatus k.probe .emitting)
  let snapshot : Setup → Notice := fun s =>
    .snapshot (s.engine.reporter.snapshot emitting.heap k.probe x)
  have turn : World.Reported n e [] (e.probes.takeTurn k).2 w turned := .turn there k
  have status : World.Reported n e [.status (e.reporter.status k.probe .emitting)]
      (e.probes.takeTurn k).2 w emitting := by
    obtain ⟨delivery, there', go_on⟩ := turn.after
    exact go_on (.tell there' fun s => .status (s.engine.reporter.status k.probe .emitting))
  have shot : World.Reported n e (e.reporter.report w.heap x k) (e.probes.takeTurn k).2 w
      (emitting.updateSetup n fun s => s.tell (snapshot s)) := by
    obtain ⟨delivery, there', go_on⟩ := status.after
    unfold Reporter.report
    rw [← status.heap]
    exact go_on (.tell there' snapshot)
  have asked := turn_apply there k
  rw [granted] at asked
  unfold reportWith
  rw [get_bind_apply]
  dsimp only
  rw [asked, set_bind_apply, if_pos rfl]
  rcases lapse with _ | ⟨told, text⟩
  · exact ⟨_, rfl, shot⟩
  · match told with
    | 0 => exact ⟨_, rfl, turn⟩
    | 1 => exact ⟨_, rfl, status⟩
    | 2 => exact ⟨_, rfl, shot⟩

section Round

variable {lapse : KnownProbe → Option Lapse}

theorem guarded_reportWith (there : w.engines[n]? = some e) (x : Execution)
    (lapse : KnownProbe → Option Lapse) (k : KnownProbe) :
    ∃ w', guarded n k (reportWith (lapse k) n x k) w =
        (if (e.probes.takeTurn k).1 ∧ e.propagate then Lapse.outcome (lapse k) else .ok (), w') ∧
      World.Reported n e
        ((Probes.granted [k] e.probes).flatMap fun k => e.reporter.told w.heap x (lapse k) k)
        (e.probes.takeTurn k).2 w w' := by
  unfold Probes.granted Probes.granted
  cases turn : (e.probes.takeTurn k).1 with
  | false =>
    obtain ⟨w', run, reported⟩ := reportWith_of_declined (lapse k) there x turn
    rw [guarded_of_ok run]
    exact ⟨w', rfl, reported⟩
  | true =>
    obtain ⟨w', run, reported⟩ := reportWith_of_granted (lapse k) there x turn
    rw [if_pos rfl, List.append_nil, List.flatMap_singleton]
    cases fails : lapse k with
    | none =>
      rw [fails] at run reported
      rw [guarded_of_ok run]
      exact ⟨w', congrArg (·, w') (ite_self _).symm, reported⟩
    | some l =>
      rw [fails] at run reported
      unfold guarded
      rw [tryCatch_apply, run]
      show ∃ w'', (if w'.engines[n]?.any (·.propagate) then _ else _ : Action Unit) w' = _ ∧ _
      rw [reported.propagate]
      cases e.propagate with
      | true => exact ⟨w', rfl, reported⟩
      | false => exact ⟨_, rfl, reported.warn (.probeFailed k.probe.id)⟩

theorem roundWith_of_kept (lapse : KnownProbe → Option Lapse) (x : Execution)
    (ks : List KnownProbe) :
    ∀ {w : World} {e : Engine}, w.engines[n]? = some e →
      e.propagate = false ∨ (∀ k ∈ Probes.granted ks e.probes, lapse k = none) →
      ∃ w', roundWith lapse n x ks w = (.ok (), w') ∧
        World.Reported n e
          ((Probes.granted ks e.probes).flatMap fun k => e.reporter.told w.heap x (lapse k) k)
          (Probes.asked ks e.probes) w w' := by
  induction ks with
  | nil => exact fun there _ => ⟨_, rfl, .refl there⟩
  | cons k rest ih =>
    intro w e there kept
    obtain ⟨w', run, first⟩ := guarded_reportWith there x lapse k
    have calm :
        (if (e.probes.takeTurn k).1 ∧ e.propagate then Lapse.outcome (lapse k) else .ok ()) =
          .ok () := by
      split
      · next both =>
        rcases kept with off | fine
        · simp [off] at both
        · rw [fine k (by simp [Probes.granted, both.1])]
          rfl
      · rfl
    rw [calm] at run
    have gone : roundWith lapse n x (k :: rest) w = roundWith lapse n x rest w' := by
      show (guarded n k (reportWith (lapse k) n x k) >>= fun _ => roundWith lapse n x rest) w = _
      rw [bind_apply, run]
    obtain ⟨delivery, there', go_on⟩ := first.after
    have kept' : e.propagate = false ∨
        ∀ k' ∈ Probes.granted rest (e.probes.takeTurn k).2, lapse k' = none :=
      kept.imp_right fun fine k' member => fine k' (List.mem_append_right _ member)
    obtain ⟨w'', run', later⟩ := ih there' kept'
    rw [first.heap] at later
    refine ⟨w'', gone.trans run', ?_⟩
    have told := go_on later
    rw [← List.flatMap_append] at told
    simpa only [Probes.granted, Probes.asked, List.foldl_cons, List.append_nil] using told

theorem roundWith_append (x : Execution) (ks ks' : List KnownProbe) :
    roundWith lapse n x (ks ++ ks') = roundWith lapse n x ks >>= fun _ => roundWith lapse n x ks' :=
  List.forM_append

/-- Where errors reach the host, the first panic ends the round. What is told of those before it has
been told, and nobody after it is asked. -/
theorem roundWith_of_broken (there : w.engines[n]? = some e) (stops : e.propagate = true)
    (x : Execution) {before : List KnownProbe} (after : List KnownProbe) {l : Lapse}
    (calm : ∀ k ∈ Probes.granted before e.probes, lapse k = none)
    (turn : ((Probes.asked before e.probes).takeTurn k).1 = true) (fails : lapse k = some l) :
    ∃ w', roundWith lapse n x (before ++ k :: after) w = (.error (.panicked l.text), w') ∧
      World.Reported n e
        ((Probes.granted before e.probes).flatMap (e.reporter.report w.heap x) ++
          (e.reporter.report w.heap x k).take l.told)
        (Probes.asked (before ++ [k]) e.probes) w w' := by
  obtain ⟨w', run, first⟩ := roundWith_of_kept lapse x before there (.inr calm)
  obtain ⟨delivery, there', go_on⟩ := first.after
  obtain ⟨w'', run', second⟩ := guarded_reportWith there' x lapse k
  have gone : roundWith lapse n x (before ++ k :: after) w = (.error (.panicked l.text), w'') := by
    rw [roundWith_append, bind_apply, run]
    show (guarded n k (reportWith (lapse k) n x k) >>= fun _ => roundWith lapse n x after) w' = _
    rw [bind_apply, run', if_pos ⟨turn, stops⟩, fails]
    rfl
  have reports : ((Probes.granted before e.probes).flatMap fun k =>
      e.reporter.told w.heap x (lapse k) k) =
      (Probes.granted before e.probes).flatMap (e.reporter.report w.heap x) := by
    refine List.flatMap_congr fun k member => ?_
    rw [calm k member]
    rfl
  have last : (Probes.granted [k] (Probes.asked before e.probes)).flatMap (fun k =>
      e.reporter.told w.heap x (lapse k) k) = (e.reporter.report w.heap x k).take l.told := by
    rw [Probes.granted, Probes.granted, turn, if_pos rfl, List.append_nil, List.flatMap_singleton,
      fails]
    rfl
  have told := go_on second
  rw [first.heap] at told
  rw [reports, last] at told
  refine ⟨w'', gone, ?_⟩
  rw [Probes.asked, List.foldl_append]
  exact told

theorem guarded_reportWith_of_absent (absent : w.engines[n]? = none) (x : Execution)
    (lapse : Option Lapse) : guarded n k (reportWith lapse n x k) w = (.ok (), w) := by
  refine guarded_of_ok ?_
  unfold reportWith
  rw [get_bind_apply, World.inSetup_of_none absent]
  rfl

end Round

/-! Where the receiver alone panics, it is the code that runs. -/

theorem reportWith_poisoned (n : Nat) (x : Execution) (k : KnownProbe) (w : World) :
    reportWith (Lapses.poisoned w n x k) n x k w = report n x k w := by
  have kept : ((w.inSetup n fun s => s.onProbes (Probes.takeTurn k)).2.updateSetup n
      (·.tellStatus k.probe .emitting)).poisoned = w.poisoned :=
    (World.poisoned_inSetup _ _ _).trans (World.poisoned_inSetup _ _ _)
  unfold reportWith report Lapses.poisoned
  rw [get_bind_apply, get_bind_apply]
  dsimp only
  rw [set_bind_apply, set_bind_apply]
  split
  · rw [update_bind_apply, get_bind_apply, kept]
    split <;> rfl
  · rfl

theorem roundWith_poisoned (n : Nat) (x : Execution) (ks : List KnownProbe) {w : World} :
    ∀ {w' : World}, w'.poisoned = w.poisoned →
      roundWith (Lapses.poisoned w n x) n x ks w' =
        (ks.forM fun k => guarded n k (report n x k)) w' := by
  induction ks with
  | nil => exact fun _ => rfl
  | cons k rest ih =>
    intro w' kept
    have own : Lapses.poisoned w n x k = Lapses.poisoned w' n x k := by
      unfold Lapses.poisoned
      rw [kept]
    have first : guarded n k (reportWith (Lapses.poisoned w n x k) n x k) w' =
        guarded n k (report n x k) w' := by
      unfold guarded
      rw [tryCatch_apply, tryCatch_apply, own, reportWith_poisoned]
    have lasting := (World.lasting_poisoned w.poisoned).confined
    have after := respects_guarded lasting n k (respects_report lasting n x k) w' kept
    show (guarded n k _ >>= fun _ => roundWith _ n x rest) w' =
      (guarded n k _ >>= fun _ => rest.forM _) w'
    rw [bind_apply, bind_apply, first]
    rcases ended : guarded n k (report n x k) w' with ⟨result, w''⟩
    rw [ended] at after
    cases result with
    | error e => rfl
    | ok _ => exact ih after

theorem reportAllWith_poisoned : reportAllWith Lapses.poisoned = reportAll := by
  funext n group x w
  unfold reportAllWith reportAll
  rw [get_bind_apply, get_bind_apply]
  exact roundWith_poisoned n x _ rfl

end Action

end LiveProbe
