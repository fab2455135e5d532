import LiveProbe.Proofs.World.Respect
import Mathlib.Data.List.Nodup

/-!
What a hook tells when it fires. The members of its group have their turns one after the other, and
for each that is granted one, a status and a snapshot are told, in this order; nothing else happens
to host, objects or engine. A receiver that panics at a snapshot has it lost, and what comes after
it too if errors reach the host.
-/
namespace LiveProbe

namespace Probes

variable {ps : Probes} {k k' : KnownProbe}

def granted : List KnownProbe → Probes → List KnownProbe
  | [], _ => []
  | k :: rest, ps =>
    (if (ps.takeTurn k).1 then [k] else []) ++ granted rest (ps.takeTurn k).2

theorem takeTurn_of_other (other : k'.serial ≠ k.serial) (ps : Probes) :
    ((ps.takeTurn k).2.takeTurn k').1 = (ps.takeTurn k').1 := by
  unfold takeTurn
  cases k.probe.capturing <;> cases k'.probe.capturing <;> simp [Limiters.ask_of_other other]

theorem granted_eq_filter (ks : List KnownProbe) :
    ∀ {ps : Probes}, (ks.map (·.serial)).Nodup →
      granted ks ps = ks.filter fun k => (ps.takeTurn k).1 := by
  induction ks with
  | nil => exact fun _ => rfl
  | cons k rest ih =>
    intro ps distinct
    obtain ⟨fresh, distinctRest⟩ := List.nodup_cons.mp distinct
    have others : rest.filter (fun k' => ((ps.takeTurn k).2.takeTurn k').1) =
        rest.filter fun k' => (ps.takeTurn k').1 := by
      apply List.filter_congr
      intro k' member
      apply takeTurn_of_other
      exact fun same => fresh (List.mem_map.mpr ⟨k', member, same⟩)
    rw [granted, ih distinctRest, others, List.filter_cons]
    split <;> rfl

end Probes

namespace Notice

theorem filter_flatMap {f : KnownProbe → List Notice}
    (named : ∀ k, ∀ n ∈ f k, n.probeId = k.probe.id) {k : KnownProbe} {ks : List KnownProbe}
    (nodup : ks.Nodup) (unique : ∀ k' ∈ ks, k'.probe.id = k.probe.id → k' = k) :
    (ks.flatMap f).filter (fun n => n.probeId = k.probe.id) = if k ∈ ks then f k else [] := by
  induction ks with
  | nil => rfl
  | cons first rest ih =>
    obtain ⟨fresh, nodupRest⟩ := List.nodup_cons.mp nodup
    obtain ⟨uniqueFirst, uniqueRest⟩ := List.forall_mem_cons.mp unique
    rw [List.flatMap_cons, List.filter_append, ih nodupRest uniqueRest]
    by_cases same : first = k
    · subst same
      have own : (f first).filter (fun n => n.probeId = first.probe.id) = f first :=
        List.filter_eq_self.mpr fun n member => decide_eq_true (named first n member)
      simp [fresh, own]
    · have other : (f first).filter (fun n => n.probeId = k.probe.id) = [] :=
        List.filter_eq_nil_iff.mpr fun n member own => same
          (uniqueFirst ((named first n member).symm.trans (of_decide_eq_true own)))
      rw [other, List.nil_append]
      simp [Ne.symm same]

theorem filter_flatMap_eq_nil {f : KnownProbe → List Notice}
    (named : ∀ k, ∀ n ∈ f k, n.probeId = k.probe.id) {id : String} {ks : List KnownProbe}
    (nobody : ∀ k ∈ ks, k.probe.id ≠ id) :
    (ks.flatMap f).filter (fun n => n.probeId = id) = [] := by
  refine List.filter_eq_nil_iff.mpr fun n member own => ?_
  obtain ⟨k, listed, told⟩ := List.mem_flatMap.mp member
  exact nobody k listed ((named k n told).symm.trans (of_decide_eq_true own))

end Notice

namespace Reporter

def report (r : Reporter) (heap : Heap) (x : Execution) (k : KnownProbe) : List Notice :=
  [.status (r.status k.probe .emitting), .snapshot (r.snapshot heap k.probe x)]

theorem probeId_report {r : Reporter} {heap : Heap} {x : Execution} {k : KnownProbe} {n : Notice}
    (member : n ∈ r.report heap x k) : n.probeId = k.probe.id := by
  simp only [report, List.mem_cons, List.not_mem_nil, or_false] at member
  rcases member with rfl | rfl <;> rfl

def tellings (r : Reporter) (heap : Heap) (x : Execution) (poisoned : List String)
    (propagate : Bool) : List KnownProbe → Probes → List Notice
  | [], _ => []
  | k :: rest, ps =>
    let later := r.tellings heap x poisoned propagate rest (ps.takeTurn k).2
    if (ps.takeTurn k).1 then
      if k.probe.id ∈ poisoned then
        .status (r.status k.probe .emitting) :: if propagate then [] else later
      else r.report heap x k ++ later
    else later

variable {r : Reporter} {heap : Heap} {x : Execution} {poisoned : List String} {propagate : Bool}

theorem tellings_of_calm (ks : List KnownProbe) :
    ∀ ps, r.tellings heap x [] propagate ks ps =
      (Probes.granted ks ps).flatMap (r.report heap x) := by
  induction ks with
  | nil => exact fun _ => rfl
  | cons k rest ih =>
    intro ps
    rw [tellings, Probes.granted, ih, List.flatMap_append]
    split <;> simp

theorem mem_of_snapshot_mem_tellings (ks : List KnownProbe) {s : SnapshotEnvelope} :
    ∀ {ps}, .snapshot s ∈ r.tellings heap x poisoned propagate ks ps →
      ∃ k ∈ ks, s = r.snapshot heap k.probe x := by
  induction ks with
  | nil =>
    intro ps member
    cases member
  | cons k rest ih =>
    intro ps member
    have inRest : .snapshot s ∈ r.tellings heap x poisoned propagate rest (ps.takeTurn k).2 →
        ∃ k' ∈ k :: rest, s = r.snapshot heap k'.probe x := by
      intro later
      obtain ⟨k', listed, same⟩ := ih later
      exact ⟨k', List.mem_cons_of_mem k listed, same⟩
    rw [tellings] at member
    split at member
    · split at member
      · have member := (List.mem_cons.mp member).resolve_left (by simp)
        cases propagate with
        | true => cases member
        | false => exact inRest member
      · rcases List.mem_append.mp member with own | later
        · simp only [report, List.mem_cons, reduceCtorEq, false_or, List.not_mem_nil,
            or_false] at own
          exact ⟨k, List.mem_cons_self, Notice.snapshot.inj own⟩
        · exact inRest later
    · exact inRest member

end Reporter

namespace World

structure Told (n : Nat) (e : Engine) (told : List Notice) (ps : Probes) (w w' : World) :
    Prop where
  journal : w'.journal = w.journal ++ told.map .notice
  heap : w'.heap = w.heap
  poisoned : w'.poisoned = w.poisoned
  engine : ∃ e', w'.engines[n]? = some e' ∧ e'.reporter = e.reporter ∧
    e'.propagate = e.propagate ∧ e'.probes = ps

namespace Told

variable {n : Nat} {e e' : Engine} {told told' : List Notice} {ps ps' : Probes} {w w' w'' : World}

theorem trans (first : Told n e told ps w w')
    (later : ∀ e', w'.engines[n]? = some e' → e'.reporter = e.reporter →
      e'.propagate = e.propagate → e'.probes = ps → Told n e' told' ps' w' w'') :
    Told n e (told ++ told') ps' w w'' := by
  obtain ⟨e', there, reporter, propagate, probes⟩ := first.engine
  have rest := later e' there reporter propagate probes
  obtain ⟨e'', there', reporter', propagate', probes'⟩ := rest.engine
  constructor
  case journal => rw [rest.journal, first.journal, List.map_append, List.append_assoc]
  case heap => exact rest.heap.trans first.heap
  case poisoned => exact rest.poisoned.trans first.poisoned
  case engine =>
    exact ⟨e'', there', reporter'.trans reporter, propagate'.trans propagate, probes'⟩

theorem inSetup {α : Type} (f : Setup → α × Setup) (there : w.engines[n]? = some e) :
    let s := (f ⟨w.host, e, w.journal, w.warnings⟩).2
    s.journal = w.journal ++ told.map .notice → s.engine.reporter = e.reporter →
      s.engine.propagate = e.propagate → Told n e told s.engine.probes w (w.inSetup n f).2 := by
  intro s journal reporter propagate
  have inside : n < w.engines.length := (List.getElem?_eq_some_iff.mp there).1
  unfold World.inSetup
  rw [there]
  exact ⟨journal, rfl, rfl, _, List.getElem?_set_self inside, reporter, propagate, rfl⟩

theorem turn (there : w.engines[n]? = some e) (k : KnownProbe) :
    Told n e [] (e.probes.takeTurn k).2 w
      (w.inSetup n fun s => s.onProbes (Probes.takeTurn k)).2 :=
  inSetup (fun s => s.onProbes (Probes.takeTurn k)) there (List.append_nil _).symm rfl rfl

theorem tell (there : w.engines[n]? = some e) (f : Setup → Notice) :
    Told n e [f ⟨w.host, e, w.journal, w.warnings⟩] e.probes w
      (w.updateSetup n fun s => s.tell (f s)) :=
  inSetup (fun s => ((), s.tell (f s))) there rfl rfl rfl

theorem warn (notices : Told n e told ps w w') (warning : Warning) :
    Told n e told ps w (w'.warn warning) :=
  ⟨notices.journal, notices.heap, notices.poisoned, notices.engine⟩

end Told
end World

namespace Action

variable {w : World} {e : Engine} {n : Nat}

theorem set_bind_apply {α : Type} (w' : World) (f : PUnit → Action α) (w : World) :
    (set w' >>= f) w = f ⟨⟩ w' := rfl

theorem update_bind_apply {α : Type} (g : World → World) (f : Unit → Action α) (w : World) :
    (update g >>= f) w = f () (g w) := rfl

theorem turn_apply (there : w.engines[n]? = some e) (k : KnownProbe) :
    (w.inSetup n fun s => s.onProbes (Probes.takeTurn k)).1 = some (e.probes.takeTurn k).1 := by
  simp [World.inSetup, there, Setup.onProbes]

theorem report_apply_of_declined (there : w.engines[n]? = some e) (x : Execution) {k : KnownProbe}
    (declined : (e.probes.takeTurn k).1 = false) :
    ∃ w', report n x k w = (.ok (), w') ∧ World.Told n e [] (e.probes.takeTurn k).2 w w' := by
  have asked := turn_apply there k
  rw [declined] at asked
  refine ⟨_, ?_, World.Told.turn there k⟩
  unfold report
  rw [get_bind_apply]
  dsimp only
  rw [asked]
  rfl

theorem report_apply_of_granted (there : w.engines[n]? = some e) (x : Execution) {k : KnownProbe}
    (granted : (e.probes.takeTurn k).1 = true) :
    ∃ w', report n x k w =
        (if k.probe.id ∈ w.poisoned then .error (.panicked "sink failure") else .ok (), w') ∧
      World.Told n e (if k.probe.id ∈ w.poisoned then
          [.status (e.reporter.status k.probe .emitting)]
        else e.reporter.report w.heap x k) (e.probes.takeTurn k).2 w w' := by
  let turned := (w.inSetup n fun s => s.onProbes (Probes.takeTurn k)).2
  let emitting := turned.updateSetup n (·.tellStatus k.probe .emitting)
  let snapshot : Setup → Notice := fun s =>
    .snapshot (s.engine.reporter.snapshot emitting.heap k.probe x)
  have told : World.Told n e [.status (e.reporter.status k.probe .emitting)]
      (e.probes.takeTurn k).2 w emitting := by
    refine (World.Told.turn there k).trans fun e' there' reporter _ probes => ?_
    have own := World.Told.tell there' fun s => .status (s.engine.reporter.status k.probe .emitting)
    rwa [probes, reporter] at own
  have asked := turn_apply there k
  rw [granted] at asked
  unfold report
  rw [get_bind_apply]
  dsimp only
  rw [asked, set_bind_apply, if_pos rfl, update_bind_apply, get_bind_apply, told.poisoned]
  split
  · exact ⟨emitting, rfl, told⟩
  · refine ⟨_, rfl, told.trans fun e' there' reporter _ probes => ?_⟩
    have own := World.Told.tell there' snapshot
    have same : snapshot ⟨emitting.host, e', emitting.journal, emitting.warnings⟩ =
        .snapshot (e.reporter.snapshot w.heap k.probe x) := by
      simp only [snapshot, reporter, told.heap]
    rwa [same, probes] at own

theorem guarded_of_ok {k : KnownProbe} {x : Action Unit} {w' : World}
    (ended : x w = (.ok (), w')) : guarded n k x w = (.ok (), w') := by
  unfold guarded
  rw [tryCatch_apply, ended]

theorem guarded_of_panicked (k : KnownProbe) {x : Action Unit} {w' : World} {told : List Notice}
    {ps : Probes} {text : String} (run : x w = (.error (.panicked text), w'))
    (notices : World.Told n e told ps w w') :
    ∃ w'', guarded n k x w = (if e.propagate then .error (.panicked text) else .ok (), w'') ∧
      World.Told n e told ps w w'' := by
  obtain ⟨e', there', -, propagate, -⟩ := notices.engine
  unfold guarded
  rw [tryCatch_apply, run]
  dsimp only
  rw [get_bind_apply, there', Option.any_some, propagate]
  split
  · exact ⟨w', rfl, notices⟩
  · exact ⟨_, rfl, notices.warn _⟩

theorem forM_report_apply (x : Execution) (ks : List KnownProbe) :
    ∀ {w : World} {e : Engine}, w.engines[n]? = some e →
      let run := (ks.forM fun k => guarded n k (report n x k)) w
      run.2.journal = w.journal ++
          (e.reporter.tellings w.heap x w.poisoned e.propagate ks e.probes).map .notice ∧
        (w.poisoned = [] → run.1 = .ok ()) := by
  induction ks with
  | nil => exact fun _ => ⟨(List.append_nil _).symm, fun _ => rfl⟩
  | cons k rest ih =>
    intro w e there
    -- what is left of the round when the first has been told of
    have go_on : ∀ {w' told}, guarded n k (report n x k) w = (.ok (), w') →
        World.Told n e told (e.probes.takeTurn k).2 w w' →
        let run := ((k :: rest).forM fun k => guarded n k (report n x k)) w
        run.2.journal = w.journal ++ (told ++ e.reporter.tellings w.heap x w.poisoned e.propagate
            rest (e.probes.takeTurn k).2).map .notice ∧
          (w.poisoned = [] → run.1 = .ok ()) := by
      intro w' told ended first
      obtain ⟨e', there', reporter, propagate, probes⟩ := first.engine
      obtain ⟨journal, result⟩ := ih there'
      have unfolded : ((k :: rest).forM fun k => guarded n k (report n x k)) w =
          (rest.forM fun k => guarded n k (report n x k)) w' := by
        show (guarded n k (report n x k) >>= fun _ => rest.forM _) w = _
        rw [bind_apply, ended]
      rw [first.heap, first.poisoned, first.journal, reporter, propagate, probes] at journal
      rw [first.poisoned] at result
      rw [unfolded, List.map_append, ← List.append_assoc]
      exact ⟨journal, result⟩
    rw [Reporter.tellings]
    cases turn : (e.probes.takeTurn k).1 with
    | false =>
      obtain ⟨w', run, first⟩ := report_apply_of_declined there x turn
      exact go_on (guarded_of_ok run) first
    | true =>
      obtain ⟨w', run, first⟩ := report_apply_of_granted there x turn
      by_cases failing : k.probe.id ∈ w.poisoned
      · rw [if_pos failing] at run first
        obtain ⟨w'', caught, first⟩ := guarded_of_panicked k run first
        simp only [if_true, if_pos failing]
        cases stops : e.propagate with
        | false =>
          rw [stops] at caught
          simpa only [stops, Bool.false_eq_true, if_false, List.singleton_append] using
            go_on caught first
        | true =>
          have ended : ((k :: rest).forM fun k => guarded n k (report n x k)) w =
              (.error (.panicked "sink failure"), w'') := by
            show (guarded n k (report n x k) >>= fun _ => rest.forM _) w = _
            rw [bind_apply, caught, stops]
            rfl
          rw [ended]
          refine ⟨first.journal, fun calm => ?_⟩
          rw [calm] at failing
          cases failing
      · rw [if_neg failing] at run first
        simp only [if_true, if_neg failing]
        exact go_on (guarded_of_ok run) first

theorem reportAll_apply (there : w.engines[n]? = some e) (group : Nat) (x : Execution) :
    (reportAll n group x w).2.journal = w.journal ++ (e.reporter.tellings w.heap x w.poisoned
        e.propagate (e.probes.membersOf group) e.probes).map .notice ∧
      (w.poisoned = [] → (reportAll n group x w).1 = .ok ()) := by
  unfold reportAll
  rw [get_bind_apply, there]
  exact forM_report_apply x _ there

end Action
end LiveProbe
