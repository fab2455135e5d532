import LiveProbe.Proofs.Dispatch.Transparency
import LiveProbe.Proofs.World.Intact
import LiveProbe.Proofs.World.Reporting

/-!
What a call of a hooked method tells. The hook that is the body of a method when a call starts tells
of the probes that are at the method when the call returns, each in its turn. The definition of a
method takes its hook away, which nobody is told of; from then on its calls tell nothing, though its
probes are still known as installed, until they have all gone.
-/
namespace LiveProbe

namespace World

theorem poisoned_inSetup {α : Type} (n : Nat) (f : Setup → α × Setup) (w : World) :
    (w.inSetup n f).2.poisoned = w.poisoned := by
  unfold inSetup
  split <;> rfl

theorem lasting_poisoned (failing : List String) : Lasting fun w => w.poisoned = failing where
  congr _ _ _ _ same own := same.trans own
  define typeName methods w own := by
    rw [define_eq]
    refine List.foldlRecOn (motive := fun w : World => w.poisoned = failing) _ _ own ?_
    intro w own o _
    cases o with
    | engine n => exact (poisoned_inSetup n _ w).trans own
    | watcher label => exact own
  load path lines w own := by
    rw [load_eq]
    refine List.foldlRecOn (motive := fun w : World => w.poisoned = failing) _ _ own ?_
    intro w own o _
    cases o with
    | engine n => exact (poisoned_inSetup n _ w).trans own
    | watcher label => exact own
  process n documents w own := (poisoned_inSetup n _ w).trans own
  turn n k w own := (poisoned_inSetup n _ w).trans own
  told n f w own := (poisoned_inSetup n _ w).trans own
  settled n w own := (poisoned_inSetup n _ w).trans own

theorem lasting_calm : Lasting fun w => w.poisoned = [] := lasting_poisoned []

theorem history_calm {w : World} (calm : w.poisoned = []) (fuel : Nat) (settings : Settings)
    (origin : Origin) (before later : List Event) :
    (w.history fuel settings origin before later).poisoned = [] := by
  have fresh : (w.fresh.after fuel before).poisoned = [] := lasting_calm.after fuel before calm
  exact lasting_calm.after fuel later ((poisoned_inSetup _ _ _).trans fresh)

structure Visit (w : World) (m : MethodName) (code : Code) where
  fuel : Nat
  args : CallArgs
  returned : Value
  after : World
  ran : Action.runCode fuel args code { w with stack := Action.frameOf m :: w.stack } =
    (.ok returned, after)

namespace Visit

variable {w : World} {m : MethodName} {code : Code} {i g : Nat} {e : Engine}

def hit (visit : w.Visit m code) : Execution :=
  .method ⟨visit.args, visit.returned, visit.after.elapsed, visit.after.stack⟩

theorem lasting {P : World → Prop} (visit : w.Visit m code) (lasting : Lasting P) (holds : P w) :
    P visit.after := by
  let entered : World := { w with stack := Action.frameOf m :: w.stack }
  have ran := Action.respects_runCode lasting.confined visit.fuel visit.args code
    (fun _ _ _ => trivial) entered (lasting.congr w entered rfl rfl rfl holds)
  rwa [visit.ran] at ran

/-- The call returns what the program has returned, and tells something in addition. -/
def Tells (visit : w.Visit m code) (told : List Notice) : Prop :=
  ∃ w', Action.call (Action.runCode visit.fuel) m visit.args w = (.ok (.ok visit.returned), w') ∧
    w'.journal = visit.after.journal ++ told.map .notice

theorem call_of_fired (visit : w.Visit m code) {body : Body} {bound : Nat → Nat}
    (found : w.host.body? m = some body) (stacked : body.Stacked m code bound) {w' : World}
    (fired : Action.fireAll (Action.runCode visit.fuel) visit.args visit.returned
      ((body.live fun n => w.slot n m).map (·.2)) visit.after = (.ok (), w')) :
    Action.call (Action.runCode visit.fuel) m visit.args w =
      (.ok (.ok visit.returned), { w' with stack := w'.stack.tail }) := by
  rw [Action.call_of_stacked _ _ found stacked, Action.bind_apply]
  unfold Action.inFrame Action.observed
  rw [Action.bind_apply, visit.ran]
  dsimp only
  rw [Action.bind_apply, fired]
  rfl

theorem tells_nothing (visit : w.Visit m code) (bare : w.host.body? m = some (.program code)) :
    visit.Tells [] := by
  have stacked : (Body.program code).Stacked m code fun _ => 0 := rfl
  exact ⟨_, visit.call_of_fired bare stacked rfl, (List.append_nil _).symm⟩

theorem tells_of_hooked (visit : w.Visit m code) (laid : w.host.body? m =
      some (.hooked 0 m i (.probes 0 g) (.program code))) (positive : 0 < i)
    (current : w.slot 0 m = i) (only : visit.after.engines = [e])
    (calm : visit.after.poisoned = []) :
    visit.Tells ((Probes.granted (e.probes.membersOf g) e.probes).flatMap
      (e.reporter.report visit.after.heap visit.hit)) := by
  have stacked : (Body.hooked 0 m i (.probes 0 g) (.program code)).Stacked m code fun _ => i :=
    ⟨rfl, positive, Nat.le_refl i, rfl, rfl⟩
  have live : (Body.hooked 0 m i (.probes 0 g) (.program code)).live (fun n => w.slot n m) =
      [(0, .probes 0 g)] := by
    simp [Body.live, current]
  have there : visit.after.engines[0]? = some e := by
    rw [only]
    rfl
  obtain ⟨told, reported⟩ := Action.reportAll_apply there g visit.hit
  rw [calm, Reporter.tellings_of_calm] at told
  have fired : Action.fireAll (Action.runCode visit.fuel) visit.args visit.returned
      [.probes 0 g] visit.after = (.ok (), (Action.reportAll 0 g visit.hit visit.after).2) := by
    have one : Action.fireAll (Action.runCode visit.fuel) visit.args visit.returned [.probes 0 g]
        visit.after = (Action.reportAll 0 g visit.hit >>= fun _ => pure ()) visit.after := rfl
    rw [one, Action.bind_apply]
    rcases run : Action.reportAll 0 g visit.hit visit.after with ⟨result, w'⟩
    rw [run] at reported
    cases reported calm
    rfl
  rw [← show _ = [Callback.probes 0 g] from congrArg (List.map (·.2)) live] at fired
  exact ⟨_, visit.call_of_fired laid stacked fired, told⟩

/-- What is told when the program has returned: of probes that are known at the method by then,
and of a given one, if it is among them, once at most. -/
structure Reports (visit : w.Visit m code) (r : Reporter) (k : KnownProbe) (e : Engine)
    (told : List Notice) : Prop where
  engine : visit.after.engines = [e]
  tells : visit.Tells told
  known : ∀ n ∈ told, ∃ k', e.probes.Knows k' ∧ k'.At (.method m) ∧
    n ∈ r.report visit.after.heap visit.hit k'
  own : e.probes.Knows k → told.filter (fun n => n.probeId = k.probe.id) =
    if (e.probes.takeTurn k).1 then r.report visit.after.heap visit.hit k else []

theorem reports_of_settled (visit : w.Visit m code) {r : Reporter} {k : KnownProbe}
    (only : visit.after.engines = [e]) (here : k.At (.method m)) (ordered : e.probes.Ordered)
    (serialized : e.probes.Serialized) (settled : Probes.Settled (.method m) g k e.probes)
    (tells : visit.Tells ((Probes.granted (e.probes.membersOf g) e.probes).flatMap
      (r.report visit.after.heap visit.hit))) :
    ∃ told, visit.Reports r k e told := by
  have grouped := ordered.toGrouped
  have nodup := settled.nodup grouped
  rw [Probes.granted_eq_filter _ (settled.nodup_serials grouped serialized)] at tells
  refine ⟨_, only, tells, fun n member => ?_, fun known => ?_⟩
  · obtain ⟨k', listed, told⟩ := List.mem_flatMap.mp member
    obtain ⟨known, there⟩ := settled.mem_membersOf grouped (List.mem_of_mem_filter listed)
    exact ⟨k', known, there, told⟩
  · have member := settled.member grouped here known
    rw [Notice.filter_flatMap (fun _ _ => Reporter.probeId_report) (nodup.filter _)
      fun k' listed => grouped.eq_of_id known
        (settled.mem_membersOf grouped (List.mem_of_mem_filter listed)).1]
    simp [List.mem_filter, member]

end Visit

def Bare (w : World) (m : MethodName) : Prop :=
  ∃ code, w.host.body? m = some (.program code) ∧ ∀ visit : w.Visit m code, visit.Tells []

/-- The hook of a group, on a program, is the body of a method, and current. -/
def Hooked (w : World) (m : MethodName) (code : Code) : Prop :=
  ∃ i g, w.host.body? m = some (.hooked 0 m i (.probes 0 g) (.program code)) ∧ w.slot 0 m = i

variable {propagate untargeted : Bool} {r : Reporter}

theorem Visit.reports {w : World} {m : MethodName} {code : Code} {k : KnownProbe} {i g : Nat}
    (visit : w.Visit m code) (calm : w.poisoned = [])
    (hosts : w.Hosts fun s => Setup.Attuned propagate untargeted s ∧
      (s.engine.probes.Serialized ∧ Probes.Settled (.method m) g k s.engine.probes) ∧
      s.engine.reporter = r)
    (here : k.At (.method m)) (laid : w.host.body? m =
      some (.hooked 0 m i (.probes 0 g) (.program code))) (positive : 0 < i)
    (current : w.slot 0 m = i) : ∃ e told, visit.Reports r k e told := by
  have kept : Setup.Kept (fun _ _ => True) fun s => (s.engine.probes.Serialized ∧
      Probes.Settled (.method m) g k s.engine.probes) ∧ s.engine.reporter = r :=
    (Setup.kept_of_enduring (Probes.enduring_serialized.and
      (Probes.enduring_settled g here))).and (Setup.kept_reporter r)
  obtain ⟨e, only, attuned, ⟨serialized, settled⟩, reporter⟩ :=
    visit.lasting (lasting_hosts kept.stable) hosts
  have tells := visit.tells_of_hooked laid positive current only (visit.lasting lasting_calm calm)
  rw [show e.reporter = r from reporter] at tells
  exact ⟨e, visit.reports_of_settled only here attuned.composed.coherent.ordered serialized
    settled tells⟩

theorem Hosts.reports {w : World} {fine : Code → Prop} {stale : MethodName → Prop}
    (calm : w.poisoned = [])
    (hosts : w.Hosts fun s => Setup.Attuned propagate untargeted s ∧ Setup.Upheld fine stale r s) :
    w.Hosts fun s => ∀ k m, s.engine.probes.Installs k → k.At (.method m) →
      stale m ∧ w.Bare m ∨ ∃ code, w.Hooked m code ∧
        ∀ visit : w.Visit m code, ∃ e told, visit.Reports r k e told := by
  obtain ⟨e, only, attuned, equipped, serialized, reporter⟩ := hosts
  refine ⟨e, only, fun k m installs here => ?_⟩
  have coherent := attuned.composed.coherent
  have installed := (coherent.hooked (.method m)).mpr (Or.inl ⟨k, installs, here⟩)
  obtain ⟨entry, found⟩ := Table.contains_iff.mp installed
  have own : Hooking.Equipped fine (stale m) ⟨w.host, e.hooks, w.warnings⟩ m _ :=
    equipped (.method m)
  obtain ⟨i, code, positive, slot, -, body⟩ := own.hooked entry found
  rcases body with ⟨lost, anew, -, defined⟩ | ⟨-, g, group, laid⟩
  · exact Or.inl ⟨lost, anew, defined, fun visit => visit.tells_nothing defined⟩
  · have number : e.hooks.manager = 0 := attuned.composed.number
    have current : w.slot 0 m = i := by
      unfold World.slot
      rw [only]
      exact slot
    have laid : w.host.body? m = some (.hooked 0 m i (.probes 0 g) (.program code)) := by
      rw [← number]
      exact laid
    have settled := Probes.settled_of_knows serialized coherent.ordered.toGrouped
      (Or.inl installs) group
    exact Or.inr ⟨code, ⟨i, g, laid, current⟩, fun visit => visit.reports calm
      ⟨e, only, attuned, ⟨serialized, settled⟩, reporter⟩ here laid positive current⟩

def Observes (w : World) (r : Reporter) (m : MethodName) (k : KnownProbe) : Prop :=
  ∃ code, w.Hooked m code ∧ ∀ visit : w.Visit m code, ∃ e told,
    visit.after.engines = [e] ∧ visit.Tells told ∧
      (∀ n ∈ told, ∃ k', e.probes.Knows k' ∧ k'.At (.method m) ∧ n.probeId = k'.probe.id) ∧
      (e.probes.Knows k → told.filter (fun n => n.probeId = k.probe.id) =
        [.status (r.status k.probe .emitting),
          .snapshot (r.snapshot visit.after.heap k.probe visit.hit)])

theorem observes_of_reports {w : World} {m : MethodName} {k : KnownProbe}
    (plain : k.probe.capturing = false) (hooked : ∃ code, w.Hooked m code ∧
      ∀ visit : w.Visit m code, ∃ e told, visit.Reports r k e told) : w.Observes r m k := by
  obtain ⟨code, laid, visits⟩ := hooked
  refine ⟨code, laid, fun visit => ?_⟩
  obtain ⟨e, told, reports⟩ := visits visit
  refine ⟨e, told, reports.engine, reports.tells, fun n member => ?_, fun known => ?_⟩
  · obtain ⟨k', known, there, own⟩ := reports.known n member
    exact ⟨k', known, there, Reporter.probeId_report own⟩
  · rw [reports.own known, Probes.takeTurn_of_not_capturing plain]
    rfl

/-- Whatever has happened, a method with an installed probe that does not capture is observed,
unless it is bare, its definition having taken its hook away. From when it is intact it is observed
for as long as it is not defined. -/
theorem history_observed {w : World} (calm : w.poisoned = []) (fuel : Nat) (settings : Settings)
    (origin : Origin) (before later : List Event) :
    let w' := w.history fuel settings origin before later
    let r := settings.reporter origin
    (w'.Hosts fun s => ∀ k m, s.engine.probes.Installs k → k.probe.location = .method m →
      k.probe.capturing = false → w'.Bare m ∨ w'.Observes r m k) ∧
    ∀ m events, w'.Intact m → (∀ event ∈ events, event.Within (Spares m)) →
      let w'' := w'.after fuel events
      w''.Hosts fun s => ∀ k, s.engine.probes.Installs k → k.probe.location = .method m →
        k.probe.capturing = false → w''.Observes r m k := by
  intro w' r
  have calm' : w'.poisoned = [] := history_calm calm fuel settings origin before later
  have hosts := history_upheld fuel settings origin before later w
  constructor
  · refine (Hosts.reports calm' hosts).mono fun s reported k m installs place plain => ?_
    rcases reported k m installs (Probe.target_eq_method_iff.mpr place) with ⟨-, bare⟩ | hooked
    · exact Or.inl bare
    · exact Or.inr (observes_of_reports plain hooked)
  · intro m events intact spare w''
    have calm'' : w''.poisoned = [] := lasting_calm.after fuel events calm'
    have upheld := Hosts.after_intact hosts intact fuel spare
    refine (Hosts.reports calm'' upheld).mono fun s reported k installs place plain => ?_
    rcases reported k m installs (Probe.target_eq_method_iff.mpr place) with ⟨lost, -⟩ | hooked
    · exact absurd rfl lost
    · exact observes_of_reports plain hooked

namespace Sample

def method : MethodName := ⟨"T", "m"⟩

def origin : Origin := { runtimeId := "r", snapshotId := "s", threadId := "t" }

def settings : Settings := { service := "svc" }

def defining (code : Code) : Event := .define method.typeName [(method.name, code)]

def probing (capturing : Bool) : Event :=
  .process [.object [("id", .string "p"), ("type", .string "LOG_PROBE"),
    ("where", .object [("typeName", .string method.typeName), ("methodName", .string method.name)]),
    ("captureSnapshot", .bool capturing)]]

def probe (capturing : Bool) : KnownProbe :=
  ⟨{ id := "p", kind := "LOG_PROBE", location := .method method, capturing }, 1⟩

/-- A new host runs with an engine on it from the start. -/
def run (events : List Event) : World := World.history 1 settings origin [] events {}

def returns : Body → Bool
  | .program [.ret _] => true
  | _ => false

def installed (w : World) : List (Option KnownProbe) :=
  w.engines.map fun e => Table.get? "p" e.probes.installed

end Sample

open Sample in
theorem history_observed_hooked :
    let w := run [defining [.ret (.integer 1)]]
    let w' := w.after 1 [probing false]
    w.Intact method ∧ w'.Hosts fun s => s.engine.probes.Installs (probe false) ∧
      w'.Observes (settings.reporter origin) method (probe false) := by
  intro w w'
  have programs : w.host.types.all (fun t => t.2.all fun b => returns b.2) = true := by
    decide +kernel
  have unhooked : w.engines.all (fun e => !e.hooks.isInstalled (.method method)) = true := by
    decide +kernel
  have intact : w.Intact method := by
    refine ⟨fun m body found => ?_, fun code _ e member => ?_⟩
    · obtain ⟨methods, known, found⟩ := Option.bind_eq_some_iff.mp found
      have listed := List.all_eq_true.mp programs _ (Table.mem_of_get? known)
      have simple := List.all_eq_true.mp listed _ (Table.mem_of_get? found)
      dsimp only at simple
      unfold returns at simple
      split at simple
      · intro typeName methods' member
        cases List.mem_singleton.mp member
      · cases simple
    · simpa using List.all_eq_true.mp unhooked e member
  have spare : ∀ event ∈ [probing false], event.Within (Spares method) := by
    intro event member
    rw [List.mem_singleton.mp member]
    trivial
  obtain ⟨e, only, observed⟩ := (history_observed (w := {}) rfl 1 settings origin []
    [defining [.ret (.integer 1)]]).2 method [probing false] intact spare
  have only : w'.engines = [e] := only
  have found : installed w' = [some (probe false)] := by decide +kernel
  unfold installed at found
  rw [only] at found
  have installs : e.probes.Installs (probe false) := List.singleton_inj.mp found
  exact ⟨intact, e, only, installs, observed (probe false) installs rfl rfl⟩

open Sample in
/-- A method that is defined anew under its hook: the probe stays installed, the call returns, and
nothing is told. -/
theorem history_overlooked :
    let w := run [defining [.ret (.integer 1)], probing false, defining [.ret (.integer 2)]]
    let ended := Action.call (Action.runCode 1) method {} w
    installed w = [some (probe false)] ∧ (probe false).probe.capturing = false ∧
      (ended.1.toOption.bind Except.toOption).isSome = true ∧
      ended.2.journal.length = w.journal.length := by
  decide +kernel

end World
end LiveProbe
