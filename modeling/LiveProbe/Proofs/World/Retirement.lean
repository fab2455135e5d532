import LiveProbe.Proofs.World.Aloof
import LiveProbe.Proofs.World.Chronicle
import LiveProbe.Proofs.World.Observation

/-!
A host whose engine has been shut down. From then on, as long as no configuration is handed over, it
runs as if it had never had one: the engine holds no hook, does nothing and tells nothing, and a
call runs what the method was defined as last, and that alone.
-/
namespace LiveProbe

theorem Code.aloof_ret (circle : MethodName → Prop) (v : Literal) : Code.Aloof circle [.ret v] :=
  .intro (by simp) (by simp) (by simp) (by simp)

def Action.callProgram (run : Runner) (m : MethodName) (args : CallArgs) :
    Option Code → Action (Except Error Value)
  | none => return .error (.targetNotDefined m.display)
  | some code => return .ok (← inFrame (frameOf m) (run args code))

theorem Action.call_of_program (run : Runner) (m : MethodName) (args : CallArgs)
    {program : Option Code} {w : World} (bare : w.host.body? m = program.map .program) :
    call run m args w = callProgram run m args program w := by
  cases program with
  | none => exact call_of_undefined run args bare
  | some code => exact call_of_found run args bare

theorem Setup.Retired.onHost {s : Setup} (retired : s.Retired) {h : Host} (pristine : Pristine h)
    (journal : List Occurrence) (warnings : List Warning) :
    Retired ⟨h, s.engine, journal, warnings⟩ :=
  { retired with
    pristine
    numbered := fun t member => by
      rw [show h.traces = [] from pristine.traces] at member
      cases member }

namespace World

variable {w : World} {circle : MethodName → Prop} {latest : Definitions}

def aftermath (fuel : Nat) (rounds : List (List Event)) (w : World) : World :=
  rounds.foldl (fun w events => (w.shutDown 0).after fuel events) w

theorem chronicle_aftermath (fuel : Nat) (rounds : List (List Event)) :
    ∀ {w : World}, (∃ latest, Chronicle latest w) →
      ∃ latest, Chronicle latest (w.aftermath fuel rounds) := by
  induction rounds with
  | nil => exact id
  | cons events rest ih =>
    rintro w ⟨latest, before⟩
    exact ih (lasting_chronicle.after fuel events ⟨latest, .shutsDown 0 before⟩)

/-- The engine is done, and the host left to itself, as far as code of a circle is called. -/
structure Done (circle : MethodName → Prop) (w : World) : Prop where
  host : w.host.Aloof circle
  hosts : w.Hosts Setup.Retired

namespace Done

theorem shutDown_eq (done : w.Done circle) : w.shutDown 0 = w := by
  obtain ⟨e, only, retired⟩ := done.hosts
  obtain ⟨host, heap, engines, stack, journal, warnings, poisoned, elapsed⟩ := w
  cases only
  have same := retired.shutdown_eq
  unfold shutDown updateSetup World.inSetup
  simp only [List.getElem?_cons_zero, same]
  rfl

theorem after (done : w.Done circle) (fuel : Nat) {events : List Event}
    (aloof : ∀ event ∈ events, event.Aloof circle) :
    (w.after fuel events).Done circle ∧
      ∀ v : World, (v.beside w).after fuel events = v.beside (w.after fuel events) := by
  obtain ⟨host, beside⟩ := aloof_after fuel events done.host aloof
  obtain ⟨e, only, retired⟩ := done.hosts
  have engines : (w.after fuel events).engines = w.engines := by
    have own := beside w
    rw [beside_self] at own
    rw [own]
    rfl
  exact ⟨⟨host, e, engines.trans only, retired.onHost host.pristine _ _⟩, beside⟩

theorem aftermath_eq (fuel : Nat) (rounds : List (List Event)) :
    ∀ {w : World}, w.Done circle → (∀ events ∈ rounds, ∀ event ∈ events, event.Aloof circle) →
      w.aftermath fuel rounds = w.after fuel rounds.flatten := by
  induction rounds with
  | nil => exact fun _ _ => rfl
  | cons events rest ih =>
    intro w done aloof
    obtain ⟨first, later⟩ := List.forall_mem_cons.mp aloof
    show ((w.shutDown 0).after fuel events).aftermath fuel rest = _
    rw [done.shutDown_eq, ih (done.after fuel first).1 later]
    unfold World.after
    rw [List.flatten_cons, List.foldl_append]

theorem bodies (done : w.Done circle) (chronicle : Chronicle latest w) (m : MethodName) :
    w.host.body? m = (latest m).map .program := by
  obtain ⟨e, only, retired⟩ := done.hosts
  rcases chronicle.rooted with ⟨-, bodies⟩ | ⟨propagate, e', only', -, rooted⟩
  · exact bodies m
  · have same : e' = e := List.singleton_inj.mp (only'.symm.trans only)
    subst same
    exact retired.body?_eq rooted m

end Done

theorem Rooted.found (rooted : w.Rooted latest) {m : MethodName} {code : Code}
    (defined : latest m = some code) : ∃ body, w.host.body? m = some body ∧
      (body = .program code ∨ ∃ manager i callback,
        body = .hooked manager m i callback (.program code)) := by
  rcases rooted with ⟨-, bodies⟩ | ⟨propagate, e, only, -, rooted⟩
  · exact ⟨_, (bodies m).trans (congrArg _ defined), Or.inl rfl⟩
  · rcases rooted.bodies m with bare | ⟨code', defined', i, callback, -, laid⟩
    · exact ⟨_, bare.trans (congrArg _ defined), Or.inl rfl⟩
    · cases defined.symm.trans defined'
      exact ⟨_, laid, Or.inr ⟨_, i, callback, rfl⟩⟩

theorem Hosts.chronicled {J : Setup → Prop} (hosts : w.Hosts J) (chronicle : Chronicle latest w) :
    ∃ propagate, w.Hosts fun s => J s ∧ Setup.Chronicled propagate latest s := by
  rcases chronicle.rooted with ⟨vacant, -⟩ | ⟨propagate, chronicled⟩
  · obtain ⟨e, only, -⟩ := hosts
    cases vacant.1.symm.trans only
  · exact ⟨propagate, hosts.and chronicled⟩

theorem history_regular (fuel : Nat) (settings : Settings) (origin : Origin)
    (before later : List Event) (w : World) :
    (w.history fuel settings origin before later).Hosts Setup.Regular :=
  (history_attuned fuel settings origin before later w).mono fun _ attuned => attuned.regular

theorem Hosts.shutDown {propagate : Bool} (hosts : w.Hosts fun s =>
      s.Regular ∧ Setup.Chronicled propagate latest s) :
    (w.shutDown 0).Hosts fun s =>
      s.journal = w.journal ∧ s.Retired ∧ Setup.Chronicled propagate latest s := by
  obtain ⟨e, only, holds⟩ := hosts
  have now : w.Hosts fun s => s.journal = w.journal ∧ s.Regular ∧
    Setup.Chronicled propagate latest s := ⟨e, only, rfl, holds⟩
  refine now.inFirst (f := fun s => ((), s.shutdown))
    fun s ⟨journal, regular, composed, rooted⟩ => ?_
  obtain ⟨types, warnings, done, -⟩ := composed.shutdown_eq rooted
  exact ⟨(congrArg (·.journal) done).trans journal,
    Setup.retired_shutdown composed rooted regular, composed.shutdown rooted⟩

theorem Chronicle.done {running : World} (hosts : running.Hosts Setup.Regular)
    (chronicle : Chronicle latest running)
    (programs : ∀ m code, circle m → latest m = some code → code.Aloof circle) :
    (running.shutDown 0).Done circle ∧ (running.shutDown 0).journal = running.journal := by
  obtain ⟨propagate, hosts⟩ := hosts.chronicled chronicle
  obtain ⟨e, only, journal, retired, composed, rooted⟩ := hosts.shutDown
  refine ⟨⟨⟨retired.pristine, fun m code inside found => ?_⟩, e, only, retired⟩, journal⟩
  obtain ⟨code', defined, same⟩ :=
    Option.map_eq_some_iff.mp ((retired.body?_eq rooted m).symm.trans found)
  obtain rfl := Body.program.inj same
  exact programs m _ inside defined

structure Uninstrumented (w ended : World) : Prop where
  counts : ∃ e, ended.engines = [e] ∧ e.hooks.counts = (0, 0)
  untraced : ended.host.traces = []
  idle : ended.engines = (w.shutDown 0).engines
  untold : ended.journal = w.journal
  recorded : ∃ latest, Chronicle latest ended
  calls : ∀ latest, Chronicle latest ended → ∀ run m args,
    Action.call run m args ended = Action.callProgram run m args (latest m) ended

/-- Whatever has happened with an engine before it is shut down, once or again and again, and
whatever happens then but configurations: the engine has no hook and does nothing more, all goes as
with any other engines in its place, and methods do what they were defined as last. -/
theorem history_aftermath (fuel fuel' : Nat) (settings : Settings) (origin : Origin)
    (before earlier : List Event) (w : World) (circle : MethodName → Prop) :
    let running := w.history fuel settings origin before earlier
    (∀ latest, Chronicle latest running → ∀ m code, circle m → latest m = some code →
      code.Aloof circle) →
    ∀ first rest, (∀ events ∈ first :: rest, ∀ event ∈ events, event.Aloof circle) →
      let ended := running.aftermath fuel' (first :: rest)
      running.Uninstrumented ended ∧
        ∀ v : World, (v.beside (running.shutDown 0)).after fuel' (first :: rest).flatten =
          v.beside ended := by
  intro running programs first rest aloof ended
  obtain ⟨latest, chronicle⟩ := chronicle_history fuel settings origin before earlier w
  obtain ⟨done, journal⟩ := chronicle.done
    (history_regular fuel settings origin before earlier w) (programs latest chronicle)
  have flat : ended = (running.shutDown 0).after fuel' (first :: rest).flatten := by
    have again := done.aftermath_eq fuel' (first :: rest) aloof
    unfold aftermath at again
    rw [List.foldl_cons, done.shutDown_eq] at again
    exact again
  have events : ∀ event ∈ (first :: rest).flatten, event.Aloof circle := by
    intro event member
    obtain ⟨events, listed, own⟩ := List.mem_flatten.mp member
    exact aloof events listed event own
  obtain ⟨done', beside⟩ := done.after fuel' events
  rw [← flat] at done' beside
  have own : ended = (running.shutDown 0).beside ended := by
    rw [← beside, beside_self]
    exact flat
  have idle : ended.engines = (running.shutDown 0).engines := congrArg (·.engines) own
  have untold : ended.journal = (running.shutDown 0).journal := congrArg (·.journal) own
  obtain ⟨e, only, retired⟩ := done'.hosts
  exact ⟨{
    counts := ⟨e, only, retired.counts⟩
    untraced := done'.host.pristine.traces
    idle
    untold := untold.trans journal
    recorded := chronicle_aftermath fuel' (first :: rest) ⟨latest, chronicle⟩
    calls := fun latest' chronicle' run m args =>
      Action.call_of_program run m args (done'.bodies chronicle' m) }, beside⟩

namespace Sample

def yields : Body → Bool
  | .program [.ret _] => true
  | .hooked _ _ _ _ (.program [.ret _]) => true
  | _ => false

end Sample

open Sample in
/-- A method under a probe is called after a shutdown, and after another one defined anew and called
again. -/
theorem history_aftermath_redefined :
    let running := run [defining [.ret (.integer 1)], probing false]
    let rounds := [[.call method {}], [defining [.ret (.integer 2)], .call method {}]]
    let ended := running.aftermath 1 rounds
    installed running = [some (probe false)] ∧ installed ended = [none] ∧
      running.Uninstrumented ended ∧
      ∀ v : World, (v.beside (running.shutDown 0)).after 1 rounds.flatten = v.beside ended := by
  intro running rounds ended
  have hooked : installed running = [some (probe false)] := by decide +kernel
  have unhooked : installed ended = [none] := by decide +kernel
  have programs : running.host.types.all (fun t => t.2.all fun b => yields b.2) = true := by
    decide +kernel
  refine ⟨hooked, unhooked, history_aftermath 1 1 settings origin []
    [defining [.ret (.integer 1)], probing false] {} (· = method)
    (fun latest chronicle m code _ defined => ?_) _ _ fun events member event own => ?_⟩
  · obtain ⟨body, found, laid⟩ := chronicle.rooted.found defined
    obtain ⟨methods, known, found⟩ := Option.bind_eq_some_iff.mp found
    have listed := List.all_eq_true.mp programs _ (Table.mem_of_get? known)
    have simple := List.all_eq_true.mp listed _ (Table.mem_of_get? found)
    dsimp only at simple
    obtain ⟨v, rfl⟩ : ∃ v, code = [.ret v] := by
      unfold yields at simple
      rcases laid with rfl | ⟨manager, i, callback, rfl⟩ <;> split at simple <;> simp_all
    exact Code.aloof_ret _ v
  · have known : event ∈ rounds.flatten := List.mem_flatten.mpr ⟨events, member, own⟩
    obtain rfl | rfl : event = .call method {} ∨ event = defining [.ret (.integer 2)] := by
      simpa [rounds, or_comm, or_left_comm] using known
    · exact rfl
    · intro e member _
      rw [List.mem_singleton.mp member]
      exact Code.aloof_ret _ _

end World
end LiveProbe
