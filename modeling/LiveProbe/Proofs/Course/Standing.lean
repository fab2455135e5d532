import LiveProbe.Proofs.Engine.Composition
import LiveProbe.Proofs.Engine.Promotion
import LiveProbe.Proofs.World.Reporting

/-!
What is told of a probe, by how the engine stands to its name. A name is unknown, pending or
installed, and whatever the engine does tells of it exactly how it comes from one to the other: that
it has been received before it is known, and that it is installed when it is. That it emits is told
of an installed probe alone, and a snapshot of it follows at once.
-/
namespace LiveProbe

/-- How the engine stands to the name of a probe. -/
inductive Standing where
  | unknown
  | pending
  | installed
  deriving DecidableEq, Repr

namespace Probes

variable {ps ps' : Probes} {k : KnownProbe} {id : String}

def standing (ps : Probes) (id : String) : Standing :=
  if ps.isInstalled id then .installed else if ps.isPending id then .pending else .unknown

theorem standing_of_unknown (unknown : ps.isKnown id = false) : ps.standing id = .unknown := by
  unfold isKnown at unknown
  simp only [Bool.or_eq_false_iff] at unknown
  simp [standing, unknown]

theorem standing_congr (installed : ps'.isInstalled id = ps.isInstalled id)
    (pending : ps'.isPending id = ps.isPending id) : ps'.standing id = ps.standing id := by
  unfold standing
  rw [installed, pending]

theorem standing_addInstalled (k : KnownProbe) (ps : Probes) (id : String) :
    (ps.addInstalled k).standing id =
      if id = k.probe.id then .installed else ps.standing id := by
  have own : (ps.addInstalled k).isInstalled id = (decide (id = k.probe.id) || ps.isInstalled id) :=
    Table.contains_insert k.probe.id id k ps.installed
  by_cases named : id = k.probe.id
  · rw [if_pos named]
    exact if_pos (by rw [own, decide_eq_true named, Bool.true_or])
  · rw [if_neg named]
    exact standing_congr (by rw [own, decide_eq_false named, Bool.false_or]) rfl

theorem standing_addPending (unknown : ps.isKnown k.probe.id = false) (id : String) :
    (ps.addPending k).standing id = if id = k.probe.id then .pending else ps.standing id := by
  have own : (ps.addPending k).isPending id = (decide (id = k.probe.id) || ps.isPending id) :=
    Table.contains_insert k.probe.id id k ps.pending
  by_cases named : id = k.probe.id
  · subst named
    have uninstalled : (ps.addPending k).isInstalled k.probe.id = false :=
      (Bool.or_eq_false_iff.mp unknown).1
    simp [standing, uninstalled, own]
  · rw [if_neg named]
    exact standing_congr rfl (by rw [own, decide_eq_false named, Bool.false_or])

theorem Grouped.isInstalled_iff (grouped : ps.Grouped) :
    ps.isInstalled id = true ↔ ∃ k, ps.Installs k ∧ k.probe.id = id :=
  grouped.installed.contains_iff

theorem Grouped.isPending_iff (grouped : ps.Grouped) :
    ps.isPending id = true ↔ ∃ k, ps.Awaits k ∧ k.probe.id = id :=
  grouped.pending.contains_iff

theorem Grouped.standing_of_installs (grouped : ps.Grouped) (installs : ps.Installs k) :
    ps.standing k.probe.id = .installed :=
  if_pos (grouped.isInstalled_iff.mpr ⟨k, installs, rfl⟩)

theorem Grouped.standing_of_awaits (grouped : ps.Grouped) (awaits : ps.Awaits k) :
    ps.standing k.probe.id = .pending := by
  have pending := grouped.isPending_iff.mpr ⟨k, awaits, rfl⟩
  have uninstalled : ps.isInstalled k.probe.id = false :=
    Bool.eq_false_iff.mpr fun installed => by
      rw [show ps.isPending k.probe.id = false from grouped.apart _ installed] at pending
      cases pending
  simp [standing, pending, uninstalled]

theorem Grouped.standing_eq (grouped : ps.Grouped) (grouped' : ps'.Grouped)
    (same : ∀ k, k.probe.id = id →
      (ps'.Installs k ↔ ps.Installs k) ∧ (ps'.Awaits k ↔ ps.Awaits k)) :
    ps'.standing id = ps.standing id := by
  apply standing_congr
  · rw [Bool.eq_iff_iff, grouped'.isInstalled_iff, grouped.isInstalled_iff]
    exact exists_congr fun k => and_congr_left fun named => (same k named).1
  · rw [Bool.eq_iff_iff, grouped'.isPending_iff, grouped.isPending_iff]
    exact exists_congr fun k => and_congr_left fun named => (same k named).2

end Probes

namespace Notice

/-- Whenever it is told that a probe emits, a snapshot of the probe is told next, unless the receiver
fails at it; and no snapshot is told otherwise. -/
inductive Paired (failing : List String) : List Notice → Prop
  | nil : Paired failing []
  | status {e : StatusEnvelope} {rest : List Notice} (other : e.status ≠ .emitting)
      (later : Paired failing rest) : Paired failing (.status e :: rest)
  | emission {e : StatusEnvelope} {s : SnapshotEnvelope} {rest : List Notice}
      (emits : e.status = .emitting) (same : s.probeId = e.probeId) (later : Paired failing rest) :
    Paired failing (.status e :: .snapshot s :: rest)
  | failure {e : StatusEnvelope} {rest : List Notice} (emits : e.status = .emitting)
      (fails : e.probeId ∈ failing) (later : Paired failing rest) :
    Paired failing (.status e :: rest)

variable {failing : List String}

theorem Paired.append {first later : List Notice} (paired : Paired failing first)
    (paired' : Paired failing later) : Paired failing (first ++ later) := by
  induction paired with
  | nil => exact paired'
  | status other _ ih => exact .status other ih
  | emission emits same _ ih => exact .emission emits same ih
  | failure emits fails _ ih => exact .failure emits fails ih

theorem paired_flatMap {f : KnownProbe → List Notice} (each : ∀ k, Paired failing (f k))
    (ks : List KnownProbe) : Paired failing (ks.flatMap f) := by
  induction ks with
  | nil => exact .nil
  | cons k rest ih => exact (each k).append ih

end Notice

namespace Reporter

variable {r : Reporter} {failing : List String} {k : KnownProbe}

/-- What may be told of a name while it comes from one standing to another. -/
inductive Announces (r : Reporter) (failing : List String) (id : String) :
    Standing → List Notice → Standing → Prop
  | silence {a : Standing} : Announces r failing id a [] a
  | reception {p : Probe} {a : Standing} (named : p.id = id) :
    Announces r failing id a [.status (r.status p .received)] a
  | waiting {p : Probe} (named : p.id = id) :
    Announces r failing id .unknown [.status (r.status p .received)] .pending
  | installation {p : Probe} (named : p.id = id) : Announces r failing id .unknown
      [.status (r.status p .received), .status (r.status p .installed)] .installed
  | promotion {p : Probe} (named : p.id = id) :
    Announces r failing id .pending [.status (r.status p .installed)] .installed
  | emission {p : Probe} {heap : Heap} {x : Execution} (named : p.id = id) :
    Announces r failing id .installed
      [.status (r.status p .emitting), .snapshot (r.snapshot heap p x)] .installed
  | failure {p : Probe} (named : p.id = id) (fails : id ∈ failing) :
    Announces r failing id .installed [.status (r.status p .emitting)] .installed
  | removal {a : Standing} : Announces r failing id a [] .unknown

theorem probeId_welcome {n : Notice} (member : n ∈ r.welcome k) : n.probeId = k.probe.id := by
  rw [List.mem_singleton.mp member]
  rfl

theorem paired_welcome (r : Reporter) (failing : List String) (k : KnownProbe) :
    Notice.Paired failing (r.welcome k) :=
  .status (fun same => by cases same) .nil

/-! What the members of a group have told when its hook fires. -/

inductive Turn (r : Reporter) (failing : List String) (heap : Heap) (x : Execution)
    (k : KnownProbe) : List Notice → Prop
  | declined : Turn r failing heap x k []
  | reported : Turn r failing heap x k (r.report heap x k)
  | failed (fails : k.probe.id ∈ failing) :
    Turn r failing heap x k [.status (r.status k.probe .emitting)]

inductive Round (r : Reporter) (failing : List String) (heap : Heap) (x : Execution) :
    List KnownProbe → List Notice → Prop
  | ended {ks : List KnownProbe} : Round r failing heap x ks []
  | turn {k : KnownProbe} {rest : List KnownProbe} {own later : List Notice}
      (turn : r.Turn failing heap x k own) (round : Round r failing heap x rest later) :
    Round r failing heap x (k :: rest) (own ++ later)

variable {heap : Heap} {x : Execution} {own told : List Notice} {ks : List KnownProbe}

theorem round_tellings (propagate : Bool) (ks : List KnownProbe) :
    ∀ ps, r.Round failing heap x ks (r.tellings heap x failing propagate ks ps) := by
  induction ks with
  | nil => exact fun _ => .ended
  | cons k rest ih =>
    intro ps
    rw [tellings]
    split
    · split
      · rename_i fails
        refine .turn (.failed fails) (?_ : r.Round _ _ _ _ (if propagate then [] else _))
        split
        · exact .ended
        · exact ih _
      · exact .turn .reported (ih _)
    · exact .turn .declined (ih _)

theorem Turn.named (turn : r.Turn failing heap x k own) {n : Notice} (member : n ∈ own) :
    n.probeId = k.probe.id := by
  cases turn with
  | declined => cases member
  | reported => exact probeId_report member
  | failed =>
    rw [List.mem_singleton.mp member]
    rfl

theorem Round.named (round : r.Round failing heap x ks told) {n : Notice} (member : n ∈ told) :
    ∃ k ∈ ks, n.probeId = k.probe.id := by
  induction round with
  | ended => cases member
  | turn turn _ ih =>
    rcases List.mem_append.mp member with first | later
    · exact ⟨_, List.mem_cons_self, turn.named first⟩
    · obtain ⟨k, listed, named⟩ := ih later
      exact ⟨k, List.mem_cons_of_mem _ listed, named⟩

theorem Round.paired (round : r.Round failing heap x ks told) : Notice.Paired failing told := by
  induction round with
  | ended => exact .nil
  | turn turn _ ih =>
    cases turn with
    | declined => exact ih
    | reported => exact .emission rfl rfl ih
    | failed fails => exact .failure rfl fails ih

theorem Turn.announces (turn : r.Turn failing heap x k own) :
    r.Announces failing k.probe.id .installed own .installed := by
  cases turn with
  | declined => exact .silence
  | reported => exact .emission rfl
  | failed fails => exact .failure rfl fails

theorem Round.announces (round : r.Round failing heap x ks told) {id : String} {a : Standing}
    (nodup : (ks.map (·.probe.id)).Nodup) (installed : ∀ k ∈ ks, k.probe.id = id → a = .installed) :
    r.Announces failing id a (told.filter fun n => n.probeId = id) a := by
  induction round with
  | ended => exact .silence
  | @turn k rest own later turn round ih =>
    obtain ⟨fresh, nodupRest⟩ := List.nodup_cons.mp nodup
    obtain ⟨first, installedRest⟩ := List.forall_mem_cons.mp installed
    rw [List.filter_append]
    by_cases named : k.probe.id = id
    · have whole : own.filter (fun n => n.probeId = id) = own :=
        List.filter_eq_self.mpr fun n member => decide_eq_true ((turn.named member).trans named)
      have nothing : later.filter (fun n => n.probeId = id) = [] := by
        refine List.filter_eq_nil_iff.mpr fun n member same => fresh ?_
        obtain ⟨k', listed, other⟩ := round.named member
        exact List.mem_map.mpr
          ⟨k', listed, (other.symm.trans (of_decide_eq_true same)).trans named.symm⟩
      rw [whole, nothing, List.append_nil, first named, ← named]
      exact turn.announces
    · have nothing : own.filter (fun n => n.probeId = id) = [] :=
        List.filter_eq_nil_iff.mpr fun n member same =>
          named ((turn.named member).symm.trans (of_decide_eq_true same))
      rw [nothing]
      exact ih nodupRest installedRest

end Reporter

namespace Setup

variable {r : Reporter} {failing : List String} {s s' : Setup} {told : List Notice} {p : Probe}

/-- What has been told from one setup to another says how every name has come to stand. -/
structure Announced (r : Reporter) (failing : List String) (s s' : Setup) (told : List Notice) :
    Prop where
  journal : s'.journal = s.journal ++ told.map .notice
  paired : Notice.Paired failing told
  each : ∀ id, r.Announces failing id (s.engine.probes.standing id)
    (told.filter fun n => n.probeId = id) (s'.engine.probes.standing id)

theorem announced_nothing (journal : s'.journal = s.journal)
    (standing : ∀ id, s'.engine.probes.standing id = s.engine.probes.standing id ∨
      s'.engine.probes.standing id = .unknown) : Announced r failing s s' [] := by
  refine ⟨journal.trans (List.append_nil _).symm, .nil, fun id => ?_⟩
  rcases standing id with same | unknown
  · rw [same]
    exact .silence
  · rw [unknown]
    exact .removal

/-! Probes that are handed over. -/

/-- What is told when a probe may enter, but that it has been received. -/
inductive Admits (r : Reporter) (p : Probe) : Standing → List Notice → Standing → Prop
  | idle {a : Standing} : Admits r p a [] a
  | pending : Admits r p .unknown [] .pending
  | installed : Admits r p .unknown [.status (r.status p .installed)] .installed

theorem Admits.announces {a b : Standing} (admits : Admits r p a told b) :
    r.Announces failing p.id a (.status (r.status p .received) :: told) b := by
  cases admits with
  | idle => exact .reception rfl
  | pending => exact .waiting rfl
  | installed => exact .installation rfl

theorem Admits.named {a b : Standing} (admits : Admits r p a told b) {n : Notice}
    (member : n ∈ told) : n.probeId = p.id := by
  cases admits with
  | idle | pending => cases member
  | installed =>
    rw [List.mem_singleton.mp member]
    rfl

theorem Admits.paired {a b : Standing} (admits : Admits r p a told b) : Notice.Paired failing told := by
  cases admits with
  | idle | pending => exact .nil
  | installed => exact .status (fun same => by cases same) .nil

structure Entered (r : Reporter) (p : Probe) (s s' : Setup) (told : List Notice) : Prop where
  journal : s'.journal = s.journal ++ told.map .notice
  own : Admits r p (s.engine.probes.standing p.id) told (s'.engine.probes.standing p.id)
  others : ∀ id, id ≠ p.id → s'.engine.probes.standing id = s.engine.probes.standing id

theorem entered_idle (journal : s'.journal = s.journal)
    (standing : s'.engine.probes.standing = s.engine.probes.standing) : Entered r p s s' [] := by
  refine ⟨journal.trans (List.append_nil _).symm, ?_, fun id _ => congrFun standing id⟩
  rw [standing]
  exact .idle

theorem enter_entered (unknown : s.engine.probes.isKnown p.id = false) {k : KnownProbe}
    (own : k.probe = p) (installed : Bool) (journal : s'.journal = s.journal)
    (reporter : s'.engine.reporter = r)
    (tables : s'.engine.probes.installed = s.engine.probes.installed ∧
      s'.engine.probes.pending = s.engine.probes.pending) :
    ∃ told, Entered r p s (s'.enter installed k) told := by
  subst own reporter
  have rosters : (∀ id, s'.engine.probes.isInstalled id = s.engine.probes.isInstalled id) ∧
      ∀ id, s'.engine.probes.isPending id = s.engine.probes.isPending id :=
    ⟨fun id => congrArg (Table.contains id) tables.1, fun id => congrArg (Table.contains id) tables.2⟩
  have standing : s'.engine.probes.standing = s.engine.probes.standing := by
    funext id
    exact Probes.standing_congr (rosters.1 id) (rosters.2 id)
  have unknown' : s'.engine.probes.isKnown k.probe.id = false := by
    unfold Probes.isKnown
    rw [rosters.1, rosters.2]
    exact unknown
  have before := Probes.standing_of_unknown unknown
  unfold enter
  cases installed with
  | true =>
    have after := Probes.standing_addInstalled k s'.engine.probes
    refine ⟨[.status (s'.engine.reporter.status k.probe .installed)], ?_, ?_, fun id other => ?_⟩
    · show s'.journal ++ _ = _
      rw [journal]
      rfl
    · rw [before]
      show Admits _ _ _ _ ((s'.engine.probes.addInstalled k).standing k.probe.id)
      rw [after, if_pos rfl]
      exact .installed
    · show (s'.engine.probes.addInstalled k).standing id = _
      rw [after, if_neg other, standing]
  | false =>
    have after := Probes.standing_addPending (k := k) unknown'
    refine ⟨[], journal.trans (List.append_nil _).symm, ?_, fun id other => ?_⟩
    · rw [before]
      show Admits _ _ _ _ ((s'.engine.probes.addPending k).standing k.probe.id)
      rw [after, if_pos rfl]
      exact .pending
    · show (s'.engine.probes.addPending k).standing id = _
      rw [after, if_neg other, standing]

theorem addProbe_entered (reporter : s.engine.reporter = r) (p : Probe) :
    ∃ told, Entered r p s (s.addProbe p).2 told := by
  cases known : s.engine.probes.isKnown p.id with
  | true =>
    rw [addProbe_of_isKnown known]
    exact ⟨[], entered_idle rfl rfl⟩
  | false =>
    unfold addProbe Probes.admission
    simp only [known, Bool.false_eq_true, if_false]
    cases p.target with
    | error e => exact ⟨[], entered_idle rfl rfl⟩
    | ok target =>
      cases target with
      | none => exact ⟨[], entered_idle rfl rfl⟩
      | some t =>
        dsimp only
        cases Table.get? t s.engine.probes.groups with
        | some g => exact enter_entered known rfl _ rfl reporter ⟨rfl, rfl⟩
        | none =>
          -- asking for the hook tells nothing and changes no roster
          have kept : (s.requestHook t).2.journal = s.journal ∧
              (s.requestHook t).2.engine.reporter = s.engine.reporter ∧
              (s.requestHook t).2.engine.probes = s.engine.probes := ⟨rfl, rfl, rfl⟩
          dsimp only
          rcases requested : s.requestHook t with ⟨answer, s'⟩
          rw [requested] at kept
          obtain ⟨journal, reporter', probes⟩ := kept
          dsimp only at journal reporter' probes
          cases answer with
          | error e => exact ⟨[], entered_idle journal (congrArg Probes.standing probes)⟩
          | ok installed =>
            have tables : s'.engine.probes.installed = s.engine.probes.installed ∧
                s'.engine.probes.pending = s.engine.probes.pending := by
              rw [probes]
              exact ⟨rfl, rfl⟩
            exact enter_entered known rfl installed journal (reporter'.trans reporter) tables

theorem applyDocument_announced (reporter : s.engine.reporter = r) (document : Json) :
    ∃ told, Announced r failing s (s.applyDocument document).2 told := by
  unfold applyDocument
  cases Probe.ofDocument document with
  | error e => exact ⟨[], announced_nothing rfl fun _ => Or.inl rfl⟩
  | ok p =>
    have received : (s.tellStatus p .received).journal =
        s.journal ++ [.notice (.status (r.status p .received))] := by
      rw [← reporter]
      rfl
    obtain ⟨told, journal, own, others⟩ :=
      addProbe_entered (s := s.tellStatus p .received) reporter p
    refine ⟨.status (r.status p .received) :: told, ?_,
      .status (fun same => by cases same) own.paired, fun id => ?_⟩
    · rw [journal, received, List.append_assoc]
      rfl
    · by_cases named : id = p.id
      · subst named
        have whole : (Notice.status (r.status p .received) :: told).filter
            (fun n => n.probeId = p.id) = .status (r.status p .received) :: told := by
          refine List.filter_eq_self.mpr fun n member => decide_eq_true ?_
          rcases List.mem_cons.mp member with rfl | later
          · rfl
          · exact own.named later
        rw [whole]
        exact own.announces
      · have nothing : (Notice.status (r.status p .received) :: told).filter
            (fun n => n.probeId = id) = [] := by
          refine List.filter_eq_nil_iff.mpr fun n member same => named ?_
          rw [← of_decide_eq_true same]
          rcases List.mem_cons.mp member with rfl | later
          · rfl
          · exact own.named later
        rw [nothing]
        show r.Announces failing id _ _ ((addProbe p _).2.engine.probes.standing id)
        rw [others id named]
        exact .silence

end Setup
end LiveProbe
