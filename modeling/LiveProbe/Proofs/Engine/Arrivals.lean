import LiveProbe.Proofs.Engine.Reconciliation
import LiveProbe.Proofs.Hook.Equipment

/-!
What a configuration brings to an engine that follows no code. Hooks on methods are asked for all
the same; those on lines are refused, unless lines may be traced anywhere. That the hooks are closed
makes no difference.
-/
namespace LiveProbe

namespace Probe

/-- Where the hook of a probe is asked for as long as no code is followed, or why it is not. -/
def lateTarget (untargeted : Bool) (p : Probe) : Except Error (Option HookTarget) :=
  match p.target with
  | .ok (some (.line l)) =>
    if untargeted then .ok (some (.line l)) else .error (.untargetedTracingDisallowed l.display)
  | answer => answer

def arrival (untargeted : Bool) (known : List Probe) (document : Json) :
    Except Error (Option Probe) :=
  match ofDocument document with
  | .error e => .error e
  | .ok p =>
    if p.id ∈ known.map (·.id) then .ok none
    else (p.lateTarget untargeted).map fun target => target.map fun _ => p

/-- The probes that are known when the documents have been read, of which the first one that is
refused is the last one read if errors reach the host. -/
def arrivals (untargeted propagate : Bool) (known : List Probe) : List Json → List Probe
  | [] => known
  | document :: rest =>
    match arrival untargeted known document with
    | .ok brought => arrivals untargeted propagate (known ++ brought.toList) rest
    | .error _ => if propagate then known else arrivals untargeted propagate known rest

variable {untargeted propagate : Bool} {known : List Probe} {document : Json} {p : Probe}

theorem target_of_lateTarget {t : HookTarget} (late : p.lateTarget untargeted = .ok (some t)) :
    p.target = .ok (some t) := by
  unfold lateTarget at late
  split at late
  · rename_i l here
    split at late
    · rw [here]
      exact late
    · cases late
  · exact late

theorem untargeted_of_lateTarget {l : SourceLine} (here : p.target = .ok (some (.line l))) {t}
    (late : p.lateTarget untargeted = .ok (some t)) : untargeted = true := by
  unfold lateTarget at late
  rw [here] at late
  dsimp only at late
  split at late
  · assumption
  · cases late

theorem lateTarget_ne_none {t : HookTarget} (here : p.target = .ok (some t)) :
    p.lateTarget untargeted ≠ .ok none := by
  unfold lateTarget
  rw [here]
  cases t <;> cases untargeted <;> exact nofun

theorem arrival_eq_some (brings : arrival untargeted known document = .ok (some p)) :
    ofDocument document = .ok p ∧ p.id ∉ known.map (·.id) ∧
      ∃ t, p.lateTarget untargeted = .ok (some t) := by
  unfold arrival at brings
  split at brings
  · cases brings
  · rename_i p' built
    split at brings
    · cases brings
    · rename_i absent
      cases late : p'.lateTarget untargeted with
      | error e =>
        rw [late] at brings
        cases brings
      | ok target =>
        cases target with
        | none =>
          rw [late] at brings
          cases brings
        | some t =>
          rw [late] at brings
          cases brings
          exact ⟨built, absent, t, late⟩

theorem mem_arrivals (documents : List Json) : ∀ {known : List Probe} {p : Probe},
    p ∈ arrivals untargeted propagate known documents → p ∈ known ∨
      ∃ document ∈ documents, ofDocument document = .ok p ∧
        ∃ t, p.lateTarget untargeted = .ok (some t) := by
  induction documents with
  | nil => exact Or.inl
  | cons document rest ih =>
    intro known p member
    have later : ∀ {known}, p ∈ arrivals untargeted propagate known rest → p ∈ known ∨
        ∃ d ∈ document :: rest, ofDocument d = .ok p ∧
          ∃ t, p.lateTarget untargeted = .ok (some t) := fun member =>
      (ih member).imp_right fun ⟨d, listed, brought⟩ => ⟨d, List.mem_cons_of_mem _ listed, brought⟩
    unfold arrivals at member
    split at member
    · rename_i brought brings
      rcases later member with known | other
      · rcases List.mem_append.mp known with old | new
        · exact Or.inl old
        · obtain rfl := Option.mem_toList.mp new
          obtain ⟨built, -, late⟩ := arrival_eq_some brings
          exact Or.inr ⟨document, List.mem_cons_self, built, late⟩
      · exact Or.inr other
    · split at member
      · exact Or.inl member
      · exact later member

theorem arrivals_eq_nil {documents : List Json} (plain : ∀ document ∈ documents, ∀ p,
    ofDocument document = .ok p → ∀ m, p.location ≠ .method m) :
    arrivals false propagate [] documents = [] := by
  refine List.eq_nil_iff_forall_not_mem.mpr fun p member => ?_
  rcases mem_arrivals documents member with old | ⟨document, listed, built, t, late⟩
  · cases old
  · have here := target_of_lateTarget late
    cases t with
    | method m => exact plain document listed p built m (target_eq_method_iff.mp here)
    | line l => cases (untargeted_of_lateTarget here late)

end Probe

namespace Setup

variable {s s' : Setup} {untargeted propagate : Bool} {known : List Probe} {document : Json}
  {p : Probe} {t : HookTarget}

theorem addProbe_first (unknown : s.engine.probes.isKnown p.id = false)
    (here : p.target = .ok (some t)) (absent : Table.get? t s.engine.probes.groups = none) :
    (s.addProbe p).1 = (s.requestHook t).1.map fun _ => () := by
  unfold addProbe Probes.admission
  simp only [unknown, Bool.false_eq_true, if_false, here, absent]
  rcases s.requestHook t with ⟨answer, s'⟩
  cases answer <;> rfl

/-- An engine that follows no code, on a host that refuses it nothing, with the probes it knows. -/
structure Receiving (untargeted : Bool) (known : List Probe) (s : Setup) : Prop where
  coherent : Coherent [] s
  willing : ∀ c t, s.host.refuses c t = none
  inactive : s.engine.code.filter (·.active) = none
  anywhere : s.engine.hooks.untargeted = untargeted
  members : ∀ p, p ∈ known ↔ ∃ k, k.probe = p ∧ s.engine.probes.Knows k
  late : ∀ p ∈ known, ∃ t, p.lateTarget untargeted = .ok (some t)

namespace Receiving

theorem of_passage (receiving : s.Receiving untargeted known) {known' : List Probe}
    (passage : Passage s s')
    (members : ∀ p, p ∈ known' ↔ ∃ k, k.probe = p ∧ s'.engine.probes.Knows k)
    (late : ∀ p ∈ known', ∃ t, p.lateTarget untargeted = .ok (some t)) :
    s'.Receiving untargeted known' where
  coherent := passage.coherent
  willing c t := by
    rw [passage.backdrop.refuses]
    exact receiving.willing c t
  inactive := by
    rw [passage.backdrop.code]
    exact receiving.inactive
  anywhere := (congrArg Hooking.Wiring.untargeted passage.backdrop.wiring).trans receiving.anywhere
  members := members
  late := late

theorem of_unmoved (receiving : s.Receiving untargeted known) (unmoved : Unmoved s s')
    (anchored : s'.held.Anchored) : s'.Receiving untargeted known :=
  receiving.of_passage (Passage.of_unmoved receiving.coherent unmoved anchored)
    (by rw [unmoved.probes]; exact receiving.members) receiving.late

theorem warn (receiving : s.Receiving untargeted known) (w : Warning) :
    (s.warn w).Receiving untargeted known :=
  receiving.of_passage ((Passage.refl receiving.coherent).warn w) receiving.members receiving.late

theorem isKnown_iff (receiving : s.Receiving untargeted known) (id : String) :
    s.engine.probes.isKnown id = true ↔ id ∈ known.map (·.id) := by
  rw [receiving.coherent.ordered.isKnown_iff, List.mem_map]
  constructor
  · intro ⟨k, knows, same⟩
    exact ⟨k.probe, (receiving.members _).mpr ⟨k, rfl, knows⟩, same⟩
  · intro ⟨p, member, same⟩
    obtain ⟨k, rfl, knows⟩ := (receiving.members p).mp member
    exact ⟨k, knows, same⟩

theorem traceUnit_eq (receiving : s.Receiving untargeted known) (l : SourceLine) :
    s.held.traceUnit s.engine.code l =
      if untargeted then .ok none else .error (.untargetedTracingDisallowed l.display) := by
  unfold Hooking.traceUnit
  rw [receiving.inactive, ← receiving.anywhere]
  rfl

theorem grants_method_iff (receiving : s.Receiving untargeted known) (m : MethodName) :
    s.Grants (.method m) ↔ (s.host.body? m).isSome = true :=
  ⟨fun granted => granted.2, fun defined => ⟨receiving.willing _ _, defined⟩⟩

theorem grants_line_iff (receiving : s.Receiving untargeted known) (l : SourceLine) :
    s.Grants (.line l) ↔ untargeted = true := by
  constructor
  · intro ⟨_, unit, place, _⟩
    rw [receiving.traceUnit_eq] at place
    split at place
    · assumption
    · cases place
  · intro anywhere
    refine ⟨receiving.willing _ _, none, ?_, fun u some => by cases some⟩
    rw [receiving.traceUnit_eq, if_pos anywhere]

theorem requestHook_method (receiving : s.Receiving untargeted known) {m : MethodName}
    (absent : Table.get? (.method m) s.engine.probes.groups = none) :
    (s.requestHook (.method m)).1 = .ok (s.host.body? m).isSome := by
  have request := requestHook_request receiving.coherent absent
  cases defined : s.host.body? m with
  | some body =>
    exact request.granted.mpr ((receiving.grants_method_iff m).mpr (by rw [defined]; rfl))
  | none =>
    obtain ⟨free, -⟩ := receiving.coherent.unhooked absent
    obtain ⟨host, -⟩ := Hooking.prepareMethod_of_free (Table.contains_eq_false_iff.mp free)
    let callback := Callback.probes s.engine.number s.engine.probes.nextGroup
    have cases := Hooking.hookMethod_cases s.held m callback
    dsimp only at cases
    rw [host] at cases
    rcases cases with ⟨e, reason, refused⟩ | ⟨saved, -, found, -⟩
    · rcases reason with refuses | ⟨-, undefined⟩
      · cases (receiving.willing _ _).symm.trans refuses
      · cases e <;> cases undefined
        show (s.held.hookWhenDefined s.engine.code (.method m) callback).1 = _
        unfold Hooking.hookWhenDefined
        rw [Hooking.hook_method, refused]
        rfl
    · cases defined.symm.trans found

theorem requestHook_line (receiving : s.Receiving untargeted known) {l : SourceLine}
    (absent : Table.get? (.line l) s.engine.probes.groups = none) :
    (s.requestHook (.line l)).1 =
      if untargeted then .ok true else .error (.untargetedTracingDisallowed l.display) := by
  have request := requestHook_request receiving.coherent absent
  cases anywhere : untargeted with
  | true => exact request.granted.mpr ((receiving.grants_line_iff l).mpr anywhere)
  | false =>
    let callback := Callback.probes s.engine.number s.engine.probes.nextGroup
    show (s.held.hookWhenDefined s.engine.code (.line l) callback).1 = _
    have place := receiving.traceUnit_eq l
    rw [anywhere] at place
    unfold Hooking.hookWhenDefined
    rw [Hooking.hook_line]
    unfold Hooking.hookLine
    rw [place]
    rfl

theorem addProbe_answer (receiving : s.Receiving untargeted known)
    (unknown : s.engine.probes.isKnown p.id = false) :
    (s.addProbe p).1 = (p.lateTarget untargeted).map fun _ => () := by
  cases here : p.target with
  | error e =>
    rw [addProbe_of_target_error unknown here, Probe.lateTarget, here]
    rfl
  | ok target =>
    cases target with
    | none =>
      unfold Setup.addProbe Probes.admission Probe.lateTarget
      simp only [unknown, Bool.false_eq_true, if_false, here]
      rfl
    | some t =>
      cases group : Table.get? t s.engine.probes.groups with
      | some g =>
        -- a probe that is there already has found a hook for this one, too
        obtain ⟨k, knows, there⟩ := receiving.coherent.ordered.inhabited t g group
        obtain ⟨t', late⟩ := receiving.late _ ((receiving.members _).mpr ⟨k, rfl, knows⟩)
        have joins := (addProbe_ok_iff unknown here).mpr (Or.inl ⟨g, group⟩)
        rw [joins, Probe.lateTarget, here]
        cases t with
        | method m => rfl
        | line l =>
          dsimp only
          rw [if_pos (Probe.untargeted_of_lateTarget there late)]
          rfl
      | none =>
        rw [addProbe_first unknown here group, Probe.lateTarget, here]
        cases t with
        | method m =>
          rw [receiving.requestHook_method group]
          rfl
        | line l =>
          rw [receiving.requestHook_line group]
          cases untargeted <;> rfl

theorem addProbe (receiving : s.Receiving untargeted known)
    (unknown : s.engine.probes.isKnown p.id = false) {target : Option HookTarget}
    (late : p.lateTarget untargeted = .ok target) :
    (s.addProbe p).2.Receiving untargeted (known ++ (target.map fun _ => p).toList) := by
  have addition := addProbe_addition receiving.coherent p
  have ok : (s.addProbe p).1 = .ok () := by
    rw [receiving.addProbe_answer unknown, late]
    rfl
  refine receiving.of_passage addition.toPassage (fun p' => ?_) fun p' member => ?_
  · rw [List.mem_append, receiving.members p']
    constructor
    · rintro (⟨k, rfl, knows⟩ | new)
      · exact ⟨k, rfl, (addition.kept k knows).knows.mpr knows⟩
      · cases target with
        | none => cases new
        | some t =>
          obtain rfl := List.mem_singleton.mp new
          exact addition.entered unknown t (Probe.target_of_lateTarget late) ok
    · rintro ⟨k, rfl, knows⟩
      rcases addition.newcomer k knows with old | ⟨same, -, ⟨t, here⟩, -⟩
      · exact Or.inl ⟨k, rfl, old⟩
      · right
        cases target with
        | none => exact absurd late (Probe.lateTarget_ne_none here)
        | some t => exact List.mem_singleton.mpr same
  · rcases List.mem_append.mp member with old | new
    · exact receiving.late p' old
    · cases target with
      | none => cases new
      | some t =>
        obtain rfl := List.mem_singleton.mp new
        exact ⟨t, late⟩

theorem applyDocument (receiving : s.Receiving untargeted known) (document : Json) :
    (s.applyDocument document).1 = (Probe.arrival untargeted known document).map (fun _ => ()) ∧
      (∀ brought, Probe.arrival untargeted known document = .ok brought →
        (s.applyDocument document).2.Receiving untargeted (known ++ brought.toList)) ∧
      ∀ e, Probe.arrival untargeted known document = .error e →
        (s.applyDocument document).2.Receiving untargeted known := by
  unfold Probe.arrival Setup.applyDocument
  cases built : Probe.ofDocument document with
  | error e => exact ⟨rfl, nofun, fun _ _ => receiving⟩
  | ok p =>
    have told : (s.tellStatus p .received).Receiving untargeted known :=
      receiving.of_unmoved (unmoved_tellStatus p .received s) receiving.coherent.anchored
    dsimp only
    by_cases member : p.id ∈ known.map (·.id)
    · rw [addProbe_of_isKnown ((told.isKnown_iff p.id).mpr member), if_pos member]
      refine ⟨rfl, fun _ brings => ?_, nofun⟩
      cases brings
      rwa [Option.toList_none, List.append_nil]
    · have unknown : (s.tellStatus p .received).engine.probes.isKnown p.id = false := by
        rw [Bool.eq_false_iff, Ne, told.isKnown_iff]
        exact member
      have answer := told.addProbe_answer unknown
      rw [if_neg member]
      cases late : p.lateTarget untargeted with
      | error e =>
        rw [late] at answer
        have addition := addProbe_addition told.coherent p
        exact ⟨answer, nofun,
          fun _ _ => told.of_unmoved (addition.refused e answer) addition.coherent.anchored⟩
      | ok target =>
        rw [late] at answer
        refine ⟨answer, fun _ brings => ?_, nofun⟩
        cases brings
        exact told.addProbe unknown late

theorem applyAll (documents : List Json) : ∀ {known : List Probe} {s : Setup},
    s.Receiving untargeted known → s.engine.propagate = propagate →
      (s.applyAll documents).2.Receiving untargeted
        (Probe.arrivals untargeted propagate known documents) := by
  induction documents with
  | nil => exact fun receiving _ => receiving
  | cons document rest ih =>
    intro known s receiving propagates
    obtain ⟨answered, brought, refused⟩ := receiving.applyDocument document
    have backdrop := (applyDocument_application receiving.coherent document).backdrop
    have propagates' := backdrop.propagate.trans propagates
    unfold Setup.applyAll Probe.arrivals
    rcases applied : s.applyDocument document with ⟨answer, s'⟩
    rw [applied] at answered brought refused propagates'
    dsimp only at answered propagates'
    cases arrived : Probe.arrival untargeted known document with
    | ok new =>
      rw [arrived] at answered
      subst answered
      exact ih (brought new arrived) propagates'
    | error e =>
      rw [arrived] at answered
      subst answered
      have warned := (refused e arrived).warn (.documentRefused e)
      have same : (s'.warn (.documentRefused e)).engine.propagate = propagate := propagates'
      simp only [Except.map, same]
      split
      · exact warned
      · exact ih warned propagates'

theorem keepProbes (receiving : s.Receiving untargeted known) {named : List String}
    (all : ∀ p ∈ known, p.id ∈ named) : (s.keepProbes named).2.Receiving untargeted known := by
  have retention := keepProbes_retention receiving.coherent named
  refine receiving.of_passage retention.toPassage (fun p => ?_) receiving.late
  rw [receiving.members p]
  refine exists_congr fun k => and_congr_right fun same => ⟨fun knows => ?_, retention.fewer k⟩
  subst same
  exact (retention.kept k knows (all _ ((receiving.members _).mpr ⟨k, rfl, knows⟩))).knows.mpr knows

theorem process (receiving : s.Receiving untargeted [])
    (propagates : s.engine.propagate = propagate) (documents : List Json) :
    (s.process documents).2.Receiving untargeted
      (Probe.arrivals untargeted propagate [] documents) := by
  have applied := receiving.applyAll documents propagates
  unfold Setup.process
  rcases ended : s.applyAll documents with ⟨answer, s'⟩
  rw [ended] at applied
  cases answer with
  | error e => exact applied
  | ok statuses =>
    have named : ∀ p ∈ Probe.arrivals untargeted propagate [] documents,
        p.id ∈ documentIds documents := by
      intro p member
      rcases Probe.mem_arrivals documents member with old | ⟨document, listed, built, -⟩
      · cases old
      · exact List.mem_filterMap.mpr ⟨document, listed, documentId?_of_built built⟩
    have kept := applied.keepProbes named
    rcases removed : s'.keepProbes (documentIds documents) with ⟨result, s''⟩
    rw [removed] at kept
    dsimp only
    rw [removed]
    cases result with
    | ok _ => exact kept
    | error e => exact kept.warn _

end Receiving
end Setup
end LiveProbe
