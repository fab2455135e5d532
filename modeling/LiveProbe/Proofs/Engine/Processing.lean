import LiveProbe.Proofs.Engine.Pruning

/-!
Processing a configuration. Documents are applied in their order, each in the setup that the ones
before it have left; the probes that no document names go afterwards.
-/
namespace LiveProbe.Setup

variable {s : Setup} {document : Json} {documents : List Json}

structure Progress (s s' : Setup) : Prop extends Passage s s' where
  kept : ∀ k, s.engine.probes.Knows k → Keeps k s s'

theorem Progress.refl (coherent : Coherent [] s) : Progress s s :=
  ⟨Passage.refl coherent, fun k _ => Keeps.refl k s⟩

theorem Progress.trans {s' s'' : Setup} (first : Progress s s') (second : Progress s' s'') :
    Progress s s'' where
  toPassage := first.toPassage.trans second.toPassage
  kept k known :=
    have keeps := first.kept k known
    keeps.trans (second.kept k (keeps.knows.mpr known))

theorem Progress.warn {s' : Setup} (progress : Progress s s') (w : Warning) :
    Progress s (s'.warn w) where
  toPassage := progress.toPassage.warn w
  kept k known := (progress.kept k known).trans ((unmoved_warn w s').keeps k)

/-- What applying a document comes to. -/
structure Application (document : Json) (s : Setup) (r : Except Error Unit × Setup) : Prop
    extends Progress s r.2 where
  newcomer : ∀ k, r.2.engine.probes.Knows k → s.engine.probes.Knows k ∨
    Probe.ofDocument document = .ok k.probe ∧ s.engine.probes.isKnown k.probe.id = false ∧
      (∃ t, k.At t) ∧ r.1 = .ok ()
  entered : ∀ p, Probe.ofDocument document = .ok p → s.engine.probes.isKnown p.id = false →
    ∀ t, p.target = .ok (some t) → r.1 = .ok () → ∃ k, k.probe = p ∧ r.2.engine.probes.Knows k
  refused : ∀ e, r.1 = .error e → Unmoved s r.2

theorem applyDocument_application (coherent : Coherent [] s) (document : Json) :
    Application document s (s.applyDocument document) := by
  unfold applyDocument
  cases built : Probe.ofDocument document with
  | error e =>
    exact ⟨Progress.refl coherent, fun k known => Or.inl known,
      fun p other => by simp [built] at other, fun _ _ => Unmoved.refl s⟩
  | ok p =>
    have told := unmoved_tellStatus p .received s
    have addition := addProbe_addition (coherent.tellStatus p .received) p
    have first := Passage.of_unmoved coherent told coherent.anchored
    refine ⟨⟨first.trans addition.toPassage,
      fun k known => (told.keeps k).trans (addition.kept k known)⟩, fun k known => ?_,
      fun p' other unknown t here ok => ?_, fun e refused => ?_⟩
    · rcases addition.newcomer k known with old | ⟨rfl, unknown, place, ok⟩
      · exact Or.inl old
      · exact Or.inr ⟨built, unknown, place, ok⟩
    · rw [built] at other
      cases other
      exact addition.entered unknown t here ok
    · exact told.trans (addition.refused e refused)

theorem applyAll_progress (documents : List Json) :
    ∀ {s : Setup}, Coherent [] s → Progress s (s.applyAll documents).2 := by
  induction documents with
  | nil =>
    intro s coherent
    exact Progress.refl coherent
  | cons document rest ih =>
    intro s coherent
    have first := (applyDocument_application coherent document).toProgress
    unfold applyAll
    rcases applied : s.applyDocument document with ⟨answer, s'⟩
    rw [applied] at first
    cases answer with
    | ok _ => exact first.trans (ih first.coherent)
    | error e =>
      have warned := first.warn (.documentRefused e)
      dsimp only
      split
      · exact warned
      · exact warned.trans (ih warned.coherent)

theorem process_passage (coherent : Coherent [] s) (documents : List Json) :
    Passage s (s.process documents).2 := by
  have progress := applyAll_progress documents coherent
  unfold process
  rcases applied : s.applyAll documents with ⟨answer, s'⟩
  rw [applied] at progress
  cases answer with
  | error e => exact progress.toPassage
  | ok statuses =>
    have retention := keepProbes_retention progress.coherent (documentIds documents)
    rcases removed : s'.keepProbes (documentIds documents) with ⟨kept, s''⟩
    rw [removed] at retention
    have both := progress.toPassage.trans retention.toPassage
    dsimp only
    rw [removed]
    cases kept with
    | ok _ => exact both
    | error e => exact both.warn _

end LiveProbe.Setup
