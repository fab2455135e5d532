import LiveProbe.Proofs.Engine.Composition

/-!
What a configuration comes to, as long as errors do not reach the host. Every document is answered
in its place; the probes that are known afterwards are those known before that are named, and the
ones that the documents found; and nothing else is touched.
-/
namespace LiveProbe.Setup

variable {s s' : Setup} {document : Json} {documents : List Json} {p : Probe} {t : HookTarget}
  {id : String} {i : Nat}

/-- The setup that the documents before a place have left. -/
def reached (documents : List Json) (i : Nat) (s : Setup) : Setup :=
  (s.applyAll (documents.take i)).2

def statusOf : Except Error Unit → DocumentStatus
  | .ok () => .applied
  | .error e => .errored e.message

/-- There is a hook at the target to be shared, or one that is not refused. -/
def Accepts (s : Setup) (t : HookTarget) : Prop :=
  (∃ g, Table.get? t s.engine.probes.groups = some g) ∨ ∃ now, (s.requestHook t).1 = .ok now

/-- A document builds a probe with a single target, whose hook is not refused. -/
def Usable (s : Setup) (document : Json) (p : Probe) : Prop :=
  Probe.ofDocument document = .ok p ∧ ∃ t, p.target = .ok (some t) ∧ s.Accepts t

structure Reconciled (documents : List Json) (s : Setup)
    (r : Except Error (List DocumentStatus) × Setup) : Prop where
  answered : ∃ statuses, r.1 = .ok statuses ∧ statuses.length = documents.length ∧
    ∀ i document, documents[i]? = some document →
      statuses[i]? = some (statusOf ((reached documents i s).applyDocument document).1)
  known : ∀ id, r.2.engine.probes.isKnown id = true ↔
    s.engine.probes.isKnown id = true ∧ id ∈ documentIds documents ∨
      ∃ i document p, documents[i]? = some document ∧
        Usable (reached documents i s) document p ∧ p.id = id
  first : ∀ i document p, documents[i]? = some document →
    Usable (reached documents i s) document p → s.engine.probes.isKnown p.id = false →
    (∀ j, j < i → ∀ document' p', documents[j]? = some document' →
      Usable (reached documents j s) document' p' → p'.id ≠ p.id) →
    ∃ k, k.probe = p ∧ r.2.engine.probes.Knows k
  kept : ∀ k, s.engine.probes.Knows k → k.probe.id ∈ documentIds documents → Keeps k s r.2
  untouched : ∀ k, s.engine.probes.Knows k → ∀ i, Keeps k s (reached documents i s)
  errored : ∀ i document e, documents[i]? = some document →
    ((reached documents i s).applyDocument document).1 = .error e →
    Unmoved (reached documents i s) (reached documents (i + 1) s)

theorem documentId?_of_built (built : Probe.ofDocument document = .ok p) :
    documentId? document = some p.id := by
  have named : ∃ id, Probe.requiredText document "id" = .ok id ∧ p.id = id := by
    unfold Probe.ofDocument at built
    cases required : Probe.requiredText document "id" with
    | error e =>
      rw [required] at built
      cases built
    | ok id =>
      refine ⟨id, rfl, ?_⟩
      rw [required] at built
      simp only [bind, Except.bind, pure, Except.pure] at built
      repeat' split at built
      all_goals first | cases built; rfl | cases built
  obtain ⟨id, required, rfl⟩ := named
  unfold Probe.requiredText at required
  unfold documentId?
  split at required
  · rename_i text found
    rw [found]
    cases required
    rfl
  · cases required

theorem Usable.named (usable : s.Usable document p) (found : documents[i]? = some document) :
    p.id ∈ documentIds documents :=
  List.mem_filterMap.mpr
    ⟨document, List.mem_of_getElem? found, documentId?_of_built usable.1⟩

/-! One document. -/

theorem addProbe_ok_iff (unknown : s.engine.probes.isKnown p.id = false)
    (here : p.target = .ok (some t)) : (s.addProbe p).1 = .ok () ↔ s.Accepts t := by
  unfold addProbe Probes.admission Accepts
  simp only [unknown, Bool.false_eq_true, if_false, here]
  cases group : Table.get? t s.engine.probes.groups with
  | some g => simp
  | none =>
    dsimp only
    rcases requested : s.requestHook t with ⟨answer, s'⟩
    cases answer <;> simp

def applied (s : Setup) (document : Json) : Setup :=
  match s.applyDocument document with
  | (.ok (), s) => s
  | (.error e, s) => s.warn (.documentRefused e)

theorem applied_unmoved (s : Setup) (document : Json) :
    Unmoved (s.applyDocument document).2 (s.applied document) := by
  unfold applied
  rcases s.applyDocument document with ⟨answer, s'⟩
  cases answer with
  | ok _ => exact Unmoved.refl s'
  | error e => exact unmoved_warn _ s'

theorem applied_progress (coherent : Coherent [] s) (document : Json) :
    Progress s (s.applied document) := by
  have progress := (applyDocument_application coherent document).toProgress
  unfold applied
  rcases applied : s.applyDocument document with ⟨answer, s'⟩
  rw [applied] at progress
  cases answer with
  | ok _ => exact progress
  | error e => exact progress.warn _

theorem isKnown_applied (coherent : Coherent [] s) (document : Json) (id : String) :
    (s.applied document).engine.probes.isKnown id = true ↔
      s.engine.probes.isKnown id = true ∨ ∃ p, s.Usable document p ∧ p.id = id := by
  have application := applyDocument_application coherent document
  have after := (applied_progress coherent document).coherent.ordered
  have probes := (applied_unmoved s document).probes
  rw [after.isKnown_iff, coherent.ordered.isKnown_iff, probes]
  constructor
  · intro ⟨k, known, same⟩
    rcases application.newcomer k known with old | ⟨built, unknown, ⟨t, here⟩, ok⟩
    · exact Or.inl ⟨k, old, same⟩
    · refine Or.inr ⟨k.probe, ⟨built, t, here, ?_⟩, same⟩
      unfold applyDocument at ok
      rw [built] at ok
      exact (addProbe_ok_iff (s := s.tellStatus k.probe .received) unknown here).mp ok
  · intro either
    rcases either with ⟨k, known, same⟩ | ⟨p, ⟨built, t, here, accepts⟩, same⟩
    · exact ⟨k, (application.kept k known).knows.mpr known, same⟩
    · cases unknown : s.engine.probes.isKnown p.id with
      | true =>
        obtain ⟨k, known, own⟩ := coherent.ordered.isKnown_iff.mp unknown
        exact ⟨k, (application.kept k known).knows.mpr known, own.trans same⟩
      | false =>
        have ok : (s.applyDocument document).1 = .ok () := by
          unfold applyDocument
          rw [built]
          exact (addProbe_ok_iff (s := s.tellStatus p .received) unknown here).mpr accepts
        obtain ⟨k, own, known⟩ := application.entered p built unknown t here ok
        exact ⟨k, known, own ▸ same⟩

/-! All documents in turn. -/

theorem foldl_applied_progress (documents : List Json) :
    ∀ {s : Setup}, Coherent [] s → Progress s (documents.foldl applied s) := by
  induction documents with
  | nil =>
    intro s coherent
    exact Progress.refl coherent
  | cons document rest ih =>
    intro s coherent
    have first := applied_progress coherent document
    exact first.trans (ih first.coherent)

theorem applyAll_cons (quiet : (s.applied document).engine.propagate = false) (rest : List Json) :
    s.applyAll (document :: rest) =
      (((s.applied document).applyAll rest).1.map (statusOf (s.applyDocument document).1 :: ·),
        ((s.applied document).applyAll rest).2) := by
  rw [applyAll]
  unfold applied at quiet ⊢
  rcases became : s.applyDocument document with ⟨answer, s'⟩
  rw [became] at quiet
  cases answer with
  | ok _ => rfl
  | error e =>
    dsimp only at quiet ⊢
    rw [if_neg (Bool.not_eq_true _ ▸ quiet)]
    rfl

theorem applyAll_of_quiet (documents : List Json) :
    ∀ {s : Setup}, Coherent [] s → s.engine.propagate = false →
      ∃ statuses, s.applyAll documents = (.ok statuses, documents.foldl applied s) ∧
        statuses.length = documents.length ∧
        ∀ i document, documents[i]? = some document → statuses[i]? =
          some (statusOf (((documents.take i).foldl applied s).applyDocument document).1) := by
  induction documents with
  | nil =>
    intro s _ _
    exact ⟨[], rfl, rfl, fun i document found => by simp at found⟩
  | cons document rest ih =>
    intro s coherent quiet
    have progress := applied_progress coherent document
    have quiet' := progress.backdrop.propagate.trans quiet
    obtain ⟨statuses, all, lengths, places⟩ := ih progress.coherent quiet'
    refine ⟨statusOf (s.applyDocument document).1 :: statuses, ?_, ?_, ?_⟩
    · rw [applyAll_cons quiet', all]
      rfl
    · rw [List.length_cons, List.length_cons, lengths]
    · intro i other found
      cases i with
      | zero =>
        rw [List.getElem?_cons_zero] at found
        cases found
        rfl
      | succ i => exact places i other found

theorem isKnown_foldl_applied (documents : List Json) (id : String) :
    ∀ {s : Setup}, Coherent [] s → ((documents.foldl applied s).engine.probes.isKnown id = true ↔
      s.engine.probes.isKnown id = true ∨ ∃ i document p, documents[i]? = some document ∧
        Usable ((documents.take i).foldl applied s) document p ∧ p.id = id) := by
  induction documents with
  | nil =>
    intro s _
    simp
  | cons document rest ih =>
    intro s coherent
    rw [List.foldl_cons, ih (applied_progress coherent document).coherent,
      isKnown_applied coherent document, or_assoc]
    apply or_congr_right
    constructor
    · intro either
      rcases either with ⟨p, usable, same⟩ | ⟨i, other, p, found, usable, same⟩
      · exact ⟨0, document, p, rfl, usable, same⟩
      · exact ⟨i + 1, other, p, found, usable, same⟩
    · intro ⟨i, other, p, found, usable, same⟩
      cases i with
      | zero =>
        rw [List.getElem?_cons_zero] at found
        cases found
        exact Or.inl ⟨p, usable, same⟩
      | succ i => exact Or.inr ⟨i, other, p, found, usable, same⟩

theorem reached_eq (coherent : Coherent [] s) (quiet : s.engine.propagate = false)
    (documents : List Json) (i : Nat) :
    reached documents i s = (documents.take i).foldl applied s := by
  obtain ⟨statuses, all, -⟩ := applyAll_of_quiet (documents.take i) coherent quiet
  exact congrArg Prod.snd all

theorem foldl_applied_succ (s : Setup) (found : documents[i]? = some document) :
    (documents.take (i + 1)).foldl applied s =
      ((documents.take i).foldl applied s).applied document := by
  rw [List.take_add_one, found, Option.toList_some, List.foldl_append]
  rfl

theorem first_foldl_applied (coherent : Coherent [] s) (found : documents[i]? = some document)
    (usable : Usable ((documents.take i).foldl applied s) document p)
    (unknown : s.engine.probes.isKnown p.id = false)
    (earlier : ∀ j, j < i → ∀ document' p', documents[j]? = some document' →
      Usable ((documents.take j).foldl applied s) document' p' → p'.id ≠ p.id) :
    ∃ k, k.probe = p ∧ (documents.foldl applied s).engine.probes.Knows k := by
  have before := foldl_applied_progress (documents.take i) coherent
  have stillUnknown :
      ((documents.take i).foldl applied s).engine.probes.isKnown p.id = false := by
    rw [Bool.eq_false_iff, Ne, isKnown_foldl_applied _ _ coherent, not_or, Bool.not_eq_true]
    refine ⟨unknown, ?_⟩
    intro both
    obtain ⟨j, document', p', found', usable', same⟩ := both
    have inside : j < i := by
      have := (List.getElem?_eq_some_iff.mp found').1
      rw [List.length_take] at this
      omega
    rw [List.getElem?_take_of_lt inside] at found'
    rw [List.take_take, Nat.min_eq_left (Nat.le_of_lt inside)] at usable'
    exact earlier j inside document' p' found' usable' same
  obtain ⟨built, t, here, accepts⟩ := usable
  have ok : (((documents.take i).foldl applied s).applyDocument document).1 = .ok () := by
    unfold applyDocument
    rw [built]
    exact (addProbe_ok_iff (s := Setup.tellStatus _ _ _) stillUnknown here).mpr accepts
  obtain ⟨k, own, known⟩ := (applyDocument_application before.coherent document).entered p built
    stillUnknown t here ok
  refine ⟨k, own, ?_⟩
  -- the documents that follow leave it alone
  have after := (applied_progress before.coherent document).coherent
  have rest := foldl_applied_progress (documents.drop (i + 1)) after
  rw [← foldl_applied_succ s found, ← List.foldl_append, List.take_append_drop] at rest
  refine (rest.kept k ?_).knows.mpr ?_
  all_goals
    rw [foldl_applied_succ s found, (applied_unmoved _ document).probes]
    exact known

/-! The whole configuration, on a host that refuses to remove nothing and is told of no errors. -/

theorem Composed.pruned (composed : Composed false s) (documents : List Json) :
    Retention (documentIds documents) (documents.foldl applied s)
        ((documents.foldl applied s).keepProbes (documentIds documents)) ∧
      ((documents.foldl applied s).keepProbes (documentIds documents)).1 = .ok () ∧
      ∀ k,
        ((documents.foldl applied s).keepProbes (documentIds documents)).2.engine.probes.Knows k →
          k.probe.id ∈ documentIds documents := by
  have progress := foldl_applied_progress documents composed.coherent
  have retention := keepProbes_retention progress.coherent (documentIds documents)
  refine ⟨retention, retention.complete fun c t => ?_⟩
  rw [progress.backdrop.refuses]
  exact composed.willing c t

theorem Composed.process_eq (composed : Composed false s) (documents : List Json) :
    ∃ statuses, s.process documents =
        (.ok statuses, ((documents.foldl applied s).keepProbes (documentIds documents)).2) ∧
      statuses.length = documents.length ∧
      ∀ i document, documents[i]? = some document →
        statuses[i]? = some (statusOf ((reached documents i s).applyDocument document).1) := by
  obtain ⟨statuses, all, lengths, places⟩ :=
    applyAll_of_quiet documents composed.coherent composed.propagates
  obtain ⟨-, ok, -⟩ := composed.pruned documents
  refine ⟨statuses, ?_, lengths, ?_⟩
  · unfold Setup.process
    rw [all]
    dsimp only
    rcases removed : (documents.foldl applied s).keepProbes (documentIds documents) with
      ⟨answer, s'⟩
    rw [removed] at ok
    dsimp only at ok
    rw [ok]
  · intro i document found
    rw [reached_eq composed.coherent composed.propagates]
    exact places i document found

theorem Composed.knows_processed (composed : Composed false s) (documents : List Json)
    (k : KnownProbe) : (s.process documents).2.engine.probes.Knows k ↔
      (documents.foldl applied s).engine.probes.Knows k ∧ k.probe.id ∈ documentIds documents := by
  obtain ⟨statuses, processed, -⟩ := composed.process_eq documents
  obtain ⟨retention, -, complete⟩ := composed.pruned documents
  rw [processed]
  constructor
  · intro known
    exact ⟨retention.fewer k known, complete k known⟩
  · intro ⟨known, named⟩
    exact (retention.kept k known named).knows.mpr known

theorem Composed.isKnown_processed (composed : Composed false s) (documents : List Json)
    (id : String) : (s.process documents).2.engine.probes.isKnown id = true ↔
      s.engine.probes.isKnown id = true ∧ id ∈ documentIds documents ∨
        ∃ i document p, documents[i]? = some document ∧
          Usable (reached documents i s) document p ∧ p.id = id := by
  have reachedAt := reached_eq composed.coherent composed.propagates documents
  have progress := foldl_applied_progress documents composed.coherent
  have before := isKnown_foldl_applied documents id composed.coherent
  have after := (process_passage composed.coherent documents).coherent.ordered
  rw [progress.coherent.ordered.isKnown_iff] at before
  rw [after.isKnown_iff]
  constructor
  · intro ⟨k, known, same⟩
    obtain ⟨still, named⟩ := (composed.knows_processed documents k).mp known
    rw [same] at named
    rcases before.mp ⟨k, still, same⟩ with old | ⟨i, document, p, found, usable, own⟩
    · exact Or.inl ⟨old, named⟩
    · refine Or.inr ⟨i, document, p, found, ?_, own⟩
      rw [reachedAt]
      exact usable
  · intro either
    have there : (∃ k, (documents.foldl applied s).engine.probes.Knows k ∧ k.probe.id = id) ∧
        id ∈ documentIds documents := by
      rcases either with ⟨old, named⟩ | ⟨i, document, p, found, usable, own⟩
      · exact ⟨before.mpr (Or.inl old), named⟩
      · have named := usable.named found
        rw [own] at named
        rw [reachedAt] at usable
        exact ⟨before.mpr (Or.inr ⟨i, document, p, found, usable, own⟩), named⟩
    obtain ⟨⟨k, known, same⟩, named⟩ := there
    rw [← same] at named
    exact ⟨k, (composed.knows_processed documents k).mpr ⟨known, named⟩, same⟩

theorem Composed.reconciled (composed : Composed false s) (documents : List Json) :
    Reconciled documents s (s.process documents) := by
  have coherent := composed.coherent
  have reachedAt := reached_eq coherent composed.propagates documents
  obtain ⟨statuses, processed, lengths, places⟩ := composed.process_eq documents
  constructor
  case answered =>
    rw [processed]
    exact ⟨statuses, rfl, lengths, places⟩
  case known => exact composed.isKnown_processed documents
  case first =>
    intro i document p found usable unknown earlier
    have named := usable.named found
    simp only [reachedAt] at usable earlier
    obtain ⟨k, own, known⟩ := first_foldl_applied coherent found usable unknown earlier
    rw [← own] at named
    exact ⟨k, own, (composed.knows_processed documents k).mpr ⟨known, named⟩⟩
  case kept =>
    intro k known named
    obtain ⟨retention, -, -⟩ := composed.pruned documents
    have before := (foldl_applied_progress documents coherent).kept k known
    rw [processed]
    exact before.trans (retention.kept k (before.knows.mpr known) named)
  case untouched =>
    intro k known i
    rw [reachedAt]
    exact (foldl_applied_progress (documents.take i) coherent).kept k known
  case errored =>
    intro i document e found refused
    rw [reachedAt] at refused ⊢
    rw [reachedAt, foldl_applied_succ s found]
    have before := foldl_applied_progress (documents.take i) coherent
    exact ((applyDocument_application before.coherent document).refused e refused).trans
      (applied_unmoved _ document)

end LiveProbe.Setup
