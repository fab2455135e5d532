import LiveProbe.Proofs.Engine.Pruning
import LiveProbe.Proofs.Engine.Foreign

/-!
Removing probes in any order, on a host that may refuse to give hooks up. Pending probes always go.
Of the installed ones at a target all go, unless the host refuses to remove the hook and no probe at
the target is to stay: then the one that is met last stays, with the hook.
-/
namespace LiveProbe

namespace Probes

theorem Keyed.entries {table entries : List (String × KnownProbe)} {named : List String}
    (keyed : Keyed table) (order : entries.Perm (Probes.others named table)) :
    ∃ ks : List KnownProbe, entries = ks.map entry ∧ ks.Nodup ∧
      ∀ k, k ∈ ks ↔ Lists table k ∧ k.probe.id ∉ named := by
  have unnamed := order.map (·.2)
  refine ⟨entries.map (·.2), ?_, unnamed.nodup_iff.mpr (keyed.nodup_unnamed named), fun k => ?_⟩
  · rw [List.map_map]
    refine (List.map_id _).symm.trans (List.map_congr_left fun e member => ?_)
    have name := ((keyed.others named).mem_iff.mp (order.mem_iff.mp member)).2
    exact Prod.ext name.symm rfl
  · rw [unnamed.mem_iff]
    exact keyed.mem_unnamed named

end Probes

namespace Setup

variable {s s' s'' : Setup} {k : KnownProbe} {t : HookTarget} {e : Error}

/-- The hook of a target would have to be removed with its probes, but the host refuses. -/
structure Barred (gone : KnownProbe → Prop) (s : Setup) (t : HookTarget) (e : Error) : Prop where
  declined : s.host.declines t = some e
  installed : s.engine.probes.InstalledAt t
  all : ∀ k, s.engine.probes.Knows k → k.At t → gone k

theorem Backdrop.declines (backdrop : Backdrop s s') : s'.host.declines = s.host.declines := by
  funext t
  cases t <;> simp only [Host.declines, backdrop.refuses]

/-! Pending probes. -/

structure Dismissals (gone : List KnownProbe) (s s' : Setup) : Prop extends Passage s s' where
  installs : ∀ k, s'.engine.probes.Installs k ↔ s.engine.probes.Installs k ∧ k ∉ gone
  awaits : ∀ k, s'.engine.probes.Awaits k ↔ s.engine.probes.Awaits k ∧ k ∉ gone
  kept : ∀ k, s.engine.probes.Knows k → k ∉ gone → Keeps k s s'

theorem foldl_removePending_dismissals (gone : List KnownProbe) :
    ∀ {s : Setup}, Coherent [] s → gone.Nodup → (∀ k ∈ gone, s.engine.probes.Awaits k) →
      Dismissals gone s ((gone.map Probes.entry).foldl removePending s) := by
  induction gone with
  | nil =>
    intro s coherent _ _
    exact ⟨Passage.refl coherent, by simp, by simp, fun k _ _ => Keeps.refl k s⟩
  | cons k rest ih =>
    intro s coherent nodup listed
    obtain ⟨fresh, nodupRest⟩ := List.nodup_cons.mp nodup
    obtain ⟨awaits, later⟩ := List.forall_mem_cons.mp listed
    have first := removePending_dismissal coherent awaits
    have others := ih first.coherent nodupRest fun k' member =>
      (first.awaits k').mpr ⟨later k' member, fun same => fresh (same ▸ member)⟩
    refine ⟨first.toPassage.trans others.toPassage, fun k' => ?_, fun k' => ?_,
      fun k' known absent => ?_⟩
    · refine (others.installs k').trans ?_
      rw [first.installs, List.mem_cons, not_or, and_assoc]
    · refine (others.awaits k').trans ?_
      rw [first.awaits, List.mem_cons, not_or, and_assoc]
    · rw [List.mem_cons, not_or] at absent
      have keeps := first.kept k' known absent.1
      exact keeps.trans (others.kept k' (keeps.knows.mpr known) absent.2)

/-! Installed probes. -/

theorem removeInstalled_answer (coherent : Coherent [] s) (apart : s.held.Apart [])
    (installs : s.engine.probes.Installs k) (here : k.At t) :
    (s.removeInstalled k.probe.id k).1 =
      if s.engine.probes.sharesHook t k.probe.id then .ok () else match s.host.declines t with
        | some e => .error e
        | none => .ok () := by
  have place : k.probe.target = .ok (some t) := here
  have hooked : s.engine.hooks.isInstalled t = true :=
    (coherent.hooked t).mpr (Or.inl ⟨k, installs, here⟩)
  have unhooked : (s.hooking (Hooking.unhook t)).1 = match s.host.declines t with
      | some e => .error e
      | none => .ok () := apart.unhook_answer coherent.anchored hooked
  unfold removeInstalled
  rw [place]
  dsimp only
  cases s.engine.probes.sharesHook t k.probe.id with
  | true => rfl
  | false =>
    simp only [Bool.false_eq_true, if_false]
    rw [← unhooked]
    rcases s.hooking (Hooking.unhook t) with ⟨e | _, s'⟩ <;> rfl

/-- An installed probe goes, unless the hook of its target would have to go with it and the host
refuses; then nothing changes. -/
theorem removeInstalled_outcome (coherent : Coherent [] s) (apart : s.held.Apart [])
    (installs : s.engine.probes.Installs k) (here : k.At t) :
    (s.removeInstalled k.probe.id k).1 = .ok () ∧
        Dismissal k s (s.removeInstalled k.probe.id k).2 ∧
        (∀ e, ¬ Barred (· = k) s t e) ∨
      ∃ e, (s.removeInstalled k.probe.id k).1 = .error e ∧ Barred (· = k) s t e ∧
        Unmoved s (s.removeInstalled k.probe.id k).2 ∧
        Passage s (s.removeInstalled k.probe.id k).2 := by
  have removal := removeInstalled_removal coherent installs
  have shared := coherent.ordered.sharesHook_iff (Or.inl installs) here
  have answer := removeInstalled_answer coherent apart installs here
  cases shares : s.engine.probes.sharesHook t k.probe.id with
  | true =>
    rw [if_pos shares] at answer
    obtain ⟨k', known, there, other⟩ := shared.mp shares
    exact Or.inl ⟨answer, removal.done answer, fun e barred => other (barred.all k' known there)⟩
  | false =>
    rw [if_neg (by simp [shares])] at answer
    cases declined : s.host.declines t with
    | none =>
      rw [declined] at answer
      refine Or.inl ⟨answer, removal.done answer, fun e barred => ?_⟩
      rw [barred.declined] at declined
      cases declined
    | some e =>
      rw [declined] at answer
      obtain ⟨unmoved, passage, -⟩ := removal.failed e answer
      refine Or.inr ⟨e, answer, ⟨declined, ⟨k, installs, here⟩, ?_⟩, unmoved, passage⟩
      intro k' known there
      by_contra other
      rw [shared.mpr ⟨k', known, there, other⟩] at shares
      cases shares

/-- What removing some of the installed probes comes to. A probe that stays is alone at its target,
and stays because the host refuses to remove the hook. -/
structure Purge (gone : List KnownProbe) (s : Setup) (r : Except Error Unit × Setup) : Prop
    extends Passage s r.2 where
  installs : ∀ k, r.2.engine.probes.Installs k → s.engine.probes.Installs k
  awaits : ∀ k, r.2.engine.probes.Awaits k → s.engine.probes.Awaits k
  kept : ∀ k, s.engine.probes.Knows k → k ∉ gone → Keeps k s r.2
  stays : ∀ k ∈ gone, r.2.engine.probes.Knows k → Keeps k s r.2 ∧ ∃ t e, k.At t ∧
    Barred (· ∈ gone) s t e ∧ ∀ k', r.2.engine.probes.Knows k' → k'.At t → k' = k
  held : ∀ t e, Barred (· ∈ gone) s t e → ∃ k, r.2.engine.probes.Installs k ∧ k.At t
  failed : ∀ e, r.1 = .error e → ∃ t, Barred (· ∈ gone) s t e
  told : ∀ t e, Barred (· ∈ gone) s t e → ∃ e, r.1 = .error e

variable {rest : List KnownProbe} {r : Except Error Unit × Setup}

theorem Barred.mono {gone gone' : KnownProbe → Prop} (barred : Barred gone s t e)
    (more : ∀ k, gone k → gone' k) : Barred gone' s t e :=
  ⟨barred.declined, barred.installed, fun k known here => more k (barred.all k known here)⟩

theorem Dismissal.barred_iff (dismissal : Dismissal k s s') (coherent : Coherent [] s)
    (free : ∀ t e, k.At t → ¬ Barred (· = k) s t e) :
    Barred (· ∈ rest) s' t e ↔ Barred (· ∈ k :: rest) s t e := by
  have declines := dismissal.backdrop.declines
  constructor
  · intro ⟨declined, ⟨k', installs, here⟩, all⟩
    refine ⟨declines ▸ declined, ⟨k', ((dismissal.installs k').mp installs).1, here⟩, ?_⟩
    intro k'' known there
    by_cases same : k'' = k
    · exact same ▸ List.mem_cons_self
    · have still := (dismissal.kept k'' known same).knows.mpr known
      exact List.mem_cons_of_mem k (all k'' still there)
  · intro barred
    refine ⟨declines ▸ barred.declined, ?_, fun k' known here => ?_⟩
    · obtain ⟨k', installs, here⟩ := barred.installed
      by_cases same : k' = k
      · -- another probe is at the target, and it is installed as all are there
        subst same
        have shared : ∃ k, s.engine.probes.Knows k ∧ k.At t ∧ k ≠ k' := by
          by_contra alone
          push Not at alone
          exact free t e here ⟨barred.declined, barred.installed, alone⟩
        obtain ⟨k, installs' | awaits, there, other⟩ := shared
        · exact ⟨k, (dismissal.installs k).mpr ⟨installs', other⟩, there⟩
        · exact absurd ⟨k, awaits, there⟩ (coherent.uniform t ⟨k', installs, here⟩)
      · exact ⟨k', (dismissal.installs k').mpr ⟨installs, same⟩, here⟩
    · have before : s.engine.probes.Knows k' ∧ k' ≠ k := by
        rcases known with installs | awaits
        · exact ((dismissal.installs k').mp installs).imp_left Or.inl
        · exact ((dismissal.awaits k').mp awaits).imp_left Or.inr
      exact (List.mem_cons.mp (barred.all k' before.1 here)).resolve_left before.2

theorem Purge.after_dismissal (purge : Purge rest s' r) (dismissal : Dismissal k s s')
    (coherent : Coherent [] s) (free : ∀ t e, k.At t → ¬ Barred (· = k) s t e) :
    Purge (k :: rest) s r := by
  have barred_iff : ∀ {t e}, Barred (· ∈ rest) s' t e ↔ Barred (· ∈ k :: rest) s t e :=
    dismissal.barred_iff coherent free
  have installs : ∀ k', r.2.engine.probes.Installs k' → s.engine.probes.Installs k' ∧ k' ≠ k :=
    fun k' after => (dismissal.installs k').mp (purge.installs k' after)
  have awaits : ∀ k', r.2.engine.probes.Awaits k' → s.engine.probes.Awaits k' ∧ k' ≠ k :=
    fun k' after => (dismissal.awaits k').mp (purge.awaits k' after)
  constructor
  case toPassage => exact dismissal.toPassage.trans purge.toPassage
  case installs => exact fun k' after => (installs k' after).1
  case awaits => exact fun k' after => (awaits k' after).1
  case kept =>
    intro k' known absent
    rw [List.mem_cons, not_or] at absent
    have keeps := dismissal.kept k' known absent.1
    exact keeps.trans (purge.kept k' (keeps.knows.mpr known) absent.2)
  case stays =>
    intro k' listed known
    have before : s.engine.probes.Knows k' ∧ k' ≠ k :=
      known.elim (fun after => (installs k' after).imp_left Or.inl)
        fun after => (awaits k' after).imp_left Or.inr
    obtain ⟨keeps, t, e, here, barred, alone⟩ :=
      purge.stays k' ((List.mem_cons.mp listed).resolve_left before.2) known
    exact ⟨(dismissal.kept k' before.1 before.2).trans keeps, t, e, here, barred_iff.mp barred, alone⟩
  case held => exact fun t e barred => purge.held t e (barred_iff.mpr barred)
  case failed =>
    intro e error
    obtain ⟨t, barred⟩ := purge.failed e error
    exact ⟨t, barred_iff.mp barred⟩
  case told => exact fun t e barred => purge.told t e (barred_iff.mpr barred)

theorem Unmoved.barred_iff {t' : HookTarget} {e' : Error} (unmoved : Unmoved s s') (here : k.At t)
    (alone : Barred (· = k) s t e) :
    Barred (· ∈ k :: rest) s t' e' ↔ Barred (· ∈ rest) s' t' e' ∨ t' = t ∧ e' = e := by
  have declines := unmoved.backdrop.declines
  constructor
  · intro barred
    by_cases same : t' = t
    · subst same
      have declined := barred.declined
      rw [alone.declined] at declined
      exact Or.inr ⟨rfl, (Option.some.inj declined).symm⟩
    · refine Or.inl ⟨declines ▸ barred.declined, ?_, fun k' known there => ?_⟩
      · rw [unmoved.probes]
        exact barred.installed
      · rw [unmoved.probes] at known
        refine (List.mem_cons.mp (barred.all k' known there)).resolve_left fun eq => same ?_
        exact there.unique (eq ▸ here)
  · rintro (⟨declined, installed, all⟩ | ⟨rfl, rfl⟩)
    · rw [unmoved.probes] at installed all
      exact ⟨declines ▸ declined, installed,
        fun k' known there => List.mem_cons_of_mem k (all k' known there)⟩
    · exact alone.mono fun k' same => same ▸ List.mem_cons_self

theorem Purge.after_refusal (purge : Purge rest s' r) (unmoved : Unmoved s s')
    (fresh : k ∉ rest) (installs : s.engine.probes.Installs k) (here : k.At t)
    (alone : Barred (· = k) s t e) : Purge (k :: rest) s (.error e, r.2) := by
  have barred_iff : ∀ {t' e'}, Barred (· ∈ k :: rest) s t' e' ↔
      Barred (· ∈ rest) s' t' e' ∨ t' = t ∧ e' = e := unmoved.barred_iff here alone
  have known_iff : s'.engine.probes.Knows k := by
    rw [unmoved.probes]
    exact Or.inl installs
  have own := (unmoved.keeps k).trans (purge.kept k known_iff fresh)
  have fewer : ∀ k', r.2.engine.probes.Knows k' → s.engine.probes.Knows k' := by
    intro k' known
    rw [← unmoved.probes]
    exact known.imp (purge.installs k') (purge.awaits k')
  constructor
  case toPassage =>
    exact ⟨unmoved.backdrop.trans purge.backdrop, purge.coherent,
      fun aware => purge.aware (aware.of_unmoved unmoved)⟩
  case installs => exact fun k' after => unmoved.probes ▸ purge.installs k' after
  case awaits => exact fun k' after => unmoved.probes ▸ purge.awaits k' after
  case kept =>
    intro k' known absent
    rw [List.mem_cons, not_or] at absent
    have keeps := unmoved.keeps k'
    exact keeps.trans (purge.kept k' (keeps.knows.mpr known) absent.2)
  case stays =>
    intro k' listed known
    rcases List.mem_cons.mp listed with rfl | later
    · exact ⟨own, t, e, here, barred_iff.mpr (Or.inr ⟨rfl, rfl⟩),
        fun k'' known'' there => alone.all k'' (fewer k'' known'') there⟩
    · obtain ⟨keeps, t', e', there, barred, only⟩ := purge.stays k' later known
      exact ⟨(unmoved.keeps k').trans keeps, t', e', there, barred_iff.mpr (Or.inl barred), only⟩
  case held =>
    intro t' e' barred
    rcases barred_iff.mp barred with later | ⟨rfl, -⟩
    · exact purge.held t' e' later
    · exact ⟨k, own.installs.mpr installs, here⟩
  case failed =>
    intro e' error
    cases error
    exact ⟨t, barred_iff.mpr (Or.inr ⟨rfl, rfl⟩)⟩
  case told => exact fun t' e' _ => ⟨e, rfl⟩

theorem removeAllInstalled_cons (e : String × KnownProbe) (rest : List (String × KnownProbe))
    (s : Setup) :
    let first := s.removeInstalled e.1 e.2
    let later := first.2.removeAllInstalled rest
    s.removeAllInstalled (e :: rest) = (first.1 >>= fun _ => later.1, later.2) := by
  intro first later
  unfold removeAllInstalled
  rcases removed : s.removeInstalled e.1 e.2 with ⟨answer, s'⟩
  have same : first = (answer, s') := removed
  dsimp only [later]
  rw [same]
  cases answer <;> rfl

theorem removeAllInstalled_purge (gone : List KnownProbe) :
    ∀ {s : Setup}, Coherent [] s → s.held.Apart [] → gone.Nodup →
      (∀ k ∈ gone, s.engine.probes.Installs k) →
      Purge gone s (s.removeAllInstalled (gone.map Probes.entry)) := by
  induction gone with
  | nil =>
    intro s coherent _ _ _
    have unbarred : ∀ t e, ¬ Barred (· ∈ []) s t e := by
      intro t e barred
      obtain ⟨k, installs, here⟩ := barred.installed
      exact List.not_mem_nil (barred.all k (Or.inl installs) here)
    exact ⟨Passage.refl coherent, fun k => id, fun k => id, fun k _ _ => Keeps.refl k s,
      fun k listed => absurd listed List.not_mem_nil, fun t e barred => absurd barred (unbarred t e),
      fun e error => (nomatch error), fun t e barred => absurd barred (unbarred t e)⟩
  | cons k rest ih =>
    intro s coherent apart nodup listed
    obtain ⟨fresh, nodupRest⟩ := List.nodup_cons.mp nodup
    obtain ⟨installs, later⟩ := List.forall_mem_cons.mp listed
    obtain ⟨t, -, here, -⟩ := coherent.ordered.placed k (Or.inl installs)
    have apart' := (removeInstalled_blind apart k.probe.id k).apart
    rw [List.map_cons, removeAllInstalled_cons]
    dsimp only [Probes.entry]
    rcases removeInstalled_outcome coherent apart installs here with
      ⟨answer, dismissal, free⟩ | ⟨e, answer, alone, unmoved, passage⟩
    · rw [answer]
      refine (ih dismissal.coherent apart' nodupRest fun k' member => ?_).after_dismissal dismissal
        coherent fun t' e' there => here.unique there ▸ free e'
      exact (dismissal.installs k').mpr ⟨later k' member, fun same => fresh (same ▸ member)⟩
    · rw [answer]
      refine (ih passage.coherent apart' nodupRest fun k' member => ?_).after_refusal unmoved fresh
        installs here alone
      rw [unmoved.probes]
      exact later k' member

/-! All probes but the named ones. -/

/-- What removing all probes but the named ones comes to, in whatever order they are met. -/
structure Culled (named : List String) (s : Setup) (r : Except Error Unit × Setup) : Prop where
  ordered : r.2.engine.probes.Ordered
  kept : ∀ k, s.engine.probes.Knows k → k.probe.id ∈ named → Keeps k s r.2
  installs : ∀ k, r.2.engine.probes.Installs k → s.engine.probes.Installs k
  awaits : ∀ k, r.2.engine.probes.Awaits k → s.engine.probes.Awaits k ∧ k.probe.id ∈ named
  hooked : ∀ t, r.2.engine.hooks.isInstalled t = true ↔ r.2.engine.probes.InstalledAt t
  waiting : ∀ t, r.2.engine.hooks.isPending t = true ↔ ∃ k, s.engine.probes.Awaits k ∧ k.At t ∧
    k.probe.id ∈ named
  stays : ∀ k, r.2.engine.probes.Knows k → k.probe.id ∉ named → Keeps k s r.2 ∧ ∃ t e, k.At t ∧
    Barred (·.probe.id ∉ named) s t e ∧ ∀ k', r.2.engine.probes.Knows k' → k'.At t → k' = k
  held : ∀ t e, Barred (·.probe.id ∉ named) s t e → ∃ k, r.2.engine.probes.Installs k ∧ k.At t
  failed : (∃ e, r.1 = .error e) ↔
    s.engine.propagate = true ∧ ∃ t e, Barred (·.probe.id ∉ named) s t e
  reason : ∀ e, r.1 = .error e → ∃ t, Barred (·.probe.id ∉ named) s t e

theorem Purge.culled {named : List String} {waiting hooked : List KnownProbe}
    (first : Dismissals waiting s s') (purge : Purge hooked s' r) (coherent : Coherent [] s)
    (mem_waiting : ∀ k, k ∈ waiting ↔ s.engine.probes.Awaits k ∧ k.probe.id ∉ named)
    (mem_hooked : ∀ k, k ∈ hooked ↔ s.engine.probes.Installs k ∧ k.probe.id ∉ named) :
    Culled named s (if s.engine.propagate then r.1 else .ok (), r.2) := by
  have apart : ∀ k, s.engine.probes.Installs k → k ∉ waiting := by
    intro k installs listed
    have absent := coherent.ordered.absent_pending installs
    rw [((mem_waiting k).mp listed).1] at absent
    cases absent
  have installs : ∀ k, s'.engine.probes.Installs k ↔ s.engine.probes.Installs k :=
    fun k => (first.installs k).trans (and_iff_left_of_imp (apart k))
  have awaits : ∀ k, s'.engine.probes.Awaits k ↔
      s.engine.probes.Awaits k ∧ k.probe.id ∈ named := by
    intro k
    rw [first.awaits, mem_waiting, not_and, not_not]
    exact ⟨fun both => ⟨both.1, both.2 both.1⟩, fun both => ⟨both.1, fun _ => both.2⟩⟩
  have installedAt : ∀ t, s'.engine.probes.InstalledAt t ↔ s.engine.probes.InstalledAt t :=
    fun t => exists_congr fun k => and_congr_left fun _ => installs k
  -- where a probe is installed, all are
  have allInstalled : ∀ t k, s.engine.probes.InstalledAt t → s.engine.probes.Knows k → k.At t →
      s.engine.probes.Installs k :=
    fun t k installed known here =>
      known.resolve_right fun pending => coherent.uniform t installed ⟨k, pending, here⟩
  have barred_iff : ∀ {t e}, Barred (· ∈ hooked) s' t e ↔
      Barred (·.probe.id ∉ named) s t e := by
    intro t e
    have declines := first.backdrop.declines
    constructor
    · intro ⟨declined, installed, all⟩
      rw [installedAt] at installed
      refine ⟨declines ▸ declined, installed, fun k known here => ?_⟩
      have here' := (installs k).mpr (allInstalled t k installed known here)
      exact ((mem_hooked k).mp (all k (Or.inl here') here)).2
    · intro ⟨declined, installed, all⟩
      refine ⟨declines ▸ declined, (installedAt t).mpr installed, fun k known here => ?_⟩
      have before : s.engine.probes.Knows k :=
        known.imp (installs k).mp fun pending => ((awaits k).mp pending).1
      exact (mem_hooked k).mpr ⟨allInstalled t k installed before here, all k before here⟩
  constructor
  case ordered => exact purge.coherent.ordered
  case kept =>
    intro k known listed
    have keeps := first.kept k known fun member => ((mem_waiting k).mp member).2 listed
    exact keeps.trans (purge.kept k (keeps.knows.mpr known)
      fun member => ((mem_hooked k).mp member).2 listed)
  case installs => exact fun k after => (installs k).mp (purge.installs k after)
  case awaits => exact fun k after => (awaits k).mp (purge.awaits k after)
  case hooked => exact fun t => (purge.coherent.hooked t).trans (by simp)
  case waiting =>
    intro t
    refine (purge.coherent.waiting t).trans ?_
    rw [and_iff_left List.not_mem_nil]
    constructor
    · intro ⟨k, after, here⟩
      obtain ⟨before, listed⟩ := (awaits k).mp (purge.awaits k after)
      exact ⟨k, before, here, listed⟩
    · intro ⟨k, before, here, listed⟩
      have still := (awaits k).mpr ⟨before, listed⟩
      refine ⟨k, (purge.kept k (Or.inr still) fun member => ?_).awaits.mpr still, here⟩
      exact ((mem_hooked k).mp member).2 listed
  case stays =>
    intro k known absent
    have before : s.engine.probes.Installs k := by
      refine known.elim (fun after => (installs k).mp (purge.installs k after)) fun after => ?_
      exact absurd ((awaits k).mp (purge.awaits k after)).2 absent
    obtain ⟨keeps, t, e, here, barred, alone⟩ :=
      purge.stays k ((mem_hooked k).mpr ⟨before, absent⟩) known
    exact ⟨(first.kept k (Or.inl before) (apart k before)).trans keeps, t, e, here,
      barred_iff.mp barred, alone⟩
  case held => exact fun t e barred => purge.held t e (barred_iff.mpr barred)
  case failed =>
    constructor
    · intro ⟨e, error⟩
      dsimp only at error
      split at error
      · rename_i propagates
        obtain ⟨t, barred⟩ := purge.failed e error
        exact ⟨propagates, t, e, barred_iff.mp barred⟩
      · cases error
    · intro ⟨propagates, t, e, barred⟩
      dsimp only
      rw [if_pos propagates]
      exact purge.told t e (barred_iff.mpr barred)
  case reason =>
    intro e error
    dsimp only at error
    split at error
    · obtain ⟨t, barred⟩ := purge.failed e error
      exact ⟨t, barred_iff.mp barred⟩
    · cases error

theorem prune_culled (coherent : Coherent [] s) (apart : s.held.Apart []) (named : List String)
    {pending installed : List (String × KnownProbe)}
    (pendingOrder : pending.Perm (Probes.others named s.engine.probes.pending))
    (installedOrder : installed.Perm (Probes.others named s.engine.probes.installed)) :
    Coherent [] (s.prune pending installed).2 ∧ Culled named s (s.prune pending installed) := by
  obtain ⟨waiting, rfl, nodupWaiting, mem_waiting⟩ := coherent.ordered.pending.entries pendingOrder
  obtain ⟨hooked, rfl, nodupHooked, mem_hooked⟩ := coherent.ordered.installed.entries installedOrder
  have first := foldl_removePending_dismissals waiting coherent nodupWaiting
    fun k member => ((mem_waiting k).mp member).1
  have apart' := (foldl_removePending_blind (waiting.map Probes.entry) apart).apart
  have second := removeAllInstalled_purge hooked first.coherent apart' nodupHooked fun k member => by
    refine (first.installs k).mpr ⟨((mem_hooked k).mp member).1, fun listed => ?_⟩
    have absent := coherent.ordered.absent_pending ((mem_hooked k).mp member).1
    rw [((mem_waiting k).mp listed).1] at absent
    cases absent
  have propagate := (first.toPassage.trans second.toPassage).backdrop.propagate
  have culled := second.culled first coherent mem_waiting mem_hooked
  rw [← propagate] at culled
  exact ⟨second.coherent, culled⟩

end Setup
end LiveProbe
