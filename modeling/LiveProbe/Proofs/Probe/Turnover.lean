import LiveProbe.Proofs.Probe.Roster

/-!
Probes that leave the roster, and probes that are promoted. A group goes with its last member; a
promotion moves a probe and touches no group.
-/
namespace LiveProbe.Probes

variable {ps : Probes} {k : KnownProbe} {t : HookTarget} {g : Nat} {id : String}

section Leave

def without (id : String) (ps : Probes) : Probes :=
  { ps with installed := Table.erase id ps.installed, pending := Table.erase id ps.pending }

theorem installs_without (k : KnownProbe) :
    (ps.without id).Installs k ↔ ps.Installs k ∧ k.probe.id ≠ id := lists_erase

theorem awaits_without (k : KnownProbe) :
    (ps.without id).Awaits k ↔ ps.Awaits k ∧ k.probe.id ≠ id := lists_erase

theorem Grouped.dropPending_eq (grouped : ps.Grouped) (awaits : ps.Awaits k) :
    ps.dropPending k.probe.id = ps.without k.probe.id := by
  rw [dropPending, without, Table.erase_of_absent (grouped.absent_installed awaits)]

theorem Grouped.dropInstalled_eq (grouped : ps.Grouped) (installs : ps.Installs k) :
    ps.dropInstalled k.probe.id = ps.without k.probe.id := by
  rw [dropInstalled, without, Table.erase_of_absent (grouped.absent_pending installs)]

theorem dropInstalled_leave (t : HookTarget) (id : String) (ps : Probes) :
    ((leave t id ps).1, (leave t id ps).2.dropInstalled id) = leave t id (ps.dropInstalled id) := by
  have members : ∀ g, (ps.dropInstalled id).membersOf g = ps.membersOf g := fun _ => rfl
  have groups : (ps.dropInstalled id).groups = ps.groups := rfl
  unfold leave
  rw [groups]
  cases Table.get? t ps.groups with
  | none => rfl
  | some g =>
    dsimp only
    rw [members]
    split <;> rfl

def othersIn (g : Nat) (k : KnownProbe) (ps : Probes) : List KnownProbe :=
  (ps.membersOf g).filter fun k' => k'.probe.id != k.probe.id

def afterLeave (t : HookTarget) (g : Nat) (k : KnownProbe) (ps : Probes) : Probes :=
  { (ps.without k.probe.id).setMembers g (ps.othersIn g k) with
    groups := if (ps.othersIn g k).isEmpty then Table.erase t ps.groups else ps.groups }

theorem leave_without (own : Table.get? t ps.groups = some g) (k : KnownProbe) :
    leave t k.probe.id (ps.without k.probe.id) =
      ((ps.othersIn g k).isEmpty, ps.afterLeave t g k) := by
  have here : Table.get? t (ps.without k.probe.id).groups = some g := own
  have left : (ps.without k.probe.id).membersOf g = ps.membersOf g := rfl
  unfold leave afterLeave othersIn
  rw [here]
  dsimp only
  rw [left]
  split
  · rename_i empty
    simp only [empty]
    rfl
  · rename_i inhabited
    simp only [inhabited]
    rfl

theorem membersOf_afterLeave (k : KnownProbe) (g' : Nat) :
    (ps.afterLeave t g k).membersOf g' = if g' = g then ps.othersIn g k else ps.membersOf g' :=
  membersOf_setMembers _ g g' _

theorem get?_groups_afterLeave (k : KnownProbe) {t' : HookTarget} {g' : Nat} :
    Table.get? t' (ps.afterLeave t g k).groups = some g' ↔
      Table.get? t' ps.groups = some g' ∧ (t' = t → ps.othersIn g k ≠ []) := by
  show Table.get? t' (if (ps.othersIn g k).isEmpty then _ else _) = some g' ↔ _
  rw [ne_eq, ← List.isEmpty_iff]
  cases (ps.othersIn g k).isEmpty with
  | false => simp
  | true =>
    rw [if_pos rfl, Table.get?_erase]
    by_cases same : t' = t <;> simp [same]

theorem get?_groups_afterLeave_of_stays (k : KnownProbe) {t' : HookTarget}
    (stays : t' = t → ps.othersIn g k ≠ []) :
    Table.get? t' (ps.afterLeave t g k).groups = Table.get? t' ps.groups :=
  Option.ext fun _ => (get?_groups_afterLeave k).trans (and_iff_left stays)

theorem sharesHook_of_own (own : Table.get? t ps.groups = some g) (k : KnownProbe) :
    ps.sharesHook t k.probe.id = !(ps.othersIn g k).isEmpty := by
  unfold sharesHook othersIn
  rw [own, Bool.eq_iff_iff]
  simp

theorem Grouped.mem_othersIn (grouped : ps.Grouped) (known : ps.Knows k)
    (own : Table.get? t ps.groups = some g) {k' : KnownProbe} :
    k' ∈ ps.othersIn g k ↔ ps.Knows k' ∧ k'.At t ∧ k' ≠ k := by
  unfold othersIn
  rw [List.mem_filter, grouped.members t g own, and_assoc, bne_iff_ne]
  refine and_congr_right fun known' => and_congr_right fun _ => not_congr ?_
  exact ⟨grouped.eq_of_id known known', fun eq => by rw [eq]⟩

theorem Grouped.installs_afterLeave (grouped : ps.Grouped) (known : ps.Knows k)
    (k' : KnownProbe) : (ps.afterLeave t g k).Installs k' ↔ ps.Installs k' ∧ k' ≠ k := by
  refine (installs_without k').trans (and_congr_right fun known' => not_congr ?_)
  exact ⟨grouped.eq_of_id known (Or.inl known'), fun eq => by rw [eq]⟩

theorem Grouped.awaits_afterLeave (grouped : ps.Grouped) (known : ps.Knows k)
    (k' : KnownProbe) : (ps.afterLeave t g k).Awaits k' ↔ ps.Awaits k' ∧ k' ≠ k := by
  refine (awaits_without k').trans (and_congr_right fun known' => not_congr ?_)
  exact ⟨grouped.eq_of_id known (Or.inr known'), fun eq => by rw [eq]⟩

theorem Grouped.knows_afterLeave (grouped : ps.Grouped) (known : ps.Knows k)
    (k' : KnownProbe) : (ps.afterLeave t g k).Knows k' ↔ ps.Knows k' ∧ k' ≠ k := by
  unfold Knows
  rw [grouped.installs_afterLeave known, grouped.awaits_afterLeave known, or_and_right]

theorem Grouped.afterLeave (grouped : ps.Grouped) (known : ps.Knows k) (here : k.At t)
    (own : Table.get? t ps.groups = some g) : (ps.afterLeave t g k).Grouped := by
  have knows : ∀ k', (ps.afterLeave t g k).Knows k' ↔ _ := grouped.knows_afterLeave known
  constructor
  case installed => exact grouped.installed.erase k.probe.id
  case pending => exact grouped.pending.erase k.probe.id
  case apart =>
    intro id installed
    have installed : Table.contains id (Table.erase k.probe.id ps.installed) = true := installed
    show Table.contains id (Table.erase k.probe.id ps.pending) = false
    rw [Table.contains_erase, Bool.and_eq_true] at installed
    have apart : Table.contains id ps.pending = false := grouped.apart id installed.2
    rw [Table.contains_erase, apart, Bool.and_false]
  case nodup =>
    intro t' g' found
    have former := grouped.nodup t' g' (get?_groups_afterLeave k |>.mp found).1
    rw [membersOf_afterLeave]
    split
    · rename_i same
      subst same
      exact former.filter _
    · exact former
  case members =>
    intro t' g' found k'
    have former := (get?_groups_afterLeave k |>.mp found).1
    rw [membersOf_afterLeave, knows]
    split
    · rename_i same
      subst same
      rw [grouped.mem_othersIn known own, grouped.distinct t' t g' former own, and_right_comm,
        and_assoc]
    · rename_i other
      rw [grouped.members t' g' former k', and_right_comm]
      refine (and_iff_left_of_imp fun both => ?_).symm
      intro same
      subst same
      rw [both.2.unique here, own] at former
      exact other (Option.some.inj former).symm
  case placed =>
    intro k' known'
    obtain ⟨old, other⟩ := (knows k').mp known'
    obtain ⟨t', g', there, found⟩ := grouped.placed k' old
    refine ⟨t', g', there, (get?_groups_afterLeave k).mpr ⟨found, ?_⟩⟩
    intro same
    subst same
    exact List.ne_nil_of_mem ((grouped.mem_othersIn known own).mpr ⟨old, there, other⟩)
  case distinct =>
    intro t' t'' g' found found'
    exact grouped.distinct t' t'' g' (get?_groups_afterLeave k |>.mp found).1
      (get?_groups_afterLeave k |>.mp found').1
  case numbered =>
    intro t' g' found
    exact grouped.numbered t' g' (get?_groups_afterLeave k |>.mp found).1
  case fresh =>
    intro g' later
    have later : ps.lastGroup < g' := later
    have bound := grouped.numbered t g own
    rw [membersOf_afterLeave, if_neg (by omega)]
    exact grouped.fresh g' later

theorem Ordered.afterLeave (ordered : ps.Ordered) (known : ps.Knows k) (here : k.At t)
    (own : Table.get? t ps.groups = some g) : (ps.afterLeave t g k).Ordered where
  toGrouped := ordered.toGrouped.afterLeave known here own
  inhabited t' g' found := by
    have knows : ∀ k', (ps.afterLeave t g k).Knows k' ↔ _ := ordered.knows_afterLeave known
    obtain ⟨former, inhabited⟩ := (get?_groups_afterLeave k).mp found
    by_cases same : t' = t
    · obtain ⟨k', member⟩ := List.exists_mem_of_ne_nil _ (inhabited same)
      obtain ⟨old, there, other⟩ := (ordered.mem_othersIn known own).mp member
      exact ⟨k', (knows k').mpr ⟨old, other⟩, same ▸ there⟩
    · obtain ⟨k', old, there⟩ := ordered.inhabited t' g' former
      refine ⟨k', (knows k').mpr ⟨old, ?_⟩, there⟩
      intro same
      subst same
      exact same (there.unique here)

structure Departure (t : HookTarget) (k : KnownProbe) (ps : Probes) (r : Bool × Probes) : Prop where
  ordered : r.2.Ordered
  installs : ∀ k', r.2.Installs k' ↔ ps.Installs k' ∧ k' ≠ k
  awaits : ∀ k', r.2.Awaits k' ↔ ps.Awaits k' ∧ k' ≠ k
  last : r.1 = true ↔ ∀ k', ps.Knows k' → k'.At t → k' = k
  limiters : r.2.limiters = ps.limiters

theorem Ordered.departure (ordered : ps.Ordered) (known : ps.Knows k) (here : k.At t) :
    Departure t k ps (leave t k.probe.id (ps.without k.probe.id)) := by
  obtain ⟨g, own⟩ := ordered.get?_groups_of_knows known here
  rw [leave_without own]
  refine ⟨ordered.afterLeave known here own, ordered.installs_afterLeave known,
    ordered.awaits_afterLeave known, ?_, rfl⟩
  rw [List.isEmpty_iff, List.eq_nil_iff_forall_not_mem]
  constructor
  · intro nobody k' known' there
    by_contra other
    exact nobody k' ((ordered.mem_othersIn known own).mpr ⟨known', there, other⟩)
  · intro only k' member
    obtain ⟨known', there, other⟩ := (ordered.mem_othersIn known own).mp member
    exact other (only k' known' there)

theorem Departure.at_iff {r : Bool × Probes} (departure : Departure t k ps r) (here : k.At t)
    {state state' : KnownProbe → Prop} (stays : ∀ k', state' k' ↔ state k' ∧ k' ≠ k)
    (knows : ∀ k', state k' → ps.Knows k')
    (alike : state k → ∀ k', ps.Knows k' → k'.At t → state k') (t' : HookTarget) :
    (∃ k', state' k' ∧ k'.At t') ↔ (∃ k', state k' ∧ k'.At t') ∧ (t' = t → r.1 = false) := by
  constructor
  · intro ⟨k', after, there⟩
    obtain ⟨before, other⟩ := (stays k').mp after
    refine ⟨⟨k', before, there⟩, fun own => ?_⟩
    rw [← Bool.not_eq_true, departure.last]
    exact fun only => other (only k' (knows k' before) (own ▸ there))
  · intro ⟨⟨k', before, there⟩, shared⟩
    by_cases same : k' = k
    · subst same
      have sameTarget := there.unique here
      have notLast := shared sameTarget
      rw [← Bool.not_eq_true, departure.last] at notLast
      push Not at notLast
      obtain ⟨other, known, atTarget, ne⟩ := notLast
      have remains := alike before other known atTarget
      exact ⟨other, (stays other).mpr ⟨remains, ne⟩, sameTarget ▸ atTarget⟩
    · exact ⟨k', (stays k').mpr ⟨before, same⟩, there⟩

theorem Departure.installedAt_iff {r : Bool × Probes} (departure : Departure t k ps r)
    (here : k.At t) (uniform : ps.InstalledAt t → ¬ ps.PendingAt t) (t' : HookTarget) :
    r.2.InstalledAt t' ↔ ps.InstalledAt t' ∧ (t' = t → r.1 = false) := by
  refine departure.at_iff here departure.installs (fun _ => Or.inl) ?_ t'
  intro installs k' known there
  exact known.resolve_right fun awaits => uniform ⟨k, installs, here⟩ ⟨k', awaits, there⟩

theorem Departure.pendingAt_iff {r : Bool × Probes} (departure : Departure t k ps r)
    (here : k.At t) (uniform : ps.InstalledAt t → ¬ ps.PendingAt t) (t' : HookTarget) :
    r.2.PendingAt t' ↔ ps.PendingAt t' ∧ (t' = t → r.1 = false) := by
  refine departure.at_iff here departure.awaits (fun _ => Or.inr) ?_ t'
  intro awaits k' known there
  exact known.resolve_left fun installs => uniform ⟨k', installs, there⟩ ⟨k, awaits, here⟩

theorem Ordered.departure_of_awaits (ordered : ps.Ordered) (awaits : ps.Awaits k) (here : k.At t) :
    Departure t k ps (leave t k.probe.id (ps.dropPending k.probe.id)) := by
  rw [ordered.dropPending_eq awaits]
  exact ordered.departure (Or.inr awaits) here

theorem Ordered.departure_of_installs (ordered : ps.Ordered) (installs : ps.Installs k)
    (here : k.At t) :
    Departure t k ps ((leave t k.probe.id ps).1,
      (leave t k.probe.id ps).2.dropInstalled k.probe.id) := by
  rw [dropInstalled_leave, ordered.dropInstalled_eq installs]
  exact ordered.departure (Or.inl installs) here

theorem Ordered.sharesHook_iff (ordered : ps.Ordered) (known : ps.Knows k) (here : k.At t) :
    ps.sharesHook t k.probe.id = true ↔ ∃ k', ps.Knows k' ∧ k'.At t ∧ k' ≠ k := by
  obtain ⟨g, own⟩ := ordered.get?_groups_of_knows known here
  unfold sharesHook
  rw [own]
  simp only [List.any_eq_true, bne_iff_ne]
  constructor
  · intro both
    obtain ⟨k', member, other⟩ := both
    obtain ⟨known', there⟩ := (ordered.members t g own k').mp member
    exact ⟨k', known', there, fun eq => other (by rw [eq])⟩
  · intro both
    obtain ⟨k', known', there, other⟩ := both
    exact ⟨k', (ordered.members t g own k').mpr ⟨known', there⟩,
      fun same => other (ordered.eq_of_id known known' same)⟩

end Leave

section Promote

theorem installs_promote (awaits : ps.Awaits k) (ordered : ps.Ordered) (k' : KnownProbe) :
    (ps.promote k).Installs k' ↔ ps.Installs k' ∨ k' = k :=
  lists_insert (ordered.absent_installed awaits)

theorem awaits_promote (awaits : ps.Awaits k) (ordered : ps.Ordered) (k' : KnownProbe) :
    (ps.promote k).Awaits k' ↔ ps.Awaits k' ∧ k' ≠ k := by
  refine lists_erase.trans (and_congr_right fun awaits' => not_congr ?_)
  exact ⟨ordered.eq_of_id (Or.inr awaits) (Or.inr awaits'), fun eq => by rw [eq]⟩

theorem knows_promote (awaits : ps.Awaits k) (ordered : ps.Ordered) (k' : KnownProbe) :
    (ps.promote k).Knows k' ↔ ps.Knows k' := by
  unfold Knows
  rw [installs_promote awaits ordered, awaits_promote awaits ordered]
  constructor
  · rintro ((installs | rfl) | ⟨awaits', -⟩)
    · exact Or.inl installs
    · exact Or.inr awaits
    · exact Or.inr awaits'
  · intro either
    rcases either with installs | awaits'
    · exact Or.inl (Or.inl installs)
    · by_cases same : k' = k
      · exact Or.inl (Or.inr same)
      · exact Or.inr ⟨awaits', same⟩

theorem Ordered.promote (ordered : ps.Ordered) (awaits : ps.Awaits k) :
    (ps.promote k).Ordered := by
  have knows := knows_promote awaits ordered
  have groups : (ps.promote k).groups = ps.groups := rfl
  have members : ∀ g, (ps.promote k).membersOf g = ps.membersOf g := fun _ => rfl
  constructor
  · constructor
    case installed => exact ordered.installed.insert k
    case pending => exact ordered.pending.erase k.probe.id
    case apart =>
      intro id installed
      have installed : Table.contains id (Table.insert k.probe.id k ps.installed) = true :=
        installed
      show Table.contains id (Table.erase k.probe.id ps.pending) = false
      rw [Table.contains_insert, Bool.or_eq_true, decide_eq_true_eq] at installed
      rw [Table.contains_erase]
      rcases installed with same | former
      · simp [same]
      · rw [show Table.contains id ps.pending = false from ordered.apart id former, Bool.and_false]
    case nodup => exact ordered.nodup
    case members =>
      intro t' g' found k'
      rw [members, knows]
      exact ordered.members t' g' found k'
    case placed =>
      intro k' known
      exact ordered.placed k' ((knows k').mp known)
    case distinct => exact ordered.distinct
    case numbered => exact ordered.numbered
    case fresh => exact ordered.fresh
  · intro t' g' found
    obtain ⟨k', known, there⟩ := ordered.inhabited t' g' found
    exact ⟨k', (knows k').mpr known, there⟩

theorem mem_waitingAt (ordered : ps.Ordered) :
    k ∈ ps.waitingAt t ↔ ps.Awaits k ∧ k.At t := by
  unfold waitingAt
  rw [List.mem_filter, ordered.pending.mem_probes, Probe.isAt_iff]
  exact Iff.rfl

theorem Ordered.nodup_waitingAt (ordered : ps.Ordered) (t : HookTarget) :
    (ps.waitingAt t).Nodup := ordered.pending.nodup_probes.filter _

theorem Ordered.groupInstalled_iff (ordered : ps.Ordered) (own : Table.get? t ps.groups = some g) :
    ps.groupInstalled g = true ↔ ps.InstalledAt t := by
  unfold groupInstalled
  rw [List.any_eq_true]
  constructor
  · intro both
    obtain ⟨k, member, installed⟩ := both
    obtain ⟨known, here⟩ := (ordered.members t g own k).mp member
    obtain ⟨k', installs, name⟩ := ordered.installed.contains_iff.mp installed
    have same := ordered.eq_of_id known (Or.inl installs) name
    exact ⟨k', installs, same ▸ here⟩
  · intro both
    obtain ⟨k, installs, here⟩ := both
    exact ⟨k, (ordered.members t g own k).mpr ⟨Or.inl installs, here⟩,
      Table.contains_iff.mpr ⟨k, installs⟩⟩

end Promote

end LiveProbe.Probes
