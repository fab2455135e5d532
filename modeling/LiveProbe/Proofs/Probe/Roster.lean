import LiveProbe.Proofs.Probe.Keyed

/-!
The roster of known probes. A probe is installed or pending, never both, and the group of a target
has exactly the known probes at that target as its members. A probe that enters keeps the roster in
order.
-/
namespace LiveProbe

/-- The place of a probe is one target. -/
def KnownProbe.At (k : KnownProbe) (t : HookTarget) : Prop := k.probe.target = .ok (some t)

theorem Probe.isAt_iff {p : Probe} {t : HookTarget} :
    p.isAt t = true ↔ p.target = .ok (some t) := by
  unfold isAt
  split
  · rename_i own place
    rw [place]
    simp [eq_comm]
  · rename_i elsewhere
    simp only [Bool.false_eq_true, false_iff]
    exact fun place => elsewhere t place

theorem KnownProbe.At.unique {k : KnownProbe} {t t' : HookTarget} (here : k.At t)
    (there : k.At t') : t = t' := by
  unfold KnownProbe.At at here there
  rw [here] at there
  simpa using there

namespace Probes

variable {ps : Probes} {k : KnownProbe} {t : HookTarget} {g : Nat} {id : String}

def Installs (ps : Probes) (k : KnownProbe) : Prop := Table.get? k.probe.id ps.installed = some k

def Awaits (ps : Probes) (k : KnownProbe) : Prop := Table.get? k.probe.id ps.pending = some k

def Knows (ps : Probes) (k : KnownProbe) : Prop := ps.Installs k ∨ ps.Awaits k

def InstalledAt (ps : Probes) (t : HookTarget) : Prop := ∃ k, ps.Installs k ∧ k.At t

def PendingAt (ps : Probes) (t : HookTarget) : Prop := ∃ k, ps.Awaits k ∧ k.At t

/-- All of the order but that a group may be empty. -/
structure Grouped (ps : Probes) : Prop where
  installed : Keyed ps.installed
  pending : Keyed ps.pending
  apart : ∀ id, ps.isInstalled id = true → ps.isPending id = false
  nodup : ∀ t g, Table.get? t ps.groups = some g → (ps.membersOf g).Nodup
  members : ∀ t g, Table.get? t ps.groups = some g → ∀ k, k ∈ ps.membersOf g ↔ ps.Knows k ∧ k.At t
  placed : ∀ k, ps.Knows k → ∃ t g, k.At t ∧ Table.get? t ps.groups = some g
  distinct : ∀ t t' g, Table.get? t ps.groups = some g → Table.get? t' ps.groups = some g → t = t'
  numbered : ∀ t g, Table.get? t ps.groups = some g → g ≤ ps.lastGroup
  fresh : ∀ g, ps.lastGroup < g → ps.membersOf g = []

structure Ordered (ps : Probes) : Prop extends Grouped ps where
  inhabited : ∀ t g, Table.get? t ps.groups = some g → ∃ k, ps.Knows k ∧ k.At t

theorem ordered_empty (limiters : Limiters) : Ordered { limiters } := by
  have keyed : Keyed [] := ⟨List.nodup_nil, fun id k found => by cases found⟩
  constructor
  · constructor
    case installed => exact keyed
    case pending => exact keyed
    all_goals simp [Table.get?, membersOf, isInstalled, Table.contains, Knows, Installs, Awaits]
  · simp [Table.get?]

theorem not_installedAt_empty (limiters : Limiters) (t : HookTarget) :
    ¬ InstalledAt { limiters } t := by
  rintro ⟨k, installs, -⟩
  cases installs

theorem not_pendingAt_empty (limiters : Limiters) (t : HookTarget) :
    ¬ PendingAt { limiters } t := by
  rintro ⟨k, awaits, -⟩
  cases awaits

theorem Knows.isKnown (known : ps.Knows k) : ps.isKnown k.probe.id = true := by
  unfold Probes.isKnown
  rw [Bool.or_eq_true]
  rcases known with installs | awaits
  · exact Or.inl (Lists.contains installs)
  · exact Or.inr (Lists.contains awaits)

theorem Grouped.isKnown_iff (grouped : ps.Grouped) :
    ps.isKnown id = true ↔ ∃ k, ps.Knows k ∧ k.probe.id = id := by
  constructor
  · intro known
    unfold isKnown at known
    rcases Bool.or_eq_true _ _ |>.mp known with installed | pending
    · obtain ⟨k, installs, name⟩ := grouped.installed.contains_iff.mp installed
      exact ⟨k, Or.inl installs, name⟩
    · obtain ⟨k, awaits, name⟩ := grouped.pending.contains_iff.mp pending
      exact ⟨k, Or.inr awaits, name⟩
  · intro ⟨k, known, name⟩
    rw [← name]
    exact known.isKnown

theorem Grouped.absent_pending (grouped : ps.Grouped) (installs : ps.Installs k) :
    Table.get? k.probe.id ps.pending = none :=
  Table.contains_eq_false_iff.mp (grouped.apart _ (Lists.contains installs))

theorem Grouped.absent_installed (grouped : ps.Grouped) (awaits : ps.Awaits k) :
    Table.get? k.probe.id ps.installed = none := by
  rw [← Table.contains_eq_false_iff, Bool.eq_false_iff]
  intro installed
  have apart := grouped.apart _ installed
  rw [isPending, Lists.contains awaits] at apart
  cases apart

theorem Grouped.eq_of_id (grouped : ps.Grouped) {k k' : KnownProbe} (known : ps.Knows k)
    (known' : ps.Knows k') (same : k'.probe.id = k.probe.id) : k' = k := by
  have clash : ∀ {a b : KnownProbe}, ps.Installs a → ps.Awaits b → a.probe.id ≠ b.probe.id := by
    intro a b installs awaits eq
    have absent := grouped.absent_pending installs
    rw [eq, show Table.get? b.probe.id ps.pending = some b from awaits] at absent
    cases absent
  rcases known with installs | awaits <;> rcases known' with installs' | awaits'
  · exact Lists.eq_of_id installs installs' same
  · exact absurd same.symm (clash installs awaits')
  · exact absurd same (clash installs' awaits)
  · exact Lists.eq_of_id awaits awaits' same

theorem Grouped.get?_groups_of_knows (grouped : ps.Grouped) (known : ps.Knows k) (here : k.At t) :
    ∃ g, Table.get? t ps.groups = some g := by
  obtain ⟨t', g, there, group⟩ := grouped.placed k known
  exact ⟨g, here.unique there ▸ group⟩

theorem Grouped.nobody_at (grouped : ps.Grouped) (absent : Table.get? t ps.groups = none) :
    ∀ k, ps.Knows k → ¬ k.At t := by
  intro k known here
  obtain ⟨g, found⟩ := grouped.get?_groups_of_knows known here
  rw [absent] at found
  cases found

theorem membersOf_setMembers (ps : Probes) (group other : Nat) (ks : List KnownProbe) :
    (ps.setMembers group ks).membersOf other =
      if other = group then ks else ps.membersOf other := by
  unfold membersOf setMembers
  rw [Table.get?_insert]
  split <;> rfl

section Enter

def receive (group : Nat) (p : Probe) (installed : Bool) (ps : Probes) : Probes :=
  if installed then (ps.join group p).2.addInstalled (ps.join group p).1
  else (ps.join group p).2.addPending (ps.join group p).1

variable {group : Nat} {p : Probe} {installed : Bool}

theorem installed_receive : (ps.receive group p installed).installed =
    if installed then Table.insert p.id (ps.join group p).1 ps.installed else ps.installed := by
  cases installed <;> rfl

theorem pending_receive : (ps.receive group p installed).pending =
    if installed then ps.pending else Table.insert p.id (ps.join group p).1 ps.pending := by
  cases installed <;> rfl

@[simp] theorem groups_receive : (ps.receive group p installed).groups = ps.groups := by
  cases installed <;> rfl

@[simp] theorem lastGroup_receive : (ps.receive group p installed).lastGroup = ps.lastGroup := by
  cases installed <;> rfl

@[simp] theorem limiters_receive : (ps.receive group p installed).limiters = ps.limiters := by
  cases installed <;> rfl

theorem membersOf_receive (g : Nat) : (ps.receive group p installed).membersOf g =
    if g = group then ps.membersOf group ++ [(ps.join group p).1] else ps.membersOf g := by
  cases installed <;> exact membersOf_setMembers ps group g _

theorem absent_of_unknown {id : String} (unknown : ps.isKnown id = false) :
    Table.get? id ps.installed = none ∧ Table.get? id ps.pending = none := by
  rw [isKnown, Bool.or_eq_false_iff] at unknown
  exact ⟨Table.contains_eq_false_iff.mp unknown.1, Table.contains_eq_false_iff.mp unknown.2⟩

theorem installs_receive (unknown : ps.isKnown p.id = false) (k : KnownProbe) :
    (ps.receive group p installed).Installs k ↔
      ps.Installs k ∨ installed = true ∧ k = (ps.join group p).1 := by
  cases installed with
  | false => exact (or_iff_left fun both => by cases both.1).symm
  | true =>
    rw [and_iff_right rfl]
    exact lists_insert (k := (ps.join group p).1) (absent_of_unknown unknown).1

theorem awaits_receive (unknown : ps.isKnown p.id = false) (k : KnownProbe) :
    (ps.receive group p installed).Awaits k ↔
      ps.Awaits k ∨ installed = false ∧ k = (ps.join group p).1 := by
  cases installed with
  | true => exact (or_iff_left fun both => by cases both.1).symm
  | false =>
    rw [and_iff_right rfl]
    exact lists_insert (k := (ps.join group p).1) (absent_of_unknown unknown).2

theorem knows_receive (unknown : ps.isKnown p.id = false) (k : KnownProbe) :
    (ps.receive group p installed).Knows k ↔ ps.Knows k ∨ k = (ps.join group p).1 := by
  unfold Knows
  rw [installs_receive unknown, awaits_receive unknown]
  cases installed <;> simp [or_assoc, or_comm, or_left_comm]

theorem Knows.ne_join (known : ps.Knows k) (unknown : ps.isKnown p.id = false) (group : Nat) :
    k ≠ (ps.join group p).1 := by
  intro same
  subst same
  have contradiction := known.isKnown
  rw [show (ps.join group p).1.probe.id = p.id from rfl, unknown] at contradiction
  cases contradiction

theorem at_of_entered {state state' : KnownProbe → Prop} {c : Prop} (new : KnownProbe)
    (here : new.At t) (entered : ∀ k, state' k ↔ state k ∨ c ∧ k = new) (t' : HookTarget) :
    (∃ k, state' k ∧ k.At t') ↔ (∃ k, state k ∧ k.At t') ∨ c ∧ t' = t := by
  constructor
  · intro ⟨k, after, there⟩
    rcases (entered k).mp after with before | ⟨holds, same⟩
    · exact Or.inl ⟨k, before, there⟩
    · exact Or.inr ⟨holds, there.unique (same ▸ here)⟩
  · intro either
    rcases either with ⟨k, before, there⟩ | ⟨holds, same⟩
    · exact ⟨k, (entered k).mpr (Or.inl before), there⟩
    · exact ⟨new, (entered new).mpr (Or.inr ⟨holds, rfl⟩), same ▸ here⟩

theorem installedAt_receive (unknown : ps.isKnown p.id = false) (here : p.target = .ok (some t))
    (t' : HookTarget) : (ps.receive group p installed).InstalledAt t' ↔
      ps.InstalledAt t' ∨ installed = true ∧ t' = t :=
  at_of_entered (ps.join group p).1 here (installs_receive unknown) t'

theorem pendingAt_receive (unknown : ps.isKnown p.id = false) (here : p.target = .ok (some t))
    (t' : HookTarget) : (ps.receive group p installed).PendingAt t' ↔
      ps.PendingAt t' ∨ installed = false ∧ t' = t :=
  at_of_entered (ps.join group p).1 here (awaits_receive unknown) t'

theorem Grouped.apart_receive (grouped : ps.Grouped) (unknown : ps.isKnown p.id = false)
    (id : String) (isInstalled : (ps.receive group p installed).isInstalled id = true) :
    (ps.receive group p installed).isPending id = false := by
  have apart := grouped.apart id
  rw [isKnown, Bool.or_eq_false_iff] at unknown
  unfold Probes.isInstalled Probes.isPending at *
  rw [installed_receive] at isInstalled
  rw [pending_receive]
  cases installed with
  | true =>
    simp only [if_true, Table.contains_insert, Bool.or_eq_true, decide_eq_true_eq] at isInstalled
    rcases isInstalled with same | known
    · subst same
      exact unknown.2
    · exact apart known
  | false =>
    simp only [Bool.false_eq_true, if_false, Table.contains_insert, Bool.or_eq_false_iff,
      decide_eq_false_iff_not] at isInstalled ⊢
    refine ⟨fun same => ?_, apart isInstalled⟩
    rw [same, unknown.1] at isInstalled
    cases isInstalled

theorem Grouped.nodup_receive (grouped : ps.Grouped) (unknown : ps.isKnown p.id = false)
    {g : Nat} (found : Table.get? t ps.groups = some g) :
    ((ps.receive group p installed).membersOf g).Nodup := by
  have former := grouped.nodup t g found
  rw [membersOf_receive]
  split
  · rename_i same
    subst same
    apply former.append (List.nodup_singleton _)
    intro k old new
    have known := ((grouped.members t g found k).mp old).1
    exact known.ne_join unknown g (List.mem_singleton.mp new)
  · exact former

theorem Grouped.members_receive (grouped : ps.Grouped) (own : Table.get? t ps.groups = some group)
    (here : p.target = .ok (some t)) (unknown : ps.isKnown p.id = false) {t' : HookTarget} {g : Nat}
    (found : Table.get? t' ps.groups = some g) (k : KnownProbe) :
    k ∈ (ps.receive group p installed).membersOf g ↔
      (ps.receive group p installed).Knows k ∧ k.At t' := by
  rw [membersOf_receive, knows_receive unknown]
  split
  · rename_i same
    subst same
    have sameTarget := grouped.distinct t' t g found own
    subst sameTarget
    rw [List.mem_append, grouped.members t' g found k, List.mem_singleton, or_and_right]
    refine or_congr_right ⟨fun eq => ⟨eq, ?_⟩, fun both => both.1⟩
    rw [eq]
    exact here
  · rename_i other
    rw [grouped.members t' g found k]
    constructor
    · intro both
      exact ⟨Or.inl both.1, both.2⟩
    · intro either
      rcases either with ⟨known | new, there⟩
      · exact ⟨known, there⟩
      · subst new
        have sameTarget : t' = t := KnownProbe.At.unique there here
        rw [sameTarget, own] at found
        exact absurd (Option.some.inj found).symm other

theorem Grouped.receive (grouped : ps.Grouped) (own : Table.get? t ps.groups = some group)
    (here : p.target = .ok (some t)) (unknown : ps.isKnown p.id = false) :
    (ps.receive group p installed).Grouped := by
  constructor
  case installed =>
    rw [installed_receive]
    split
    · exact grouped.installed.insert (ps.join group p).1
    · exact grouped.installed
  case pending =>
    rw [pending_receive]
    split
    · exact grouped.pending
    · exact grouped.pending.insert (ps.join group p).1
  case apart => exact grouped.apart_receive unknown
  case nodup =>
    rw [groups_receive]
    intro t' g found
    exact grouped.nodup_receive unknown found
  case members =>
    rw [groups_receive]
    intro t' g found
    exact grouped.members_receive own here unknown found
  case placed =>
    intro k known
    rw [knows_receive unknown] at known
    rw [groups_receive]
    rcases known with known | new
    · exact grouped.placed k known
    · subst new
      exact ⟨t, group, here, own⟩
  case distinct =>
    rw [groups_receive]
    exact grouped.distinct
  case numbered =>
    rw [groups_receive, lastGroup_receive]
    exact grouped.numbered
  case fresh =>
    intro g later
    rw [lastGroup_receive] at later
    have other : g ≠ group := by
      have bound := grouped.numbered t group own
      omega
    rw [membersOf_receive, if_neg other]
    exact grouped.fresh g later

theorem Ordered.receive (ordered : ps.Ordered) (own : Table.get? t ps.groups = some group)
    (here : p.target = .ok (some t)) (unknown : ps.isKnown p.id = false) :
    (ps.receive group p installed).Ordered where
  toGrouped := ordered.toGrouped.receive own here unknown
  inhabited t' g found := by
    rw [groups_receive] at found
    obtain ⟨k, known, there⟩ := ordered.inhabited t' g found
    exact ⟨k, (knows_receive unknown k).mpr (Or.inl known), there⟩

def openGroup (target : HookTarget) (ps : Probes) : Probes :=
  { ps with lastGroup := ps.nextGroup, groups := Table.insert target ps.nextGroup ps.groups }

theorem Ordered.openGroup (ordered : ps.Ordered) (absent : Table.get? t ps.groups = none) :
    (ps.openGroup t).Grouped := by
  have nobody := ordered.nobody_at absent
  have empty : ps.membersOf ps.nextGroup = [] := ordered.fresh _ (Nat.lt_succ_self _)
  have groups : ∀ t', Table.get? t' (ps.openGroup t).groups =
      if t' = t then some ps.nextGroup else Table.get? t' ps.groups :=
    fun t' => Table.get?_insert t t' _ _
  constructor
  case installed => exact ordered.installed
  case pending => exact ordered.pending
  case apart => exact ordered.apart
  case nodup =>
    intro t' g found
    rw [groups] at found
    split at found
    · cases found
      show (ps.membersOf ps.nextGroup).Nodup
      rw [empty]
      exact List.nodup_nil
    · exact ordered.nodup t' g found
  case members =>
    intro t' g found k
    rw [groups] at found
    split at found
    · rename_i same
      cases found
      subst same
      show k ∈ ps.membersOf ps.nextGroup ↔ ps.Knows k ∧ k.At t'
      rw [empty]
      simp only [List.not_mem_nil, false_iff, not_and]
      exact nobody k
    · exact ordered.members t' g found k
  case placed =>
    intro k known
    obtain ⟨t', g, there, found⟩ := ordered.placed k known
    have other : t' ≠ t := fun eq => nobody k known (eq ▸ there)
    exact ⟨t', g, there, by rw [groups, if_neg other, found]⟩
  case distinct =>
    intro t' t'' g found found'
    have lower : ∀ {u : HookTarget}, Table.get? u ps.groups = some ps.nextGroup → False := by
      intro u found
      have bound := ordered.numbered u _ found
      exact absurd bound (Nat.not_succ_le_self _)
    rw [groups] at found found'
    split at found <;> split at found'
    · rename_i same same'
      exact same.trans same'.symm
    · cases found
      exact (lower found').elim
    · cases found'
      exact (lower found).elim
    · exact ordered.distinct t' t'' g found found'
  case numbered =>
    intro t' g found
    rw [groups] at found
    split at found
    · cases found
      exact Nat.le_refl _
    · exact Nat.le_succ_of_le (ordered.numbered t' g found)
  case fresh =>
    intro g later
    exact ordered.fresh g (Nat.lt_of_succ_lt later)

theorem Ordered.receive_first (ordered : ps.Ordered) (absent : Table.get? t ps.groups = none)
    (here : p.target = .ok (some t)) (unknown : ps.isKnown p.id = false) :
    ((ps.openGroup t).receive ps.nextGroup p installed).Ordered where
  toGrouped := (ordered.openGroup absent).receive (Table.get?_insert_self _ _ _) here unknown
  inhabited t' g found := by
    have known : ∀ k, ((ps.openGroup t).receive ps.nextGroup p installed).Knows k ↔ _ :=
      knows_receive unknown
    rw [groups_receive, Probes.openGroup, Table.get?_insert] at found
    split at found
    · rename_i same
      exact ⟨_, (known _).mpr (Or.inr rfl), same ▸ here⟩
    · obtain ⟨k, old, there⟩ := ordered.inhabited t' g found
      exact ⟨k, (known k).mpr (Or.inl old), there⟩

end Enter

end Probes
end LiveProbe
