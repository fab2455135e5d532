import LiveProbe.Proofs.Probe.Turnover

/-!
How long a probe is the same. No serial number is given out twice, so a probe that has gone never
comes back; and as long as a probe is known, its location keeps the group that it has.
-/
namespace LiveProbe.Probes

variable {ps : Probes} {k : KnownProbe} {t : HookTarget} {g : Nat}

structure Recast (ps ps' : Probes) : Prop where
  groups : ps'.groups = ps.groups
  members : ps'.members = ps.members
  lastSerial : ps'.lastSerial = ps.lastSerial
  lastGroup : ps'.lastGroup = ps.lastGroup

theorem Recast.refl (ps : Probes) : Recast ps ps := ⟨rfl, rfl, rfl, rfl⟩

theorem Recast.trans {ps' ps'' : Probes} (first : Recast ps ps') (second : Recast ps' ps'') :
    Recast ps ps'' where
  groups := second.groups.trans first.groups
  members := second.members.trans first.members
  lastSerial := second.lastSerial.trans first.lastSerial
  lastGroup := second.lastGroup.trans first.lastGroup

theorem Recast.membersOf {ps' : Probes} (recast : Recast ps ps') (g : Nat) :
    ps'.membersOf g = ps.membersOf g := by
  unfold Probes.membersOf
  rw [recast.members]

theorem recast_promote (k : KnownProbe) (ps : Probes) : Recast ps (ps.promote k) :=
  ⟨rfl, rfl, rfl, rfl⟩

theorem recast_takeTurn (k : KnownProbe) (ps : Probes) : Recast ps (ps.takeTurn k).2 := by
  rw [takeTurn_eq]
  exact ⟨rfl, rfl, rfl, rfl⟩

theorem installs_takeTurn (k k' : KnownProbe) (ps : Probes) :
    (ps.takeTurn k).2.Installs k' ↔ ps.Installs k' := by
  rw [takeTurn_eq]
  exact Iff.rfl

theorem Grouped.knows_iff (grouped : ps.Grouped) :
    ps.Knows k ↔ ∃ t g, k.At t ∧ Table.get? t ps.groups = some g ∧ k ∈ ps.membersOf g := by
  constructor
  · intro known
    obtain ⟨t, g, here, own⟩ := grouped.placed k known
    exact ⟨t, g, here, own, (grouped.members t g own k).mpr ⟨known, here⟩⟩
  · rintro ⟨t, g, -, own, member⟩
    exact ((grouped.members t g own k).mp member).1

theorem Recast.knows_iff {ps' : Probes} (recast : Recast ps ps') (grouped : ps.Grouped)
    (grouped' : ps'.Grouped) (k : KnownProbe) : ps'.Knows k ↔ ps.Knows k := by
  rw [grouped.knows_iff, grouped'.knows_iff, recast.groups]
  simp only [recast.membersOf]

/-- A predicate of the roster that is kept as probes enter, are promoted and leave. -/
structure Enduring (J : Probes → Prop) : Prop where
  recast : ∀ {ps ps' : Probes}, ps.Grouped → ps'.Grouped → Recast ps ps' →
    (∀ k, ps.Installs k → ps'.Installs k) → J ps → J ps'
  founded : ∀ {ps : Probes} {t : HookTarget} {p : Probe} (installed : Bool),
    Table.get? t ps.groups = none → ps.isKnown p.id = false →
    J ps → J ((ps.openGroup t).receive ps.nextGroup p installed)
  joined : ∀ {ps : Probes} {t : HookTarget} {g : Nat} {p : Probe} {installed : Bool},
    Table.get? t ps.groups = some g → ps.isKnown p.id = false →
    ((∀ k ∈ ps.membersOf g, ps.Installs k) → installed = true) →
    J ps → J (ps.receive g p installed)
  left : ∀ {ps : Probes} {t : HookTarget} {g : Nat} {k : KnownProbe}, ps.Grouped → ps.Knows k →
    k.At t → Table.get? t ps.groups = some g → J ps → J (ps.afterLeave t g k)

namespace Enduring

variable {J J' : Probes → Prop}

theorem and (first : Enduring J) (second : Enduring J') : Enduring fun ps => J ps ∧ J' ps where
  recast grouped grouped' recast stays both :=
    ⟨first.recast grouped grouped' recast stays both.1,
      second.recast grouped grouped' recast stays both.2⟩
  founded installed absent unknown both :=
    ⟨first.founded installed absent unknown both.1, second.founded installed absent unknown both.2⟩
  joined own unknown alike both :=
    ⟨first.joined own unknown alike both.1, second.joined own unknown alike both.2⟩
  left grouped known here own both :=
    ⟨first.left grouped known here own both.1, second.left grouped known here own both.2⟩

theorem without (enduring : Enduring J) (grouped : ps.Grouped) (known : ps.Knows k)
    (here : k.At t) (holds : J ps) : J (leave t k.probe.id (ps.without k.probe.id)).2 := by
  obtain ⟨g, own⟩ := grouped.get?_groups_of_knows known here
  rw [leave_without own]
  exact enduring.left grouped known here own holds

end Enduring

/-- Known probes have serial numbers of their own, none above the last one. -/
structure Serialized (ps : Probes) : Prop where
  bounded : ∀ k, ps.Knows k → k.serial ≤ ps.lastSerial
  distinct : ∀ k k', ps.Knows k → ps.Knows k' → k.serial = k'.serial → k = k'

theorem serialized_empty (limiters : Limiters) : Serialized { limiters } := by
  constructor <;> simp [Knows, Installs, Awaits, Table.get?]

@[simp] theorem lastSerial_receive {p : Probe} {installed : Bool} :
    (ps.receive g p installed).lastSerial = ps.lastSerial + 1 := by
  cases installed <;> rfl

theorem Serialized.mono {ps' : Probes} (serialized : ps.Serialized)
    (fewer : ∀ k, ps'.Knows k → ps.Knows k) (last : ps'.lastSerial = ps.lastSerial) :
    ps'.Serialized where
  bounded k known := by
    rw [last]
    exact serialized.bounded k (fewer k known)
  distinct k k' known known' := serialized.distinct k k' (fewer k known) (fewer k' known')

theorem Serialized.receive (serialized : ps.Serialized) {p : Probe} {installed : Bool}
    (unknown : ps.isKnown p.id = false) : (ps.receive g p installed).Serialized := by
  have newest : ∀ k, (ps.receive g p installed).Knows k →
      ps.Knows k ∧ k.serial ≤ ps.lastSerial ∨ k = (ps.join g p).1 := by
    intro k known
    rcases (knows_receive unknown k).mp known with old | new
    · exact Or.inl ⟨old, serialized.bounded k old⟩
    · exact Or.inr new
  have serial : (ps.join g p).1.serial = ps.lastSerial + 1 := rfl
  constructor
  case bounded =>
    intro k known
    rw [lastSerial_receive]
    rcases newest k known with ⟨-, bound⟩ | rfl
    · omega
    · exact Nat.le_of_eq serial
  case distinct =>
    intro k k' known known' same
    rcases newest k known with ⟨old, bound⟩ | new <;>
      rcases newest k' known' with ⟨old', bound'⟩ | new'
    · exact serialized.distinct k k' old old' same
    · subst new'
      omega
    · subst new
      omega
    · rw [new, new']

theorem enduring_serialized : Enduring Serialized where
  recast grouped grouped' recast _ serialized :=
    serialized.mono (fun k => (recast.knows_iff grouped grouped' k).mp) recast.lastSerial
  founded {ps t _} _ _ unknown serialized :=
    have opened : (ps.openGroup t).Serialized := serialized.mono (fun _ known => known) rfl
    opened.receive unknown
  joined _ unknown _ serialized := serialized.receive unknown
  left grouped known _ _ serialized :=
    serialized.mono (fun k' remains => ((grouped.knows_afterLeave known k').mp remains).1) rfl

/-- A group is that of a location, or has been given up for good together with a probe there. -/
structure Settled (t : HookTarget) (g : Nat) (k : KnownProbe) (ps : Probes) : Prop where
  serial : k.serial ≤ ps.lastSerial
  group : g ≤ ps.lastGroup
  tenure : Table.get? t ps.groups = some g ∨
    ps.membersOf g = [] ∧ ¬ ps.Knows k ∧ ∀ t', Table.get? t' ps.groups ≠ some g

theorem Settled.openGroup (settled : Settled t g k ps) {t' : HookTarget}
    (absent : Table.get? t' ps.groups = none) : Settled t g k (ps.openGroup t') := by
  have groups : ∀ u, Table.get? u (ps.openGroup t').groups =
      if u = t' then some ps.nextGroup else Table.get? u ps.groups :=
    fun u => Table.get?_insert t' u _ _
  refine ⟨settled.serial, Nat.le_succ_of_le settled.group, ?_⟩
  rcases settled.tenure with own | ⟨empty, gone, nowhere⟩
  · left
    have other : t ≠ t' := by
      rintro rfl
      rw [own] at absent
      cases absent
    rw [groups, if_neg other]
    exact own
  · refine Or.inr ⟨empty, gone, fun u found => ?_⟩
    rw [groups] at found
    split at found
    · have next : ps.nextGroup = g := Option.some.inj found
      have bound := settled.group
      unfold nextGroup at next
      omega
    · exact nowhere u found

theorem Settled.receive (settled : Settled t g k ps) {t' : HookTarget} {g' : Nat} {p : Probe}
    {installed : Bool} (own : Table.get? t' ps.groups = some g')
    (unknown : ps.isKnown p.id = false) : Settled t g k (ps.receive g' p installed) := by
  have serial := settled.serial
  refine ⟨?_, ?_, ?_⟩
  · rw [lastSerial_receive]
    omega
  · rw [lastGroup_receive]
    exact settled.group
  · rw [groups_receive]
    refine settled.tenure.imp_right fun ⟨empty, gone, nowhere⟩ => ⟨?_, ?_, nowhere⟩
    · have other : g ≠ g' := fun same => nowhere t' (same ▸ own)
      rw [membersOf_receive, if_neg other]
      exact empty
    · rw [knows_receive unknown]
      rintro (old | new)
      · exact gone old
      · have number : k.serial = ps.lastSerial + 1 := congrArg KnownProbe.serial new
        omega

theorem Settled.afterLeave (settled : Settled t g k ps) (here : k.At t) (grouped : ps.Grouped)
    {t' : HookTarget} {g' : Nat} {k' : KnownProbe} (known : ps.Knows k')
    (own : Table.get? t' ps.groups = some g') : Settled t g k (ps.afterLeave t' g' k') := by
  have knows : (ps.afterLeave t' g' k').Knows k ↔ _ := grouped.knows_afterLeave known k
  refine ⟨settled.serial, settled.group, ?_⟩
  rcases settled.tenure with stays | ⟨empty, gone, nowhere⟩
  · by_cases vacated : t = t' ∧ ps.othersIn g' k' = []
    · -- the location is given up, and nobody is left there
      obtain ⟨rfl, nobody⟩ := vacated
      have same : g = g' := Option.some.inj (stays.symm.trans own)
      subst same
      refine Or.inr ⟨?_, fun remains => ?_, fun u found => ?_⟩
      · rw [membersOf_afterLeave, if_pos rfl]
        exact nobody
      · obtain ⟨still, other⟩ := knows.mp remains
        have member := (grouped.mem_othersIn known own).mpr ⟨still, here, other⟩
        rw [nobody] at member
        cases member
      · obtain ⟨former, inhabited⟩ := (get?_groups_afterLeave k').mp found
        exact inhabited (grouped.distinct u t g former own) nobody
    · refine Or.inl ((get?_groups_afterLeave k').mpr ⟨stays, fun same nobody => ?_⟩)
      exact vacated ⟨same, nobody⟩
  · refine Or.inr ⟨?_, fun remains => gone (knows.mp remains).1, fun u found => ?_⟩
    · have other : g ≠ g' := fun same => nowhere t' (same ▸ own)
      rw [membersOf_afterLeave, if_neg other]
      exact empty
    · exact nowhere u ((get?_groups_afterLeave k').mp found).1

theorem Settled.recast (settled : Settled t g k ps) {ps' : Probes} (grouped : ps.Grouped)
    (grouped' : ps'.Grouped) (recast : Recast ps ps') : Settled t g k ps' := by
  refine ⟨?_, ?_, ?_⟩
  · rw [recast.lastSerial]
    exact settled.serial
  · rw [recast.lastGroup]
    exact settled.group
  · rw [recast.groups, recast.membersOf, recast.knows_iff grouped grouped']
    exact settled.tenure

theorem Settled.founded (settled : Settled t g k ps) {t' : HookTarget} {p : Probe}
    (installed : Bool) (absent : Table.get? t' ps.groups = none)
    (unknown : ps.isKnown p.id = false) :
    Settled t g k ((ps.openGroup t').receive ps.nextGroup p installed) :=
  (settled.openGroup absent).receive (Table.get?_insert_self _ _ _) unknown

theorem enduring_settled (g : Nat) (here : k.At t) : Enduring (Settled t g k) where
  recast grouped grouped' recast _ settled := settled.recast grouped grouped' recast
  founded installed absent unknown settled := settled.founded installed absent unknown
  joined own unknown _ settled := settled.receive own unknown
  left grouped known _ own settled := settled.afterLeave here grouped known own

theorem settled_of_knows (serialized : ps.Serialized) (grouped : ps.Grouped) (known : ps.Knows k)
    (own : Table.get? t ps.groups = some g) : Settled t g k ps :=
  ⟨serialized.bounded k known, grouped.numbered t g own, Or.inl own⟩

theorem Settled.mem_membersOf (settled : Settled t g k ps) (grouped : ps.Grouped)
    {k' : KnownProbe} (member : k' ∈ ps.membersOf g) : ps.Knows k' ∧ k'.At t := by
  rcases settled.tenure with own | ⟨empty, -⟩
  · exact (grouped.members t g own k').mp member
  · rw [empty] at member
    cases member

theorem Settled.nodup (settled : Settled t g k ps) (grouped : ps.Grouped) :
    (ps.membersOf g).Nodup := by
  rcases settled.tenure with own | ⟨empty, -⟩
  · exact grouped.nodup t g own
  · rw [empty]
    exact List.nodup_nil

theorem Settled.nodup_serials (settled : Settled t g k ps) (grouped : ps.Grouped)
    (serialized : ps.Serialized) : ((ps.membersOf g).map (·.serial)).Nodup :=
  (settled.nodup grouped).map_on fun a inA b inB => serialized.distinct a b
    (settled.mem_membersOf grouped inA).1 (settled.mem_membersOf grouped inB).1

theorem Settled.member (settled : Settled t g k ps) (grouped : ps.Grouped) (here : k.At t)
    (known : ps.Knows k) : k ∈ ps.membersOf g := by
  rcases settled.tenure with own | ⟨-, gone, -⟩
  · exact (grouped.members t g own k).mpr ⟨known, here⟩
  · exact absurd known gone

/-- A settled group whose hook is set: whoever is left in it is installed. -/
structure OnDuty (t : HookTarget) (g : Nat) (k : KnownProbe) (ps : Probes) : Prop
    extends Settled t g k ps where
  installed : ∀ k' ∈ ps.membersOf g, ps.Installs k'

namespace OnDuty

variable {ps' : Probes}

theorem of_fewer (duty : OnDuty t g k ps) (settled : Settled t g k ps') (grouped : ps'.Grouped)
    (fewer : ∀ k' ∈ ps'.membersOf g, k' ∈ ps.membersOf g)
    (stays : ∀ k', ps'.Knows k' → ps.Installs k' → ps'.Installs k') : OnDuty t g k ps' where
  toSettled := settled
  installed k' member :=
    stays k' (settled.mem_membersOf grouped member).1 (duty.installed k' (fewer k' member))

theorem founded (duty : OnDuty t g k ps) {t' : HookTarget} {p : Probe} (installed : Bool)
    (absent : Table.get? t' ps.groups = none) (unknown : ps.isKnown p.id = false) :
    OnDuty t g k ((ps.openGroup t').receive ps.nextGroup p installed) := by
  refine ⟨duty.toSettled.founded installed absent unknown, fun k' member => ?_⟩
  have older : g ≠ ps.nextGroup := Nat.ne_of_lt (Nat.lt_succ_of_le duty.group)
  have unknown' : (ps.openGroup t').isKnown p.id = false := unknown
  rw [membersOf_receive, if_neg older] at member
  exact (installs_receive unknown' k').mpr (Or.inl (duty.installed k' member))

theorem receive (duty : OnDuty t g k ps) {t' : HookTarget} {g' : Nat} {p : Probe}
    {installed : Bool} (own : Table.get? t' ps.groups = some g')
    (unknown : ps.isKnown p.id = false)
    (alike : (∀ k ∈ ps.membersOf g', ps.Installs k) → installed = true) :
    OnDuty t g k (ps.receive g' p installed) := by
  refine ⟨duty.toSettled.receive own unknown, fun k' member => ?_⟩
  rw [installs_receive unknown]
  rw [membersOf_receive] at member
  split at member
  · rename_i same
    subst same
    rcases List.mem_append.mp member with old | new
    · exact Or.inl (duty.installed k' old)
    · exact Or.inr ⟨alike duty.installed, List.mem_singleton.mp new⟩
  · exact Or.inl (duty.installed k' member)

theorem afterLeave (duty : OnDuty t g k ps) (here : k.At t) (grouped : ps.Grouped)
    {t' : HookTarget} {g' : Nat} {k' : KnownProbe} (known : ps.Knows k') (there : k'.At t')
    (own : Table.get? t' ps.groups = some g') : OnDuty t g k (ps.afterLeave t' g' k') := by
  refine duty.of_fewer (duty.toSettled.afterLeave here grouped known own)
    (grouped.afterLeave known there own) (fun k'' member => ?_) fun k'' remains installs => ?_
  · rw [membersOf_afterLeave] at member
    split at member
    · rename_i same
      exact same ▸ (List.mem_filter.mp member).1
    · exact member
  · have other := ((grouped.knows_afterLeave known k'').mp remains).2
    exact (grouped.installs_afterLeave known k'').mpr ⟨installs, other⟩

end OnDuty

theorem enduring_onDuty (g : Nat) (here : k.At t) : Enduring (OnDuty t g k) where
  recast grouped grouped' recast stays duty :=
    duty.of_fewer (duty.toSettled.recast grouped grouped' recast) grouped'
      (fun _ member => recast.membersOf g ▸ member) fun k' _ => stays k'
  founded installed absent unknown duty := duty.founded installed absent unknown
  joined own unknown alike duty := duty.receive own unknown alike
  left grouped known there own duty := duty.afterLeave here grouped known there own

end LiveProbe.Probes
