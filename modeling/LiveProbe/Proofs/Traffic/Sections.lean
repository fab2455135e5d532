import LiveProbe.Proofs.Traffic.Order

/-!
Sections that do without the lock of the probes keep traffic in order: definitions and loaded units,
what the hooks make of them, and the promotion of probes whose hook has been installed.
-/
namespace LiveProbe

namespace CodeRegistry

theorem isSome_lookup (r : CodeRegistry) (file : String) :
    (r.lookup file).isSome = true ↔ Table.contains file r.units = true ∨
      Table.contains (Text.basename file) r.units = true := by
  unfold lookup Table.contains
  cases Table.get? file r.units <;> simp

theorem lookup_register_of_lookup {r : CodeRegistry} {file : String}
    (found : (r.lookup file).isSome = true) (path : String) (unit : CompiledUnit) :
    ((r.register path unit).2.lookup file).isSome = true := by
  rw [isSome_lookup] at found ⊢
  exact found.imp (fun h => (contains_register path unit r).mpr (Or.inl h))
    fun h => (contains_register path unit r).mpr (Or.inl h)

end CodeRegistry

namespace Setup

variable {s : Setup} {r : CodeRegistry} {t : HookTarget}

theorem grants_define (granted : s.Grants t) (typeName : String) (bodies : List (String × Body)) :
    ({ s with host := s.host.define typeName bodies } : Setup).Grants t := by
  cases t with
  | line l => exact granted
  | method m =>
    have before : (s.host.body? m).isSome = true := granted.2
    refine ⟨granted.1, ?_⟩
    show ((s.host.define typeName bodies).body? m).isSome = true
    rw [Host.body?_define]
    split
    · rw [Option.isSome_or, before, Bool.or_true]
    · exact before

theorem grants_of_grants_define {typeName : String} {bodies : List (String × Body)}
    (granted : ({ s with host := s.host.define typeName bodies } : Setup).Grants t) :
    s.Grants t ∨ (Arrival.type typeName).covers t := by
  cases t with
  | line l => exact Or.inl granted
  | method m =>
    by_cases own : m.typeName = typeName
    · exact Or.inr own
    · have defined : ((s.host.define typeName bodies).body? m).isSome = true := granted.2
      rw [Host.body?_define, if_neg own] at defined
      exact Or.inl ⟨granted.1, defined⟩

theorem Registers.load (registers : Registers s r) (path : String) (lines : List UInt32) :
    Registers { s with host := (s.host.load path lines).2 } r where
  code := registers.code
  active := registers.active
  listens := registers.listens
  listed e member :=
    (Host.mem_allUnits_load s.host path lines e.2).mpr (Or.inl (registers.listed e member))

theorem Registers.grants_load_iff (registers : Registers s r) (path : String)
    (lines : List UInt32) :
    ({ s with host := (s.host.load path lines).2 } : Setup).Grants t ↔ s.Grants t := by
  cases t with
  | method m => exact Iff.rfl
  | line l =>
    rw [(registers.load path lines).grants_line_iff, registers.grants_line_iff]
    exact Iff.rfl

theorem Registers.registering (registers : Registers s r) {unit : CompiledUnit}
    (loaded : unit ∈ s.host.allUnits) :
    Registers (s.registering r unit) (r.register unit.path unit).2 where
  code := rfl
  active := by
    rw [CodeRegistry.register_eq]
    exact registers.active
  listens := by
    rw [CodeRegistry.register_eq]
    exact registers.listens
  listed e member := by
    rcases CodeRegistry.mem_foldl_registerUnder _ _ member with old | ⟨-, same⟩
    · exact registers.listed e old
    · rw [same]
      exact loaded

theorem Registers.grants_registering (registers : Registers s r) {unit : CompiledUnit}
    (loaded : unit ∈ s.host.allUnits) (granted : s.Grants t) : (s.registering r unit).Grants t := by
  cases t with
  | method m => exact granted
  | line l =>
    rw [registers.grants_line_iff] at granted
    rw [(registers.registering loaded).grants_line_iff]
    exact granted.imp_right (Or.imp_right fun found =>
      CodeRegistry.lookup_register_of_lookup found unit.path unit)

end Setup

namespace Traffic

variable {s : Traffic} {job : Job} {others next : Multiset Job} {t : HookTarget}

/-! What becomes of the jobs when one of them is replaced by what is to be done next. -/

theorem mem_of_ready (ready : s.jobs = job ::ₘ others) {other : Job} (member : other ∈ others) :
    other ∈ s.jobs := by
  rw [ready]
  exact Multiset.mem_cons_of_mem member

theorem inFlight_next (ready : s.jobs = job ::ₘ others) (silent : ¬ job.Tells t)
    (quiet : ∀ other ∈ next, ¬ other.Tells t) :
    (∃ other ∈ next + others, other.Tells t) ↔ s.InFlight t := by
  rw [inFlight_of_ready ready, exists_mem_add, or_iff_right silent, or_iff_right]
  rintro ⟨other, member, tells⟩
  exact quiet other member tells

theorem heralded_next (ready : s.jobs = job ::ₘ others)
    (passes : job.Heralds t → ∃ other ∈ next, other.Heralds t) (heralded : s.Heralded t) :
    ∃ other ∈ next + others, other.Heralds t := by
  rw [exists_mem_add]
  exact ((heralded_of_ready ready t).mp heralded).imp_left passes

structure Admissible (next : Multiset Job) (s : Setup) : Prop where
  loaded : ∀ u, Job.register u ∈ next → u ∈ s.host.allUnits
  unclosed : Job.close ∉ next

theorem Orderly.advance (order : Orderly s) (ready : s.jobs = job ::ₘ others) {setup : Setup}
    {holder : Option Hold} (anchored : setup.held.Anchored) (ordered : setup.engine.probes.Ordered)
    (connected : setup.Connected)
    (units : ∀ u ∈ s.setup.host.allUnits, u ∈ setup.host.allUnits)
    (granted : ∀ t, s.setup.Grants t → setup.Grants t) (admissible : Admissible next setup)
    (sensible : ∀ hold, holder = some hold → hold.Sensible setup.engine.probes)
    (balanced : ∀ t, Balanced { s with setup, holder, jobs := next + others } t) :
    Follows s { s with setup, holder, jobs := next + others } where
  granted := granted
  order := {
    anchored := anchored
    ordered := ordered
    connected := connected
    loaded := fun u member => (Multiset.mem_add.mp member).elim (admissible.loaded u) fun old =>
      units u (order.loaded u (mem_of_ready ready old))
    unclosed := fun member => (Multiset.mem_add.mp member).elim admissible.unclosed fun old =>
      order.unclosed (mem_of_ready ready old)
    sensible := sensible
    balanced := balanced }

theorem admissible_zero (s : Setup) : Admissible 0 s :=
  ⟨fun _ h => absurd h (Multiset.notMem_zero _), Multiset.notMem_zero _⟩

theorem admissible_of_forall_eq {s : Setup} (job : Job) (all : ∀ other ∈ next, other = job)
    (loaded : ∀ u, job = .register u → u ∈ s.host.allUnits) (unclosed : job ≠ .close) :
    Admissible next s :=
  ⟨fun u member => loaded u (all _ member).symm, fun member => unclosed (all _ member).symm⟩

theorem mem_subscribed {setup : Setup} {observers : List (Nat × Observer)} {other : Job} :
    other ∈ setup.subscribed observers job ↔
      other = job ∧ ∃ id, (id, .engine setup.engine.number) ∈ observers := by
  simp only [Setup.subscribed, Multiset.mem_coe, List.mem_map, List.mem_filter,
    decide_eq_true_eq, Prod.exists]
  constructor
  · rintro ⟨id, observer, ⟨member, rfl⟩, rfl⟩
    exact ⟨rfl, id, member⟩
  · rintro ⟨rfl, id, member⟩
    exact ⟨id, _, ⟨member, rfl⟩, rfl⟩

theorem mem_heard {r : CodeRegistry} {other : Job} :
    other ∈ r.heard job ↔ other = job ∧ CodeListener.hooks ∈ r.listeners := by
  simp only [CodeRegistry.heard, Multiset.mem_coe, List.mem_map, List.mem_filter,
    decide_eq_true_eq]
  constructor
  · rintro ⟨listener, ⟨member, rfl⟩, rfl⟩
    exact ⟨rfl, member⟩
  · rintro ⟨rfl, member⟩
    exact ⟨_, ⟨member, rfl⟩, rfl⟩

theorem Undisturbed.of_same {s' : Traffic}
    (hooked : s'.setup.engine.hooks.isInstalled t = s.setup.engine.hooks.isInstalled t)
    (waits : s'.setup.engine.hooks.isPending t = s.setup.engine.hooks.isPending t)
    (probes : s'.setup.engine.probes = s.setup.engine.probes) (holder : s'.holder = s.holder)
    (astray : s'.astray = s.astray) (inFlight : s'.InFlight t ↔ s.InFlight t)
    (granted : s.setup.Grants t → s'.setup.Grants t)
    (heralded : s.Waits t → s'.setup.Grants t → (s.setup.Grants t → s.Heralded t) →
      s'.Heralded t) : Undisturbed t s s' where
  hooked := by rw [Hooked, hooked, Hooked]
  waits := by rw [Waits, waits, Waits]
  staffed := by rw [Staffed, Staffed, Entering, Entering, probes, holder]
  awaited := by rw [Awaited, Awaited, Entering, Entering, probes, holder]
  inFlight := inFlight
  astray := by rw [astray]
  granted := granted
  heralded := heralded

theorem Orderly.begins (order : Orderly s) (allowed : job.Manages) :
    Follows s { s with jobs := job ::ₘ s.jobs } := by
  have silent : ∀ t, ¬ job.Tells t := by
    intro t tells
    cases job <;> first | exact tells | cases allowed
  refine ⟨⟨order.anchored, order.ordered, order.connected, fun u member => ?_, fun member => ?_,
    order.sensible, fun t => (order.balanced t).of_undisturbed ?_⟩, fun _ => id⟩
  · rcases Multiset.mem_cons.mp member with same | old
    · subst same
      cases allowed
    · exact order.loaded u old
  · rcases Multiset.mem_cons.mp member with same | old
    · subst same
      cases allowed
    · exact order.unclosed old
  · refine .of_same rfl rfl rfl rfl rfl ?_ id fun waits granted heralded => ?_
    · simp only [InFlight, Multiset.mem_cons, or_and_right, exists_or, exists_eq_left]
      exact or_iff_right (silent t)
    · obtain ⟨other, member, heralds⟩ := heralded granted
      exact ⟨other, Multiset.mem_cons_of_mem member, heralds⟩

theorem Orderly.define (order : Orderly s) {typeName : String} {bodies : List (String × Body)}
    (ready : s.jobs = .define typeName bodies ::ₘ others) :
    Follows s { s with
      setup := { s.setup with host := s.setup.host.define typeName bodies }
      jobs := s.setup.subscribed s.setup.host.definitionObservers (.announce (.type typeName)) +
        others } := by
  obtain ⟨opened, observer, accepting, definitions, compiles, r, code, active, listens, listed⟩ :=
    order.connected
  refine order.advance ready { order.anchored with } order.ordered
    ⟨opened, observer, accepting, definitions, compiles, r, code, active, listens, listed⟩
    (fun _ => id) (fun t granted => Setup.grants_define granted typeName bodies) ?_ order.sensible
    fun t => (order.balanced t).of_undisturbed ?_
  · exact admissible_of_forall_eq _ (fun _ member => (mem_subscribed.mp member).1) nofun nofun
  refine .of_same rfl rfl rfl rfl rfl ?_ (fun granted => Setup.grants_define granted _ _)
    fun waits granted heralded => ?_
  · exact inFlight_next ready id fun other member tells => by
      rw [(mem_subscribed.mp member).1] at tells
      exact tells
  · rcases Setup.grants_of_grants_define granted with before | covers
    · exact heralded_next ready (fun heralds => False.elim heralds) (heralded before)
    · exact ⟨_, Multiset.mem_add.mpr (Or.inl (mem_subscribed.mpr ⟨rfl, definitions⟩)), covers⟩

theorem Orderly.load (order : Orderly s) {path : String} {lines : List UInt32}
    (ready : s.jobs = .load path lines ::ₘ others) :
    Follows s { s with
      setup := { s.setup with host := (s.setup.host.load path lines).2 }
      jobs := s.setup.subscribed s.setup.host.compileObservers
        (.register (s.setup.host.load path lines).1) + others } := by
  obtain ⟨opened, observer, accepting, definitions, compiles, r, registers⟩ := order.connected
  have mem := Host.mem_allUnits_load s.setup.host path lines
  have later := fun t member => Nat.le_succ_of_le (order.anchored.bounded t member)
  refine order.advance ready { order.anchored with bounded := later } order.ordered
    ⟨opened, observer, accepting, definitions, compiles, r, registers.load path lines⟩
    (fun u known => (mem u).mpr (Or.inl known))
    (fun t => (registers.grants_load_iff path lines).mpr) ?_ order.sensible
    fun t => (order.balanced t).of_undisturbed ?_
  · refine admissible_of_forall_eq _ (fun _ member => (mem_subscribed.mp member).1) ?_ nofun
    intro u same
    cases same
    exact (mem _).mpr (Or.inr rfl)
  refine .of_same rfl rfl rfl rfl rfl ?_ (registers.grants_load_iff path lines).mpr
    fun waits granted heralded => ?_
  · exact inFlight_next ready id fun other member tells => by
      rw [(mem_subscribed.mp member).1] at tells
      exact tells
  · exact heralded_next ready (fun heralds => False.elim heralds)
      (heralded ((registers.grants_load_iff path lines).mp granted))

theorem Orderly.base (order : Orderly s) {l : SourceLine} (waits : s.Waits (.line l)) :
    Text.basename l.file = l.file := by
  have somebody : ∃ p : Probe, p.target = .ok (some (.line l)) := by
    rcases (order.balanced _).waits waits with ⟨k, -, here⟩ | ⟨p, held⟩
    · exact ⟨k.probe, here⟩
    · exact ⟨p, (order.sensible _ held).1⟩
  obtain ⟨p, here⟩ := somebody
  unfold Probe.target at here
  split at here
  · simp at here
  · simp only [Except.ok.injEq, Option.some.injEq, HookTarget.lineOf, HookTarget.line.injEq] at here
    rw [← here]
    exact Text.basename_idem _
  · cases here
  · simp at here

theorem Orderly.register (order : Orderly s) {unit : CompiledUnit} {code : CodeRegistry}
    (ready : s.jobs = .register unit ::ₘ others) (known : s.setup.engine.code = some code) :
    Follows s { s with
      setup := s.setup.registering code unit
      jobs := (if (code.register unit.path unit).1 then
        (code.register unit.path unit).2.heard (.announce (.file unit.path)) else 0) +
        others } := by
  obtain ⟨opened, observer, accepting, definitions, compiles, r, registers⟩ := order.connected
  cases Option.some.inj (registers.code.symm.trans known)
  have loaded : unit ∈ s.setup.host.allUnits :=
    order.loaded unit (by rw [ready]; exact Multiset.mem_cons_self _ _)
  have registers' := registers.registering loaded
  have announced : ∀ other ∈ (if (code.register unit.path unit).1 then
      (code.register unit.path unit).2.heard (.announce (.file unit.path)) else 0),
      other = .announce (.file unit.path) := by
    intro other member
    split at member
    · exact (mem_heard.mp member).1
    · cases member
  refine order.advance ready { order.anchored with } order.ordered
    ⟨opened, observer, accepting, definitions, compiles, _, registers'⟩ (fun _ => id)
    (fun t => registers.grants_registering loaded)
    (admissible_of_forall_eq _ announced nofun nofun) order.sensible
    fun t => (order.balanced t).of_undisturbed ?_
  refine .of_same rfl rfl rfl rfl rfl ?_ (registers.grants_registering loaded)
    fun waits granted heralded => ?_
  · exact inFlight_next ready id fun other member tells => by
      rw [announced other member] at tells
      exact tells
  · cases t with
    | method m => exact heralded_next ready (fun heralds => False.elim heralds) (heralded granted)
    | line l =>
      have base := order.base waits
      obtain ⟨willing, anywhere⟩ := (registers'.grants_line_iff l).mp granted
      rw [Setup.lookup_register base, ← or_assoc] at anywhere
      rcases anywhere with before | own
      · exact heralded_next ready (fun heralds => False.elim heralds)
          (heralded ((registers.grants_line_iff l).mpr ⟨willing, before⟩))
      · cases added : (code.register unit.path unit).1 with
        | true =>
          refine ⟨.announce (.file unit.path), Multiset.mem_add.mpr (Or.inl ?_), ?_⟩
          · simp only [if_true]
            exact mem_heard.mpr ⟨rfl, registers'.listens⟩
          · exact ((CodeRegistry.mem_keysOf base).mp own).2.symm
        | false =>
          -- a registry that had all keys of the unit has granted the line before
          have found := (Setup.lookup_register (r := code) base unit.path unit).mpr (Or.inr own)
          rw [CodeRegistry.register_of_known added] at found
          exact heralded_next ready (fun heralds => False.elim heralds)
            (heralded ((registers.grants_line_iff l).mpr ⟨willing, Or.inr found⟩))

theorem Orderly.announce (order : Orderly s) {arrival : Arrival}
    (ready : s.jobs = .announce arrival ::ₘ others) :
    Follows s { s with
      jobs := (if s.setup.engine.hooks.closed then 0 else {.install arrival}) + others } := by
  rw [order.connected.opened]
  simp only [Bool.false_eq_true, if_false]
  refine order.advance ready order.anchored order.ordered order.connected (fun _ => id)
    (fun _ => id) (admissible_of_forall_eq _ (fun _ => Multiset.mem_singleton.mp) nofun nofun)
    order.sensible fun t => (order.balanced t).of_undisturbed ?_
  refine .of_same rfl rfl rfl rfl rfl ?_ id fun waits granted heralded => ?_
  · exact inFlight_next ready id fun other member tells => by
      rw [Multiset.mem_singleton.mp member] at tells
      exact tells
  · exact heralded_next ready (fun covers => ⟨_, Multiset.mem_singleton_self _, covers⟩)
      (heralded granted)

theorem mem_waiting {arrival : Arrival} {hooks : Hooks} :
    t ∈ (arrival.waiting hooks).map (·.1) ↔ arrival.covers t ∧ hooks.isPending t = true := by
  cases arrival with
  | type name =>
    refine Hooking.mem_waitingMethods.trans ?_
    cases t <;> simp [Arrival.covers]
  | file path =>
    refine Hooking.mem_waitingLines.trans ?_
    cases t <;> simp [Arrival.covers]

theorem nodup_waiting {h : Hooking} (anchored : h.Anchored) (arrival : Arrival) :
    ((arrival.waiting h.hooks).map (·.1)).Nodup := by
  cases arrival with
  | type name => exact Hooking.nodup_waitingMethods anchored name
  | file path => exact Hooking.nodup_waitingLines anchored path

theorem retried_of_perm {h : Hooking} {arrival : Arrival} {order : List (HookTarget × Callback)}
    (anchored : h.Anchored) (exclusive : h.Exclusive) (code : Option CodeRegistry)
    (perm : order.Perm (arrival.waiting h.hooks)) :
    Hooking.Retried code (order.map (·.1)) h (h.retryAll code order) := by
  have targets := perm.map (·.1)
  apply Hooking.retryAll_retried code order anchored
    (targets.nodup_iff.mpr (nodup_waiting anchored arrival))
  intro t member
  exact exclusive t (mem_waiting.mp (targets.mem_iff.mp member)).2

theorem Balanced.takeOff {s' : Traffic} (balanced : Balanced s t) (waits : s.Waits t)
    (hooked : s'.Hooked t) (idle : ¬ s'.Waits t) (staffed : s'.Staffed t ↔ s.Staffed t)
    (awaited : s'.Awaited t ↔ s.Awaited t) (astray : s'.astray t → s.astray t)
    (told : s'.InFlight t) (granted : s'.setup.Grants t) : Balanced s' t where
  staffed _ := hooked
  awaited _ := Or.inr ⟨hooked, told⟩
  waits h := absurd h idle
  hooked _ := Or.inr (Or.inl ⟨awaited.mpr (balanced.waits waits), told⟩)
  uniform h h' := balanced.uniform (staffed.mp h) (awaited.mp h')
  apart _ := idle
  astray h := absurd waits (balanced.apart (balanced.astray (astray h)).1)
  granted _ := granted
  landed _ := ⟨granted, idle⟩
  heralded h := absurd h idle

theorem Orderly.install (order : Orderly s) {arrival : Arrival}
    {sequence : List (HookTarget × Callback)} (ready : s.jobs = .install arrival ::ₘ others)
    (perm : sequence.Perm (arrival.waiting s.setup.engine.hooks)) :
    Follows s { s with
      setup := (s.setup.hooking (Hooking.retryAll s.setup.engine.code sequence)).2
      jobs := {.notify (s.setup.hooking (Hooking.retryAll s.setup.engine.code sequence)).1} +
        others } := by
  have exclusive : s.setup.held.Exclusive := fun t waits =>
    Bool.eq_false_iff.mpr fun hooked => (order.balanced t).apart hooked waits
  have retried := retried_of_perm order.anchored exclusive s.setup.engine.code perm
  have tried : ∀ t, t ∈ sequence.map (·.1) ↔ arrival.covers t ∧ s.Waits t :=
    fun t => (perm.map (·.1)).mem_iff.trans mem_waiting
  have backdrop : s.setup.Backdrop
      (s.setup.hooking (Hooking.retryAll s.setup.engine.code sequence)).2 :=
    Setup.retried_backdrop retried
  refine order.advance ready retried.anchored order.ordered (order.connected.of_backdrop backdrop)
    (fun u known => backdrop.allUnits ▸ known) (fun t => (backdrop.grants_iff t).mpr)
    (admissible_of_forall_eq _ (fun _ => Multiset.mem_singleton.mp) nofun nofun) order.sensible
    fun t => ?_
  by_cases landed : t ∈ (s.setup.held.retryAll s.setup.engine.code sequence).1
  · have waited := retried.waited t landed
    obtain ⟨hooked, idle⟩ := retried.installed t landed
    exact (order.balanced t).takeOff ((tried t).mp waited).2 hooked (Bool.eq_false_iff.mp idle)
      Iff.rfl Iff.rfl id
      ⟨_, Multiset.mem_add.mpr (Or.inl (Multiset.mem_singleton_self _)), landed⟩
      ((backdrop.grants_iff t).mpr ((retried.granted t waited).mp landed))
  · have same := retried.apart t landed
    refine (order.balanced t).of_undisturbed (.of_same same.isInstalled same.isPending rfl rfl rfl
      ?_ (backdrop.grants_iff t).mpr fun waits granted heralded => ?_)
    · exact inFlight_next ready id fun other member tells => by
        rw [Multiset.mem_singleton.mp member] at tells
        exact landed tells
    · -- it is not this arrival that the hook waits for, or it would have been installed
      have before := (backdrop.grants_iff t).mp granted
      exact heralded_next ready (fun covers => absurd
        ((retried.granted t ((tried t).mpr ⟨covers, waits⟩)).mpr before) landed) (heralded before)

theorem Orderly.notified (order : Orderly s) (ready : s.jobs = .notify [] ::ₘ others) :
    Follows s { s with jobs := 0 + others } := by
  refine order.advance ready order.anchored order.ordered order.connected (fun _ => id)
    (fun _ => id) (admissible_zero _) order.sensible
    fun t => (order.balanced t).of_undisturbed ?_
  refine .of_same rfl rfl rfl rfl rfl ?_ id fun waits granted heralded => ?_
  · exact inFlight_next ready List.not_mem_nil (fun _ h => absurd h (Multiset.notMem_zero _))
  · exact heralded_next ready (fun heralds => False.elim heralds) (heralded granted)

end Traffic
end LiveProbe
