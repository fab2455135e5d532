import LiveProbe.Engine.Component
import LiveProbe.Proofs.Hook.Heedless

/-!
What an engine does, and what it answers, does not depend on what has been told, delivered and
warned of before. Two engines that differ in nothing else, on equal hosts, go on like that, whatever
is asked of them, and tell the same from then on.
-/
namespace LiveProbe

/-- What two runs have told before, and which probes they may tell of differently since. -/
structure Contrast where
  apart : String → Bool
  left : List Occurrence
  right : List Occurrence

namespace Contrast

variable {c : Contrast} {j j' more more' : List Occurrence}

def shows (c : Contrast) : Occurrence → Bool
  | .notice n => !c.apart n.probeId
  | _ => true

/-- What has been told since is the same, but for some probes. -/
def Told (c : Contrast) (j j' : List Occurrence) : Prop :=
  ∃ new new', j = c.left ++ new ∧ j' = c.right ++ new' ∧
    new.filter c.shows = new'.filter c.shows

theorem told_refl (c : Contrast) : c.Told c.left c.right :=
  ⟨[], [], (List.append_nil c.left).symm, (List.append_nil c.right).symm, rfl⟩

theorem Told.append (told : c.Told j j') (same : more.filter c.shows = more'.filter c.shows) :
    c.Told (j ++ more) (j' ++ more') := by
  obtain ⟨new, new', rfl, rfl, alike⟩ := told
  refine ⟨new ++ more, new' ++ more', List.append_assoc .., List.append_assoc .., ?_⟩
  rw [List.filter_append, List.filter_append, alike, same]

end Contrast

def Engine.undelivered (e : Engine) : Engine := { e with delivery := none }

theorem Engine.part {β : Type} {e e' : Engine} (same : e.undelivered = e'.undelivered)
    (f : Engine → β) (blind : ∀ e : Engine, f e.undelivered = f e) : f e = f e' :=
  (blind e).symm.trans ((congrArg f same).trans (blind e'))

namespace Setup

variable {c : Contrast} {p : Bool} {s t : Setup} {α : Type}

/-- Two setups that differ at most in what has been told, delivered and warned of. -/
structure Spared (c : Contrast) (p : Bool) (s t : Setup) : Prop where
  host : s.host = t.host
  engine : s.engine.undelivered = t.engine.undelivered
  delivers : s.engine.delivery.isSome = t.engine.delivery.isSome
  told : c.Told s.journal t.journal
  propagate : s.engine.propagate = p

structure Yields (c : Contrast) (p : Bool) (x y : α × Setup) : Prop where
  answer : x.1 = y.1
  spared : Spared c p x.2 y.2

theorem Yields.map {β : Type} {x y : α × Setup} (both : Yields c p x y) (f : α → β) :
    Yields c p (f x.1, x.2) (f y.1, y.2) := ⟨congrArg f both.answer, both.spared⟩

namespace Spared

section Parts

variable (both : Spared c p s t)
include both

theorem part {β : Type} (f : Engine → β) (blind : ∀ e : Engine, f e.undelivered = f e) :
    f s.engine = f t.engine := Engine.part both.engine f blind

theorem hooks : s.engine.hooks = t.engine.hooks := both.part Engine.hooks fun _ => rfl

theorem number : s.engine.number = t.engine.number := both.part Engine.number fun _ => rfl

theorem code : s.engine.code = t.engine.code := both.part Engine.code fun _ => rfl

theorem probes : s.engine.probes = t.engine.probes := both.part Engine.probes fun _ => rfl

theorem reporter : s.engine.reporter = t.engine.reporter := both.part Engine.reporter fun _ => rfl

theorem observer : s.engine.observer = t.engine.observer := both.part Engine.observer fun _ => rfl

theorem propagate' : s.engine.propagate = t.engine.propagate :=
  both.part Engine.propagate fun _ => rfl

theorem withCode (code : Option CodeRegistry) :
    Spared c p { s with engine := { s.engine with code } }
      { t with engine := { t.engine with code } } :=
  { both with
    engine := both.part (fun e => Engine.undelivered { e with code }) fun _ => rfl }

theorem withProbes (probes : Probes) : Spared c p { s with engine := { s.engine with probes } }
    { t with engine := { t.engine with probes } } :=
  { both with
    engine := both.part (fun e => Engine.undelivered { e with probes }) fun _ => rfl }

theorem withHooks (host : Host) (hooks : Hooks) :
    Spared c p { s with host, engine := { s.engine with hooks } }
      { t with host, engine := { t.engine with hooks } } :=
  { both with
    host := rfl
    engine := both.part (fun e => Engine.undelivered { e with hooks }) fun _ => rfl }

theorem withHost (host : Host) : Spared c p { s with host } { t with host } :=
  { both with host := rfl }

end Parts

/-! What setups are made of. -/

theorem append (both : Spared c p s t) {more more' : List Occurrence}
    (same : more.filter c.shows = more'.filter c.shows) :
    Spared c p { s with journal := s.journal ++ more } { t with journal := t.journal ++ more' } :=
  { both with told := both.told.append same }

theorem note (both : Spared c p s t) (o : Occurrence) : Spared c p (s.note o) (t.note o) :=
  both.append rfl

theorem warn (both : Spared c p s t) (w w' : Warning) : Spared c p (s.warn w) (t.warn w') :=
  { both with }

theorem delivery (both : Spared c p s t)
    {f g : Option (Delivery StatusEnvelope SnapshotEnvelope) →
      Option (Delivery StatusEnvelope SnapshotEnvelope)}
    (keeps : ∀ d, (f d).isSome = d.isSome) (keeps' : ∀ d, (g d).isSome = d.isSome) :
    Spared c p { s with engine := { s.engine with delivery := f s.engine.delivery } }
      { t with engine := { t.engine with delivery := g t.engine.delivery } } :=
  { both with delivers := (keeps _).trans (both.delivers.trans (keeps' _).symm) }

theorem tell (both : Spared c p s t) (n : Notice) : Spared c p (s.tell n) (t.tell n) :=
  (both.delivery (fun _ => Option.isSome_map) fun _ => Option.isSome_map).note (.notice n)

theorem tellStatus (both : Spared c p s t) (q : Probe) (status : ProbeStatus) :
    Spared c p (s.tellStatus q status) (t.tellStatus q status) := by
  unfold Setup.tellStatus
  rw [both.reporter]
  exact both.tell _

theorem onProbes (both : Spared c p s t) (f : Probes → α × Probes) :
    Yields c p (s.onProbes f) (t.onProbes f) := by
  unfold Setup.onProbes
  rw [both.probes]
  exact ⟨rfl, both.withProbes (f t.engine.probes).2⟩

theorem setProbes (both : Spared c p s t) (f : Probes → Probes) :
    Spared c p (s.setProbes f) (t.setProbes f) := (both.onProbes fun ps => ((), f ps)).spared

theorem setCode (both : Spared c p s t) (f : CodeRegistry → CodeRegistry) :
    Spared c p (s.setCode f) (t.setCode f) := by
  unfold Setup.setCode
  rw [both.code]
  exact both.withCode _

theorem hooking (both : Spared c p s t) {f g : Hooking → α × Hooking}
    (alike : ∀ {k k'}, Hooking.Like k k' → Hooking.Alike (f k) (g k')) :
    Yields c p (s.hooking f) (t.hooking g) := by
  have like : Hooking.Like ⟨s.host, s.engine.hooks, s.warnings⟩
      ⟨t.host, t.engine.hooks, t.warnings⟩ := ⟨both.host, both.hooks⟩
  obtain ⟨answer, host, hooks⟩ := alike like
  have after := both.withHooks (g ⟨t.host, t.engine.hooks, t.warnings⟩).2.host
    (g ⟨t.host, t.engine.hooks, t.warnings⟩).2.hooks
  unfold Setup.hooking
  refine ⟨answer, { after with host, engine := ?_ }⟩
  dsimp only
  rw [hooks]
  exact after.engine

theorem onHooks (both : Spared c p s t) (f : Hooks → α × Hooks) :
    Yields c p (s.onHooks f) (t.onHooks f) := by
  refine both.hooking fun {k k'} like => ?_
  dsimp only
  rw [like.hooks]
  exact ⟨rfl, like.host, rfl⟩

/-! What follows the host. -/

theorem promote (both : Spared c p s t) (k : KnownProbe) : Spared c p (s.promote k) (t.promote k) :=
  (both.tellStatus k.probe .installed).setProbes (·.promote k)

theorem promoteAt (both : Spared c p s t) (target : HookTarget) :
    Spared c p (s.promoteAt target) (t.promoteAt target) := by
  unfold Setup.promoteAt
  rw [both.probes]
  exact List.foldl_rel both fun k _ _ _ both => both.promote k

theorem hookInstalled (both : Spared c p s t) (target : HookTarget) :
    Spared c p (s.hookInstalled target) (t.hookInstalled target) := by
  unfold Setup.hookInstalled
  rw [both.observer]
  cases t.engine.observer with
  | probes => exact both.promoteAt target
  | journal => exact both.note _
  | nobody => exact both

theorem typeDefined (both : Spared c p s t) (typeName : String) :
    Spared c p (s.typeDefined typeName) (t.typeDefined typeName) := by
  have tried : Yields c p (s.hooking (Hooking.installPendingMethods s.engine.code typeName))
      (t.hooking (Hooking.installPendingMethods t.engine.code typeName)) := by
    rw [both.code]
    exact both.hooking fun like => like.installPendingMethods t.engine.code typeName
  unfold Setup.typeDefined
  generalize s.hooking _ = x at tried ⊢
  generalize t.hooking _ = y at tried ⊢
  obtain ⟨targets, s'⟩ := x
  obtain ⟨targets', t'⟩ := y
  obtain ⟨rfl, both'⟩ := tried
  exact List.foldl_rel both' fun target _ _ _ both => both.hookInstalled target

theorem fileKnown (both : Spared c p s t) (path : String) :
    Spared c p (s.fileKnown path) (t.fileKnown path) := by
  have tried : Yields c p (s.hooking (Hooking.installPendingLines s.engine.code path))
      (t.hooking (Hooking.installPendingLines t.engine.code path)) := by
    rw [both.code]
    exact both.hooking fun like => like.installPendingLines t.engine.code path
  unfold Setup.fileKnown
  generalize s.hooking _ = x at tried ⊢
  generalize t.hooking _ = y at tried ⊢
  obtain ⟨targets, s'⟩ := x
  obtain ⟨targets', t'⟩ := y
  obtain ⟨rfl, both'⟩ := tried
  exact List.foldl_rel both' fun target _ _ _ both => both.hookInstalled target

theorem tellListener (both : Spared c p s t) (unit : CompiledUnit) (l : CodeListener) :
    Spared c p (s.tellListener unit l) (t.tellListener unit l) := by
  cases l with
  | hooks => exact both.fileKnown unit.path
  | watcher label => exact both.note _

theorem registerUnit (both : Spared c p s t) (path : String) (unit : CompiledUnit) :
    Yields c p (s.registerUnit path unit) (t.registerUnit path unit) := by
  unfold Setup.registerUnit
  rw [both.code]
  cases t.engine.code with
  | none => exact ⟨rfl, both⟩
  | some registry =>
    have entered := both.withCode (some (registry.register path unit).2)
    refine ⟨rfl, ?_⟩
    dsimp only
    split
    · exact List.foldl_rel entered fun l _ _ _ both => both.tellListener unit l
    · exact entered

theorem unitLoaded (both : Spared c p s t) (unit : CompiledUnit) :
    Spared c p (s.unitLoaded unit) (t.unitLoaded unit) := (both.registerUnit unit.path unit).spared

theorem track (both : Spared c p s t) : Spared c p s.track t.track := by
  unfold Setup.track
  rw [both.code]
  split
  · exact both
  · exact both
  · rw [both.host, both.number]
    have subscribed := (both.withHost
        (t.host.subscribeCompiles (.engine t.engine.number)).2).setCode fun r =>
      { r with subscription := some (t.host.subscribeCompiles (.engine t.engine.number)).1 }
    refine Spared.setCode ?_ _
    exact List.foldl_rel subscribed fun unit _ _ _ both => both.unitLoaded unit

theorem untrack (both : Spared c p s t) : Spared c p s.untrack t.untrack := by
  unfold Setup.untrack
  rw [both.code]
  split
  · rw [both.host]
    exact (both.withHost _).setCode _
  · exact both

theorem subscribe (both : Spared c p s t) : Spared c p s.subscribe t.subscribe := by
  unfold Setup.subscribe
  refine Spared.setCode ?_ _
  rw [both.hooks]
  split
  · exact both
  · rw [both.host, both.number]
    exact both.withHooks _ _

/-! Probes come and go. -/

theorem enter (both : Spared c p s t) (installed : Bool) (k : KnownProbe) :
    Spared c p (s.enter installed k) (t.enter installed k) := by
  unfold Setup.enter
  split
  · exact (both.setProbes _).tellStatus _ _
  · exact both.setProbes _

theorem requestHook (both : Spared c p s t) (target : HookTarget) :
    Yields c p (s.requestHook target) (t.requestHook target) := by
  unfold Setup.requestHook
  rw [both.code, both.number, both.probes]
  exact both.hooking fun like => like.hookWhenDefined _ target _

theorem enterFirst (both : Spared c p s t) (target : HookTarget) (q : Probe) (installed : Bool) :
    Spared c p (s.enterFirst target q installed) (t.enterFirst target q installed) := by
  have found := both.onProbes (Probes.found target q)
  unfold Setup.enterFirst
  generalize s.onProbes (Probes.found target q) = x at found ⊢
  generalize t.onProbes (Probes.found target q) = y at found ⊢
  obtain ⟨k, s'⟩ := x
  obtain ⟨k', t'⟩ := y
  obtain ⟨rfl, both'⟩ := found
  exact Spared.enter both' installed k

theorem enterGroup (both : Spared c p s t) (group : Nat) (q : Probe) :
    Spared c p (s.enterGroup group q) (t.enterGroup group q) := by
  have joined := both.onProbes (Probes.join group q)
  unfold Setup.enterGroup
  rw [both.probes]
  generalize s.onProbes (Probes.join group q) = x at joined ⊢
  generalize t.onProbes (Probes.join group q) = y at joined ⊢
  obtain ⟨k, s'⟩ := x
  obtain ⟨k', t'⟩ := y
  obtain ⟨rfl, both'⟩ := joined
  exact Spared.enter both' _ k

theorem addProbe (both : Spared c p s t) (q : Probe) :
    Yields c p (s.addProbe q) (t.addProbe q) := by
  unfold Setup.addProbe
  rw [both.probes]
  rcases t.engine.probes.admission q with e | _ | group | target
  · exact ⟨rfl, both⟩
  · exact ⟨rfl, both⟩
  · exact ⟨rfl, both.enterGroup group q⟩
  · have asked := both.requestHook target
    dsimp only
    generalize s.requestHook target = x at asked ⊢
    generalize t.requestHook target = y at asked ⊢
    obtain ⟨answer, s'⟩ := x
    obtain ⟨answer', t'⟩ := y
    obtain ⟨rfl, both'⟩ := asked
    cases answer with
    | error e => exact ⟨rfl, both'⟩
    | ok installed => exact ⟨rfl, Spared.enterFirst both' target q installed⟩

theorem removePending (both : Spared c p s t) (e : String × KnownProbe) :
    Spared c p (s.removePending e) (t.removePending e) := by
  have dropped := both.setProbes (·.dropPending e.1)
  unfold Setup.removePending
  rcases e.2.probe.target with error | _ | target
  · exact dropped
  · exact dropped
  · have left := dropped.onProbes (Probes.leave target e.1)
    dsimp only
    generalize (s.setProbes (·.dropPending e.1)).onProbes (Probes.leave target e.1) = x at left ⊢
    generalize (t.setProbes (·.dropPending e.1)).onProbes (Probes.leave target e.1) = y at left ⊢
    obtain ⟨empty, s'⟩ := x
    obtain ⟨empty', t'⟩ := y
    obtain ⟨rfl, both'⟩ := left
    cases empty with
    | true => exact (Spared.onHooks both' (·.clearPending target)).spared
    | false => exact both'

theorem removeInstalled (both : Spared c p s t) (id : String) (k : KnownProbe) :
    Yields c p (s.removeInstalled id k) (t.removeInstalled id k) := by
  unfold Setup.removeInstalled
  rcases k.probe.target with error | _ | target
  · exact ⟨rfl, both.setProbes _⟩
  · exact ⟨rfl, both.setProbes _⟩
  · have unhooked : Yields c p
        (if s.engine.probes.sharesHook target id then (.ok (), s)
          else s.hooking (Hooking.unhook target))
        (if t.engine.probes.sharesHook target id then (.ok (), t)
          else t.hooking (Hooking.unhook target)) := by
      rw [both.probes]
      split
      · exact ⟨rfl, both⟩
      · exact both.hooking fun like => like.unhook target
    dsimp only
    generalize (if s.engine.probes.sharesHook target id = true then _ else _) = x at unhooked ⊢
    generalize (if t.engine.probes.sharesHook target id = true then _ else _) = y at unhooked ⊢
    obtain ⟨answer, s'⟩ := x
    obtain ⟨answer', t'⟩ := y
    obtain ⟨rfl, both'⟩ := unhooked
    cases answer with
    | error e => exact ⟨rfl, Spared.warn both' _ _⟩
    | ok _ => exact ⟨rfl, (Spared.onProbes both' (Probes.leave target id)).spared.setProbes _⟩

theorem removeAllInstalled (entries : List (String × KnownProbe)) :
    ∀ {s t : Setup}, Spared c p s t →
      Yields c p (s.removeAllInstalled entries) (t.removeAllInstalled entries) := by
  induction entries with
  | nil => exact fun both => ⟨rfl, both⟩
  | cons e rest ih =>
    intro s t both
    have first := both.removeInstalled e.1 e.2
    unfold Setup.removeAllInstalled
    generalize s.removeInstalled e.1 e.2 = x at first ⊢
    generalize t.removeInstalled e.1 e.2 = y at first ⊢
    obtain ⟨answer, s'⟩ := x
    obtain ⟨answer', t'⟩ := y
    obtain ⟨rfl, both'⟩ := first
    have later := ih both'
    refine ⟨?_, later.spared⟩
    dsimp only
    rw [later.answer]

theorem keepProbes (both : Spared c p s t) (named : List String) :
    Yields c p (s.keepProbes named) (t.keepProbes named) := by
  have kept : Spared c p ((Probes.others named s.engine.probes.pending).foldl Setup.removePending s)
      ((Probes.others named t.engine.probes.pending).foldl Setup.removePending t) := by
    rw [both.probes]
    exact List.foldl_rel both fun e _ _ _ both => both.removePending e
  unfold Setup.keepProbes
  generalize (Probes.others named s.engine.probes.pending).foldl Setup.removePending s = s'
    at kept ⊢
  generalize (Probes.others named t.engine.probes.pending).foldl Setup.removePending t = t'
    at kept ⊢
  have removed := Spared.removeAllInstalled (Probes.others named t'.engine.probes.installed) kept
  dsimp only
  rw [kept.probes]
  refine ⟨?_, removed.spared⟩
  dsimp only
  rw [removed.answer, removed.spared.propagate']

theorem closeProbes (both : Spared c p s t) : Spared c p s.closeProbes t.closeProbes := by
  have closed : Yields c p (s.hooking fun k => ((), k.close)) (t.hooking fun k => ((), k.close)) :=
    both.hooking fun like => ⟨rfl, like.close⟩
  exact Spared.setProbes closed.spared _

/-! Configurations. -/

theorem applyDocument (both : Spared c p s t) (document : Json) :
    Yields c p (s.applyDocument document) (t.applyDocument document) := by
  unfold Setup.applyDocument
  cases Probe.ofDocument document with
  | error e => exact ⟨rfl, both⟩
  | ok q => exact (both.tellStatus q .received).addProbe q

theorem applyAll (documents : List Json) :
    ∀ {s t : Setup}, Spared c p s t → Yields c p (s.applyAll documents) (t.applyAll documents) := by
  induction documents with
  | nil => exact fun both => ⟨rfl, both⟩
  | cons document rest ih =>
    intro s t both
    have applied := both.applyDocument document
    unfold Setup.applyAll
    generalize s.applyDocument document = x at applied ⊢
    generalize t.applyDocument document = y at applied ⊢
    obtain ⟨answer, s'⟩ := x
    obtain ⟨answer', t'⟩ := y
    obtain ⟨rfl, both'⟩ := applied
    cases answer with
    | ok _ =>
      have later := ih both'
      exact ⟨congrArg (Except.map _) later.answer, later.spared⟩
    | error e =>
      have warned := Spared.warn both' (.documentRefused e) (.documentRefused e)
      have later := ih warned
      dsimp only at warned later ⊢
      rw [warned.propagate']
      split
      · exact ⟨rfl, warned⟩
      · exact ⟨congrArg (Except.map _) later.answer, later.spared⟩

theorem process (both : Spared c p s t) (documents : List Json) :
    Yields c p (s.process documents) (t.process documents) := by
  have applied := Spared.applyAll documents both
  unfold Setup.process
  generalize s.applyAll documents = x at applied ⊢
  generalize t.applyAll documents = y at applied ⊢
  obtain ⟨answer, s'⟩ := x
  obtain ⟨answer', t'⟩ := y
  obtain ⟨rfl, both'⟩ := applied
  cases answer with
  | error e => exact ⟨rfl, both'⟩
  | ok statuses =>
    have kept := Spared.keepProbes both' (documentIds documents)
    dsimp only at kept ⊢
    generalize s'.keepProbes (documentIds documents) = x at kept ⊢
    generalize t'.keepProbes (documentIds documents) = y at kept ⊢
    obtain ⟨removed, s''⟩ := x
    obtain ⟨removed', t''⟩ := y
    obtain ⟨rfl, both''⟩ := kept
    cases removed with
    | ok _ => exact ⟨rfl, both''⟩
    | error e =>
      have warned := Spared.warn both'' (.staleProbesStay e) (.staleProbesStay e)
      refine ⟨?_, warned⟩
      show (if (s''.warn (.staleProbesStay e)).engine.propagate then _ else _) = _
      rw [warned.propagate']

theorem settleDelivery (both : Spared c p s t) :
    Spared c p s.settleDelivery t.settleDelivery :=
  both.delivery (fun _ => Option.isSome_map) fun _ => Option.isSome_map

theorem stopDelivery (both : Spared c p s t) : Spared c p s.stopDelivery t.stopDelivery := by
  have delivers := both.delivers
  unfold Setup.stopDelivery
  cases left : s.engine.delivery with
  | none =>
    cases right : t.engine.delivery with
    | none => exact both
    | some d => simp [left, right] at delivers
  | some d =>
    cases right : t.engine.delivery with
    | none => simp [left, right] at delivers
    | some d' => exact { both with delivers := rfl }

theorem shutdown (both : Spared c p s t) : Spared c p s.shutdown t.shutdown :=
  both.closeProbes.untrack.stopDelivery

end Spared
end Setup
end LiveProbe
