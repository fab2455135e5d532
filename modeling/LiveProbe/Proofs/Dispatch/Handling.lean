import LiveProbe.Proofs.Dispatch.Seating

/-!
What the operations of a manager come to at its desk, on a host that refuses nothing.
-/
namespace LiveProbe

theorem Host.removeMethod_of_willing {h : Host} (willing : ∀ c t, h.refuses c t = none)
    (handle : MethodHandle) : h.removeMethod handle = (.ok (), h.restoreMethod handle) := by
  unfold Host.removeMethod
  rw [willing]

namespace Hooking

variable {s : Hooking} {d : Desk} {m : MethodName} {callback : Callback}

/-! A hook is taken back, or set in place of the former one. -/

theorem prepareMethod_shuffle (mirrors : Mirrors d s.host s.hooks)
    (willing : ∀ c t, s.host.refuses c t = none) (m : MethodName) (last : Nat) :
    Shuffle s.hooks.manager last last s.host (s.prepareMethod m).host := by
  cases hooked : Table.get? m s.hooks.methods with
  | none =>
    rw [(prepareMethod_of_free hooked).1]
    exact Shuffle.refl _ last s.host
  | some e =>
    obtain ⟨saved, held, -, fits⟩ := mirrors.held hooked
    rw [(prepareMethod_of_hooked hooked).1, Host.removeMethod_of_willing willing, held]
    exact restoreMethod_shuffle s.host m s.hooks.manager _ last saved fits

theorem prepareMethod_mirrors (mirrors : Mirrors d s.host s.hooks) (m : MethodName) :
    Mirrors (d.clear m) (s.prepareMethod m).host (s.prepareMethod m).hooks := by
  cases hooked : Table.get? m s.hooks.methods with
  | none =>
    obtain ⟨host, rest, slots⟩ := prepareMethod_of_free hooked
    have empty := (mirrors.free hooked).2
    refine mirrors.clear ?_ ?_ (fun other => ?_) ?_ ?_
    · rw [rest]
    · rw [rest, Table.erase_of_absent hooked]
    · rw [slots]
      split
      · rename_i own
        rw [own, empty]
      · rfl
    · rw [rest]
    · rw [host]
      exact Host.BodyFrame.refl m s.host
  | some e =>
    obtain ⟨host, rest, slots⟩ := prepareMethod_of_hooked hooked
    obtain ⟨saved, held, -, -⟩ := mirrors.held hooked
    have frame := Host.BodyFrame.removeMethod s.host e.handle
    rw [← host, held] at frame
    refine mirrors.clear ?_ ?_ slots ?_ frame
    · rw [rest]
    · rw [rest]
    · rw [rest]

theorem prepareMethod_numbers (s : Hooking) (m : MethodName) :
    (s.releaseMethod m).hooks.lastInstallation = s.hooks.lastInstallation ∧
      (s.prepareMethod m).hooks.lastInstallation = s.hooks.lastInstallation + 1 ∧
      (s.prepareMethod m).hooks.manager = s.hooks.manager := by
  cases hooked : Table.get? m s.hooks.methods with
  | none =>
    rw [releaseMethod_of_free hooked, (prepareMethod_of_free hooked).2.1]
    exact ⟨rfl, rfl, rfl⟩
  | some e =>
    rw [(releaseMethod_of_hooked hooked).2.1, (prepareMethod_of_hooked hooked).2.1]
    exact ⟨rfl, rfl, rfl⟩

theorem hookMethod_of_defined (mirrors : Mirrors d s.host s.hooks)
    (willing : ∀ c t, s.host.refuses c t = none) (defined : (s.host.body? m).isSome = true)
    (callback : Callback) :
    (s.hookMethod m callback).1 = .ok () ∧
      Move (d.seat m callback) s (s.hookMethod m callback).2 := by
  have shuffle := prepareMethod_shuffle mirrors willing m s.hooks.lastInstallation
  have before := prepareMethod_mirrors mirrors m
  obtain ⟨released, numbered, manager⟩ := prepareMethod_numbers s m
  rcases hookMethod_cases s m callback with ⟨e, reason, -⟩ | ⟨saved, -, found, done⟩
  · exfalso
    rcases reason with refused | ⟨undefined, -⟩
    · rw [shuffle.refuses, willing] at refused
      cases refused
    · rw [← shuffle.defined, undefined] at defined
      cases defined
  · rw [released, ← numbered] at done
    rw [done]
    refine ⟨rfl, ?_, ?_, manager⟩
    · have seated := seat_shuffle found s.hooks.manager s.hooks.lastInstallation callback
      rw [← numbered, ← manager] at seated
      exact shuffle.trans (manager ▸ seated)
    · refine seat_mirrors saved before ?_ callback
      rw [numbered]
      exact Nat.succ_pos _

theorem hookMethod_of_undefined (mirrors : Mirrors d s.host s.hooks)
    (willing : ∀ c t, s.host.refuses c t = none) (undefined : s.host.body? m = none)
    (callback : Callback) :
    (∃ e, (s.hookMethod m callback).1 = .error e ∧ e.isTargetNotDefined = true) ∧
      Move d s (s.hookMethod m callback).2 := by
  have shuffle := prepareMethod_shuffle mirrors willing m s.hooks.lastInstallation
  have before := prepareMethod_mirrors mirrors m
  obtain ⟨-, numbered, manager⟩ := prepareMethod_numbers s m
  have undefined' : (s.prepareMethod m).host.body? m = none := by
    have same := shuffle.defined m
    rw [undefined] at same
    exact Option.isSome_eq_false_iff.mp same |> Option.isNone_iff_eq_none.mp
  rcases hookMethod_cases s m callback with ⟨e, reason, done⟩ | ⟨saved, -, found, -⟩
  · rw [done]
    refine ⟨⟨e, rfl, ?_⟩, ?_, ?_, manager⟩
    · rcases reason with refused | ⟨-, missing⟩
      · rw [shuffle.refuses, willing] at refused
        cases refused
      · exact missing
    · apply shuffle.trans
      rw [numbered]
      exact Shuffle.of_numbers _ (Nat.le_succ _) _
    · have absent : d.installed m = none := by
        have seated := mirrors.seated m
        cases ticket : d.installed m with
        | none => rfl
        | some t =>
          rw [ticket] at seated
          obtain ⟨-, -, -, known, -⟩ := seated
          rw [undefined] at known
          cases known
      rwa [Desk.clear_of_free absent] at before
  · rw [undefined'] at found
    cases found

theorem unhookMethod_move (mirrors : Mirrors d s.host s.hooks)
    (willing : ∀ c t, s.host.refuses c t = none) (m : MethodName) :
    Move (d.clear m) s (s.unhookMethod m).2 := by
  cases hooked : Table.get? m s.hooks.methods with
  | none =>
    have same : s.unhookMethod m = (.ok (), s) := by
      unfold unhookMethod
      rw [hooked]
    rw [same, Desk.clear_of_free (mirrors.free hooked).1]
    exact Move.refl mirrors
  | some e =>
    obtain ⟨saved, held, positive, fits⟩ := mirrors.held hooked
    rcases unhookMethod_cases hooked with ⟨error, refused, -⟩ | ⟨-, host, rest, slots⟩
    · rw [willing] at refused
      cases refused
    · have used : Table.get? m s.hooks.slots = some e.installation := by
        rw [held]
        unfold Hooks.slot at positive ⊢
        cases found : Table.get? m s.hooks.slots with
        | none =>
          rw [found] at positive
          exact absurd positive (Nat.lt_irrefl 0)
        | some i => rfl
      simp only [used, and_true] at slots
      have frame := Host.BodyFrame.restoreMethod s.host e.handle
      rw [← host, held] at frame
      constructor
      · rw [host, rest, held]
        exact restoreMethod_shuffle s.host m s.hooks.manager _ _ saved fits
      · refine mirrors.clear ?_ ?_ slots ?_ frame
        · rw [rest]
        · rw [rest]
        · rw [rest]
      · rw [rest]

theorem unhookLine_move (mirrors : Mirrors d s.host s.hooks) (l : SourceLine) :
    Move d s (s.unhookLine l).2 := by
  have traces : ∀ handle : LineHandle, Move d s
      { s with
        host := s.host.removeTrace handle
        hooks := { s.hooks with lines := Table.erase l s.hooks.lines } } := by
    intro handle
    exact ⟨Shuffle.of_traces _ _ s.host _, { mirrors with }, rfl⟩
  unfold unhookLine Host.removeLine
  split
  · exact Move.refl mirrors
  · split
    · rename_i refused
      split at refused
      · cases refused
        exact Move.refl mirrors
      · cases refused
    · rename_i removed
      split at removed
      · cases removed
      · cases removed
        exact traces _

/-! Hooks wait, and are tried when a type is defined. -/

theorem addPending_move (mirrors : Mirrors d s.host s.hooks) (m : MethodName)
    (callback : Callback) : Move (d.await m callback) s (s.addPending (.method m) callback) where
  shuffle := Shuffle.refl _ _ s.host
  mirrors :=
    { mirrors with
      waiting := fun other => by
        show Table.get? other (Table.insert m callback s.hooks.pendingMethods) = _
        rw [Table.get?_insert, mirrors.waiting]
        rfl
      waitingKeys := Table.nodup_keys_insert mirrors.waitingKeys }
  manager := rfl

theorem hookWhenDefined_move (mirrors : Mirrors d s.host s.hooks)
    (willing : ∀ c t, s.host.refuses c t = none) (code : Option CodeRegistry) (m : MethodName)
    (callback : Callback) :
    Move (if (s.host.body? m).isSome then d.seat m callback else d.await m callback) s
      (s.hookWhenDefined code (.method m) callback).2 := by
  have asked : s.hook code (.method m) callback = s.hookMethod m callback := rfl
  unfold hookWhenDefined
  rw [asked]
  cases body : s.host.body? m with
  | some b =>
    obtain ⟨ok, move⟩ := hookMethod_of_defined (m := m) mirrors willing (by rw [body]; rfl) callback
    rcases hooked : s.hookMethod m callback with ⟨answer, s'⟩
    rw [hooked] at ok move
    cases ok
    exact move
  | none =>
    obtain ⟨⟨e, failed, missing⟩, move⟩ := hookMethod_of_undefined mirrors willing body callback
    rcases hooked : s.hookMethod m callback with ⟨answer, s'⟩
    rw [hooked] at failed move
    cases failed
    cases e with
    | targetNotDefined detail => exact move.trans (addPending_move move.mirrors m callback)
    | _ => cases missing

theorem retry_move (mirrors : Mirrors d s.host s.hooks)
    (willing : ∀ c t, s.host.refuses c t = none) (code : Option CodeRegistry)
    (waits : d.waiting m = some callback) :
    Move (d.seatWaiting fun other => decide (other = m) && (s.host.body? other).isSome) s
      (s.retry code (.method m) callback).2 := by
  have asked : s.hook code (.method m) callback = s.hookMethod m callback := rfl
  unfold retry
  rw [asked]
  cases body : s.host.body? m with
  | some b =>
    obtain ⟨ok, move⟩ := hookMethod_of_defined (m := m) mirrors willing (by rw [body]; rfl) callback
    have seated : (d.seatWaiting fun other => decide (other = m) && (s.host.body? other).isSome) =
        { d.seat m callback with
          waiting := fun other => if other = m then none else d.waiting other } := by
      unfold Desk.seatWaiting Desk.seat
      congr 1 <;> funext other
      all_goals
        by_cases own : other = m
        · subst own
          simp [body, waits]
        · simp [own]
    rcases hooked : s.hookMethod m callback with ⟨answer, s'⟩
    rw [hooked] at ok move
    cases ok
    rw [seated]
    refine ⟨move.shuffle, ?_, move.manager⟩
    exact { move.mirrors with
      waiting := fun other => by
        show Table.get? other (Table.erase m s'.hooks.pendingMethods) = _
        rw [Table.get?_erase, move.mirrors.waiting]
        rfl
      waitingKeys := Table.nodup_keys_erase move.mirrors.waitingKeys m }
  | none =>
    obtain ⟨⟨e, failed, missing⟩, move⟩ := hookMethod_of_undefined mirrors willing body callback
    have seated :
        (d.seatWaiting fun other => decide (other = m) && (s.host.body? other).isSome) = d := by
      have nothing : (fun other => decide (other = m) && (s.host.body? other).isSome) =
          fun _ => false := by
        funext other
        by_cases own : other = m
        · rw [own, body]
          simp
        · simp [own]
      rw [nothing]
      rfl
    rcases hooked : s.hookMethod m callback with ⟨answer, s'⟩
    rw [hooked] at failed move
    cases failed
    rw [seated]
    cases e with
    | targetNotDefined detail => exact move
    | _ => cases missing

theorem retryAll_move (code : Option CodeRegistry) (entries : List (MethodName × Callback)) :
    ∀ {s : Hooking} {d : Desk}, Mirrors d s.host s.hooks → (∀ c t, s.host.refuses c t = none) →
      (Table.keys entries).Nodup → (∀ e ∈ entries, d.waiting e.1 = some e.2) →
      Move (d.seatWaiting fun m => decide (m ∈ Table.keys entries) && (s.host.body? m).isSome) s
        (s.retryAll code (entries.map fun e => (.method e.1, e.2))).2 := by
  induction entries with
  | nil =>
    intro s d mirrors _ _ _
    have nothing : (d.seatWaiting fun m => decide
        (m ∈ Table.keys ([] : List (MethodName × Callback))) && (s.host.body? m).isSome) = d := by
      simp [Table.keys, Desk.seatWaiting]
    rw [nothing]
    exact Move.refl mirrors
  | cons e rest ih =>
    intro s d mirrors willing nodup waits
    obtain ⟨fresh, nodupRest⟩ := List.nodup_cons.mp nodup
    obtain ⟨waitsFirst, waitsRest⟩ := List.forall_mem_cons.mp waits
    have first := retry_move mirrors willing code waitsFirst
    have later := ih first.mirrors (by rw [first.shuffle.refuses]; exact willing) nodupRest
      fun e' member => by
        have other : e'.1 ≠ e.1 := fun same => fresh (List.mem_map.mpr ⟨e', member, same⟩)
        simp only [Desk.seatWaiting, other, decide_false, Bool.false_and, Bool.false_eq_true,
          if_false]
        exact waitsRest e' member
    rw [List.map_cons, retryAll_cons]
    have both := first.trans later
    rw [Desk.seatWaiting_seatWaiting] at both
    have due : (fun m => (decide (m ∈ Table.keys rest) &&
          ((s.retry code (.method e.1) e.2).2.host.body? m).isSome) ||
        (decide (m = e.1) && (s.host.body? m).isSome)) =
        fun m => decide (m ∈ Table.keys (e :: rest)) && (s.host.body? m).isSome := by
      funext m
      have listed : m ∈ Table.keys (e :: rest) ↔ m ∈ Table.keys rest ∨ m = e.1 := by
        rw [Table.keys, List.map_cons, List.mem_cons, or_comm]
        rfl
      rw [first.shuffle.defined, decide_eq_decide.mpr listed, Bool.decide_or,
        Bool.and_or_distrib_right]
    rwa [due] at both

theorem installPendingMethods_move (mirrors : Mirrors d s.host s.hooks)
    (willing : ∀ c t, s.host.refuses c t = none) (code : Option CodeRegistry) (typeName : String) :
    Move (d.attend typeName fun m => (s.host.body? m).isSome) s
      (s.installPendingMethods code typeName).2 := by
  unfold installPendingMethods Desk.attend
  rw [mirrors.closed]
  split
  · exact Move.refl mirrors
  · let entries := s.hooks.pendingMethods.filter (·.1.typeName == typeName)
    have nodup : (Table.keys entries).Nodup := Table.nodup_keys_filter mirrors.waitingKeys _
    have waits : ∀ e ∈ entries, d.waiting e.1 = some e.2 := fun e member => by
      rw [← mirrors.waiting]
      exact Table.get?_of_mem mirrors.waitingKeys (List.mem_of_mem_filter member)
    have move := retryAll_move code entries mirrors willing nodup waits
    have due : (d.seatWaiting fun m => decide (m ∈ Table.keys entries) && (s.host.body? m).isSome) =
        d.seatWaiting fun m => m.typeName == typeName && (s.host.body? m).isSome := by
      apply Desk.seatWaiting_congr
      intro m waiting
      congr 1
      rw [← mirrors.waiting] at waiting
      obtain ⟨callback, found⟩ := Option.isSome_iff_exists.mp waiting
      by_cases own : m.typeName = typeName
      · have member : (m, callback) ∈ entries :=
          List.mem_filter.mpr ⟨Table.mem_of_get? found, by simpa using own⟩
        have listed : m ∈ Table.keys entries := List.mem_map_of_mem (f := (·.1)) member
        simp [listed, own]
      · have absent : m ∉ Table.keys entries := by
          intro listed
          obtain ⟨e, member, rfl⟩ := List.mem_map.mp listed
          exact own (by simpa using (List.mem_filter.mp member).2)
        simp [absent, own]
    rwa [due] at move

/-! All hooks are taken back. -/

def Removable (n : Nat) (h : Host) (e : MethodName × InstalledMethod) : Prop :=
  ∃ i saved, e.2.handle = ⟨e.1, some (.hook n i), saved⟩ ∧
    ∀ callback below, h.layer? e.1 n i = some (callback, below) → below = saved

theorem dropMethod_of_willing (willing : ∀ c t, s.host.refuses c t = none)
    (e : MethodName × InstalledMethod) :
    s.dropMethod e = { s with host := s.host.restoreMethod e.2.handle } := by
  unfold dropMethod
  rw [Host.removeMethod_of_willing willing]

theorem foldl_dropMethod_shuffle (n last : Nat) (entries : List (MethodName × InstalledMethod)) :
    ∀ {s : Hooking}, (∀ c t, s.host.refuses c t = none) → (Table.keys entries).Nodup →
      (∀ e ∈ entries, Removable n s.host e) →
      Shuffle n last last s.host (entries.foldl dropMethod s).host ∧
        (entries.foldl dropMethod s).hooks = s.hooks ∧
        (entries.foldl dropMethod s).host.definitionObservers = s.host.definitionObservers := by
  induction entries with
  | nil =>
    intro s _ _ _
    exact ⟨Shuffle.refl n last s.host, rfl, rfl⟩
  | cons e rest ih =>
    intro s willing nodup removable
    obtain ⟨fresh, nodupRest⟩ := List.nodup_cons.mp nodup
    obtain ⟨⟨i, saved, handle, fits⟩, removableRest⟩ := List.forall_mem_cons.mp removable
    have first := restoreMethod_shuffle s.host e.1 n i last saved fits
    rw [← handle] at first
    rw [List.foldl_cons, dropMethod_of_willing willing]
    obtain ⟨types, restored⟩ := Host.restoreMethod_eq s.host e.2.handle
    obtain ⟨later, hooks, observers⟩ :=
      ih (s := { s with host := s.host.restoreMethod e.2.handle })
        (by rw [first.refuses]; exact willing) nodupRest fun e' member => by
          obtain ⟨i', saved', handle', fits'⟩ := removableRest e' member
          have other : e'.1 ≠ e.2.handle.method := by
            rw [handle]
            exact fun same => fresh (List.mem_map.mpr ⟨e', member, same⟩)
          refine ⟨i', saved', handle', ?_⟩
          rw [Host.layer?, Host.body?_restoreMethod_of_ne s.host other, ← Host.layer?]
          exact fits'
    refine ⟨first.trans later, hooks, observers.trans ?_⟩
    rw [restored]

theorem foldl_dropLine_parts (entries : List (SourceLine × LineHandle)) :
    ∀ {s : Hooking}, ∃ traces warnings, entries.foldl dropLine s =
      { s with host := { s.host with traces }, warnings } := by
  induction entries with
  | nil => exact fun {s} => ⟨s.host.traces, s.warnings, rfl⟩
  | cons e rest ih =>
    intro s
    have first : ∃ traces warnings, s.dropLine e =
        { s with host := { s.host with traces }, warnings } := by
      unfold dropLine Host.removeLine
      split <;> rename_i removed <;> split at removed <;> cases removed
      all_goals exact ⟨_, _, rfl⟩
    obtain ⟨traces, warnings, dropped⟩ := first
    obtain ⟨traces', warnings', all⟩ := ih (s := s.dropLine e)
    refine ⟨traces', warnings', ?_⟩
    rw [List.foldl_cons, all, dropped]

theorem clearHooks_move (mirrors : Mirrors d s.host s.hooks)
    (willing : ∀ c t, s.host.refuses c t = none) : Move d.clearAll s s.clearHooks := by
  have removable : ∀ e ∈ s.hooks.methods, Removable s.hooks.manager s.host e := by
    intro e member
    obtain ⟨saved, held, -, fits⟩ :=
      mirrors.held (Table.get?_of_mem mirrors.methodKeys member)
    exact ⟨_, saved, by rw [held], fits⟩
  let emptied : Hooks := { s.hooks with
    slots := s.hooks.slots.map fun e => (e.1, 0), methods := [], lines := [] }
  obtain ⟨shuffle, hooks, observers⟩ := foldl_dropMethod_shuffle s.hooks.manager
    s.hooks.lastInstallation s.hooks.methods (s := { s with hooks := emptied }) willing
    mirrors.methodKeys removable
  obtain ⟨traces, warnings, all⟩ := foldl_dropLine_parts s.hooks.lines
    (s := s.hooks.methods.foldl dropMethod { s with hooks := emptied })
  have cleared : s.clearHooks = _ := all
  have silent : ∀ m, emptied.slot m = 0 := by
    intro m
    have zeros := Table.get?_map_values (fun _ : Nat => 0) m s.hooks.slots
    show (Table.get? m (s.hooks.slots.map fun e => (e.1, 0))).getD 0 = 0
    rw [zeros]
    cases Table.get? m s.hooks.slots <;> rfl
  rw [cleared]
  constructor
  · dsimp only
    rw [hooks]
    exact shuffle.trans (Shuffle.of_traces _ _ _ traces)
  · dsimp only
    rw [hooks]
    refine { mirrors with
      seated := fun m => ⟨rfl, silent m⟩, methodKeys := List.nodup_nil, observed := fun id => ?_ }
    rw [observers]
    exact mirrors.observed id
  · dsimp only
    rw [hooks]

theorem stopFollowing_move (mirrors : Mirrors d s.host s.hooks) (numbered : s.host.Numbered) :
    Move { d with subscribed := false, closed := true } s s.stopFollowing := by
  unfold stopFollowing
  cases following : s.hooks.definitions with
  | none =>
    have observed := mirrors.observed
    rw [following] at observed
    have stopped : Mirrors { d with subscribed := false, closed := true } s.host
        { s.hooks with closed := true, definitions := none } :=
      { mirrors with observed, subscribed := rfl, closed := rfl }
    exact ⟨Shuffle.refl _ _ s.host, stopped, rfl⟩
  | some id =>
    have own := (mirrors.observed id).mpr following
    refine ⟨?_, ?_, rfl⟩
    · refine Shuffle.of_bodies (Nat.le_refl _) rfl (fun _ => ⟨?_, ?_⟩) (fun n' id' other => ?_)
        fun _ => rfl
      · exact numbered.distinct.sublist (List.filter_sublist.map _)
      · exact fun e member => numbered.bounded e (List.mem_of_mem_filter member)
      · show (id', Observer.engine n') ∈ s.host.definitionObservers.filter _ ↔ _
        rw [List.mem_filter]
        apply and_iff_left_of_imp
        intro member
        rw [decide_eq_true_eq]
        intro same
        subst same
        cases numbered.eq_of_id member own
        exact other rfl
    · refine { mirrors with observed := fun id' => ?_, subscribed := rfl, closed := rfl }
      show (id', Observer.engine s.hooks.manager) ∈ s.host.definitionObservers.filter _ ↔
        none = some id'
      rw [List.mem_filter, mirrors.observed, following]
      constructor
      · intro ⟨same, kept⟩
        cases same
        simp at kept
      · intro none
        cases none

theorem close_move (mirrors : Mirrors d s.host s.hooks) (numbered : s.host.Numbered)
    (willing : ∀ c t, s.host.refuses c t = none) : Move .close s s.close := by
  have stopped := stopFollowing_move mirrors numbered
  have cleared := clearHooks_move stopped.mirrors (by rw [stopped.shuffle.refuses]; exact willing)
  have emptied : Move .close s.stopFollowing.clearHooks s.close := by
    have forgotten : Mirrors .close s.close.host s.close.hooks :=
      { cleared.mirrors with waiting := fun _ => rfl, waitingKeys := List.nodup_nil }
    exact ⟨Shuffle.refl _ _ _, forgotten, rfl⟩
  exact (stopped.trans cleared).trans emptied

theorem subscribe_move (mirrors : Mirrors d s.host s.hooks) (idle : s.hooks.definitions = none) :
    Move { d with subscribed := true } s { s with
      host := (s.host.subscribeDefinitions (.engine s.hooks.manager)).2
      hooks := { s.hooks with definitions := some (s.host.lastId + 1) } } := by
  refine ⟨?_, ?_, rfl⟩
  · refine Shuffle.of_bodies (Nat.le_refl _) rfl (fun numbered => ⟨?_, ?_⟩) (fun n' id other => ?_)
      fun _ => rfl
    · show ((s.host.definitionObservers ++
        [(s.host.lastId + 1, Observer.engine s.hooks.manager)]).map (·.1)).Nodup
      rw [List.map_append, List.nodup_append]
      refine ⟨numbered.distinct, List.nodup_singleton _, ?_⟩
      intro id listed id' new same
      obtain ⟨e, member, rfl⟩ := List.mem_map.mp listed
      have bound := numbered.bounded e member
      rw [List.map_singleton, List.mem_singleton] at new
      rw [new] at same
      have numbers : e.1 = s.host.lastId + 1 := same
      omega
    · intro e member
      rcases List.mem_append.mp member with old | new
      · exact Nat.le_succ_of_le (numbered.bounded e old)
      · rw [List.mem_singleton.mp new]
        exact Nat.le_refl _
    · show (id, Observer.engine n') ∈ s.host.definitionObservers ++ [_] ↔ _
      rw [List.mem_append, List.mem_singleton, Prod.mk.injEq, Observer.engine.injEq]
      exact or_iff_left fun own => other own.2
  · refine { mirrors with observed := fun id => ?_, subscribed := rfl }
    show (id, Observer.engine s.hooks.manager) ∈ s.host.definitionObservers ++ [_] ↔ _
    rw [List.mem_append, mirrors.observed, idle, List.mem_singleton]
    simp [eq_comm]

end Hooking
end LiveProbe
