import LiveProbe.Proofs.Hook.Equipment
import LiveProbe.Proofs.Line.Posting

/-!
Hooks of lines that wait, and the end of hooks. What waits is tried line by line, and as no hook
changes what is to be expected of another line, it comes to the same as trying all at once.
-/
namespace LiveProbe.Hooking

open Function (update)

variable {s s' : Hooking} {b : Lineup} {l : SourceLine} {code : Option CodeRegistry}

theorem Meets.warn (meets : Meets b s) (w : Warning) : Meets b (s.warn w) :=
  { meets with anchored := { meets.anchored with } }

theorem Meets.addPending (meets : Meets b s) (l : SourceLine) (callback : Callback)
    (targeted : s.hooks.untargeted = false) :
    Meets (b.assign l (b.posted l) (some callback)) (s.addPending (.line l) callback) :=
  meets.assign (addPending_frame _ callback s) (addPending_anchored meets.anchored _ callback) rfl
    (meets.holds l) (Table.get?_insert_self l callback _) fun _ => targeted

theorem Meets.forget (meets : Meets b s) (l : SourceLine) :
    Meets (b.assign l (b.posted l) none) (s.forget (.line l)) :=
  meets.assign (forget_frame _ s) (forget_anchored meets.anchored _) rfl (meets.holds l)
    (Table.get?_erase_self l _) fun h => by cases h

theorem Meets.forget_method (meets : Meets b s) (m : MethodName) :
    Meets b (s.forget (.method m)) :=
  { meets with anchored := forget_anchored meets.anchored (.method m) }

theorem Meets.hookWhenDefined (meets : Meets b s) (code : Option CodeRegistry) (l : SourceLine)
    (callback : Callback) :
    ((s.hookWhenDefined code (.line l) callback).1 = .ok true ↔
        (s.prospect code l).isTraced = true) ∧
      Meets (b.hookWhenDefined (s.prospect code l) l callback)
        (s.hookWhenDefined code (.line l) callback).2 ∧
      (s.hookWhenDefined code (.line l) callback).2.wiring = s.wiring := by
  obtain ⟨answers, hooked, wiring⟩ := meets.hookLine code l callback
  unfold Hooking.hookWhenDefined
  rw [hook_line]
  rcases attempted : s.hookLine code l callback with ⟨answer, t⟩
  rw [attempted] at answers hooked wiring
  unfold Lineup.hook at hooked
  unfold Lineup.hookWhenDefined
  cases expected : s.prospect code l with
  | traced unit =>
    rw [expected] at answers hooked
    cases answers
    exact ⟨iff_of_true rfl rfl, hooked, wiring⟩
  | unknown =>
    rw [expected] at answers hooked
    obtain ⟨e, rfl, kind⟩ := answers
    have targeted : s.hooks.untargeted = false := by
      rcases prospect_cases code l s with ⟨unit, -, ⟨traced, -⟩ | ⟨astray, -⟩⟩ | ⟨_, -, targeted, -⟩
      · rw [expected] at traced
        cases traced
      · rw [expected] at astray
        cases astray
      · exact targeted
    rw [← show t.hooks.untargeted = s.hooks.untargeted from
      congrArg Wiring.untargeted wiring] at targeted
    cases e with
    | targetNotDefined detail =>
      have waits := hooked.addPending l callback targeted
      rw [Lineup.assign_assign] at waits
      refine ⟨by simp [Prospect.isTraced], ?_, wiring⟩
      simpa [Lineup.assign, Prospect.posting] using waits
    | _ => cases kind
  | astray =>
    rw [expected] at answers hooked
    obtain ⟨e, rfl, kind⟩ := answers
    cases e with
    | targetNotDefined detail => cases kind
    | _ => exact ⟨by simp [Prospect.isTraced], hooked, wiring⟩
  | disallowed =>
    rw [expected] at answers hooked
    obtain ⟨e, rfl, kind⟩ := answers
    cases e with
    | targetNotDefined detail => cases kind
    | _ => exact ⟨by simp [Prospect.isTraced], hooked, wiring⟩

theorem Meets.retry (meets : Meets b s) (code : Option CodeRegistry) (l : SourceLine)
    (callback : Callback) :
    Meets (b.assign l ((s.prospect code l).posting callback (b.posted l))
        (if (s.prospect code l).isTraced then none else b.waiting l))
        (s.retry code (.line l) callback).2 ∧
      (s.retry code (.line l) callback).2.wiring = s.wiring := by
  obtain ⟨answers, hooked, wiring⟩ := meets.hookLine code l callback
  unfold Hooking.retry
  rw [hook_line]
  rcases attempted : s.hookLine code l callback with ⟨answer, t⟩
  rw [attempted] at answers hooked wiring
  unfold Lineup.hook at hooked
  cases expected : s.prospect code l with
  | traced unit =>
    rw [expected] at answers hooked
    cases answers
    have forgotten := hooked.forget l
    have set : (b.assign l (some ⟨callback, unit⟩) (b.waiting l)).posted l =
        some ⟨callback, unit⟩ := Function.update_self ..
    rw [Lineup.assign_assign, Prospect.posting, set] at forgotten
    exact ⟨forgotten, wiring⟩
  | unknown | astray | disallowed =>
    rw [expected] at answers hooked
    obtain ⟨e, rfl, -⟩ := answers
    cases e with
    | targetNotDefined detail => exact ⟨hooked, wiring⟩
    | _ => exact ⟨hooked.warn _, wiring⟩

theorem Meets.retryAll (code : Option CodeRegistry) (entries : List (SourceLine × Callback)) :
    ∀ {b : Lineup} {s : Hooking}, Meets b s → (Table.keys entries).Nodup →
      (∀ e ∈ entries, b.waiting e.1 = some e.2) →
      let r := s.retryAll code (entries.map fun e => (.line e.1, e.2))
      Meets (b.tryWaiting (fun l => s.prospect code l) fun l => (Table.keys entries).contains l)
        r.2 ∧ r.2.wiring = s.wiring := by
  induction entries with
  | nil =>
    intro b s meets _ _
    refine ⟨?_, rfl⟩
    have idle := Lineup.tryWaiting_none (fun l => s.prospect code l) b
    exact idle.symm ▸ meets
  | cons e rest ih =>
    intro b s meets nodup waits
    obtain ⟨l, callback⟩ := e
    obtain ⟨fresh, nodupRest⟩ := List.nodup_cons.mp nodup
    obtain ⟨waitsFirst, waitsRest⟩ := List.forall_mem_cons.mp waits
    have others : l ∉ Table.keys rest := fresh
    obtain ⟨tried, wiring⟩ := meets.retry code l callback
    obtain ⟨all, wiring'⟩ := ih tried nodupRest fun e member => by
      have other : e.1 ≠ l := fun same => others (same ▸ List.mem_map.mpr ⟨e, member, rfl⟩)
      simpa [Lineup.assign, other] using waitsRest e member
    have prospects : ∀ l, _ = s.prospect code l := fun l => prospect_congr wiring
    rw [funext prospects,
      Lineup.tryWaiting_cons (show b.waiting l = some callback from waitsFirst) others] at all
    rw [List.map_cons, retryAll_cons]
    exact ⟨all, wiring'.trans wiring⟩

theorem Meets.installPendingLines (meets : Meets b s) (code : Option CodeRegistry)
    (path : String) :
    Meets (b.attend (fun l => s.prospect code l) path) (s.installPendingLines code path).2 ∧
      (s.installPendingLines code path).2.wiring = s.wiring := by
  unfold Hooking.installPendingLines Lineup.attend
  rw [← meets.closed]
  split
  · exact ⟨meets, rfl⟩
  · let entries := s.hooks.pendingLines.filter fun e => e.1.file == Text.basename path
    have nodup : (Table.keys entries).Nodup :=
      Table.nodup_keys_filter meets.anchored.pendingLineKeys _
    have waits : ∀ e ∈ entries, b.waiting e.1 = some e.2 := by
      intro e member
      rw [← meets.waiting]
      exact Table.get?_of_mem meets.anchored.pendingLineKeys (List.mem_filter.mp member).1
    have same : ∀ l, (b.waiting l).isSome = true →
        (l.file == Text.basename path) = (Table.keys entries).contains l := by
      intro l waiting
      obtain ⟨callback, found⟩ := Option.isSome_iff_exists.mp waiting
      rw [← meets.waiting] at found
      have listed := Table.mem_of_get? found
      rw [Bool.eq_iff_iff, List.contains_iff_mem]
      constructor
      · intro own
        exact List.mem_map.mpr ⟨(l, callback), List.mem_filter.mpr ⟨listed, own⟩, rfl⟩
      · intro member
        obtain ⟨e, kept, rfl⟩ := List.mem_map.mp member
        exact (List.mem_filter.mp kept).2
    rw [Lineup.tryWaiting_congr same]
    exact Meets.retryAll code entries meets nodup waits

/-! The end of hooks. -/

theorem dropLine_of_willing (willing : ∀ c t, s.host.refuses c t = none)
    (e : SourceLine × LineHandle) : s.dropLine e = { s with host := s.host.removeTrace e.2 } := by
  unfold dropLine Host.removeLine
  rw [willing]

theorem foldl_dropLine_of_willing (entries : List (SourceLine × LineHandle)) :
    ∀ {s : Hooking}, (∀ c t, s.host.refuses c t = none) →
      entries.foldl dropLine s = { s with host := { s.host with
        traces := s.host.traces.filter fun t => entries.all fun e => t.id ≠ e.2.id } } := by
  induction entries with
  | nil =>
    intro s _
    simp
  | cons e rest ih =>
    intro s willing
    have later := ih (s := { s with host := s.host.removeTrace e.2 }) willing
    rw [List.foldl_cons, dropLine_of_willing willing, later]
    simp [Host.removeTrace, List.filter_filter, Bool.and_comm]

theorem Anchored.traces_dropped (anchored : s.Anchored) :
    s.host.traces.filter (fun t => s.hooks.lines.all fun e => t.id ≠ e.2.id) = [] := by
  rw [List.filter_eq_nil_iff]
  intro t member
  have entry : (t.only, t.id) ∈ s.hooks.lines.map fun e => (some e.1, e.2.id) :=
    anchored.traced ▸ List.mem_map.mpr ⟨t, member, rfl⟩
  obtain ⟨e, listed, pair⟩ := List.mem_map.mp entry
  have own : e.2.id = t.id := (Prod.mk.inj pair).2
  simp only [List.all_eq_true, decide_eq_true_eq]
  exact fun apart => apart e listed own.symm

theorem Meets.clearHooks_eq (meets : Meets b s) : s.clearHooks = { s with
    host := { s.host with traces := [] }
    hooks := { s.hooks with
      slots := s.hooks.slots.map fun e => (e.1, 0), methods := [], lines := [] } } := by
  have dropped := foldl_dropLine_of_willing s.hooks.lines (s := { s with hooks := { s.hooks with
    slots := s.hooks.slots.map fun e => (e.1, 0), methods := [], lines := [] } }) meets.willing
  dsimp only at dropped
  rw [meets.anchored.traces_dropped] at dropped
  unfold Hooking.clearHooks
  rw [meets.methods]
  exact dropped

theorem Meets.clearHooks (meets : Meets b s) :
    Meets { b with posted := fun _ => none } s.clearHooks := by
  rw [meets.clearHooks_eq]
  exact { meets with
    anchored := ⟨fun m i found => (by cases found), rfl, List.nodup_nil, fun t h => (by cases h),
      List.nodup_nil, meets.anchored.pendingMethodKeys, meets.anchored.pendingLineKeys⟩
    methods := rfl
    holds := fun l => ⟨rfl, rfl⟩ }

theorem Meets.clearPending (meets : Meets b s) :
    Meets { b with waiting := fun _ => none } s.clearPending :=
  { meets with
    anchored := ⟨meets.anchored.home, meets.anchored.traced, meets.anchored.distinct,
      meets.anchored.bounded, meets.anchored.lineKeys, List.nodup_nil, List.nodup_nil⟩
    waiting := fun l => rfl
    targeted := fun l h => by cases h }

theorem Meets.stopFollowing (meets : Meets b s) :
    Meets { b with closed := true } s.stopFollowing := by
  unfold Hooking.stopFollowing
  cases s.hooks.definitions <;>
    exact { meets with anchored := { meets.anchored with }, closed := rfl }

theorem Meets.close (meets : Meets b s) :
    Meets { closed := true } s.close ∧ s.close.hooks.manager = s.hooks.manager ∧
      s.close.host.compileObservers = s.host.compileObservers := by
  refine ⟨meets.stopFollowing.clearHooks.clearPending, ?_⟩
  unfold Hooking.close
  rw [meets.stopFollowing.clearHooks_eq]
  unfold Hooking.stopFollowing
  cases s.hooks.definitions <;> exact ⟨rfl, rfl⟩

end LiveProbe.Hooking
