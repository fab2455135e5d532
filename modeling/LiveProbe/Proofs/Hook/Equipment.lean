import LiveProbe.Proofs.Hook.Waiting

/-!
How a method stands with its hook, on a host whose programs are hooked by one manager alone. Without
a hook the method is the program that it was defined as. Its hook is laid on that program, and is
the body of the method until the method is defined anew; from then on the method is the new program,
and the manager, which is not told of it, goes on keeping the hook, which is stale. What is called
at a line acts for probes alone.
-/
namespace LiveProbe.Hooking

variable {fine : Code → Prop} {stale : Prop} {s s' : Hooking} {m : MethodName}
  {group : Option Nat} {g : Nat}

theorem hook_method (s : Hooking) (code : Option CodeRegistry) (m : MethodName)
    (callback : Callback) : s.hook code (.method m) callback = s.hookMethod m callback := rfl

theorem hook_line (s : Hooking) (code : Option CodeRegistry) (l : SourceLine)
    (callback : Callback) : s.hook code (.line l) callback = s.hookLine code l callback := rfl

/-- How a method, which is a fine program, stands with its hook, which acts for the group at the
method and may be stale. -/
structure Equipped (fine : Code → Prop) (stale : Prop) (s : Hooking) (m : MethodName)
    (group : Option Nat) : Prop where
  free : Table.get? m s.hooks.methods = none → ∀ body, s.host.body? m = some body →
    ∃ code, fine code ∧ body = .program code
  hooked : ∀ e, Table.get? m s.hooks.methods = some e → ∃ i code, 0 < i ∧ s.hooks.slot m = i ∧
    e = ⟨i, ⟨m, some (.hook s.hooks.manager i), .program code⟩⟩ ∧
    ((stale ∧ ∃ anew, fine anew ∧ s.host.body? m = some (.program anew)) ∨
      fine code ∧ ∃ g, group = some g ∧ s.host.body? m =
        some (.hooked s.hooks.manager m i (.probes s.hooks.manager g) (.program code)))
  waiting : ∀ callback, Table.get? m s.hooks.pendingMethods = some callback →
    ∃ g, group = some g ∧ callback = .probes s.hooks.manager g

namespace Equipped

theorem of_same (equipped : s.Equipped fine stale m group)
    (manager : s'.hooks.manager = s.hooks.manager) (same : Same (.method m) s s') :
    s'.Equipped fine stale m group := by
  obtain ⟨methods, pendingMethods, slot, body⟩ := same
  constructor
  case free =>
    rw [methods, body]
    exact equipped.free
  case hooked =>
    rw [methods, body, slot, manager]
    exact equipped.hooked
  case waiting =>
    rw [pendingMethods, manager]
    exact equipped.waiting

theorem bare (free : Table.get? m s.hooks.methods = none)
    (idle : Table.get? m s.hooks.pendingMethods = none)
    (plain : ∀ body, s.host.body? m = some body → ∃ code, fine code ∧ body = .program code)
    (group : Option Nat) : s.Equipped fine stale m group where
  free _ := plain
  hooked e found := by
    rw [free] at found
    cases found
  waiting callback found := by
    rw [idle] at found
    cases found

theorem body_cases (equipped : s.Equipped fine stale m group) {body : Body}
    (found : s.host.body? m = some body) : ∃ code, fine code ∧
      (body = .program code ∨ ∃ i g, 0 < i ∧ s.hooks.isInstalled (.method m) = true ∧
        group = some g ∧
        body = .hooked s.hooks.manager m i (.probes s.hooks.manager g) (.program code)) := by
  cases hooked : Table.get? m s.hooks.methods with
  | none =>
    obtain ⟨code, accepted, rfl⟩ := equipped.free hooked body found
    exact ⟨code, accepted, Or.inl rfl⟩
  | some e =>
    obtain ⟨i, code, positive, -, -, stands⟩ := equipped.hooked e hooked
    rcases stands with ⟨-, anew, accepted, defined⟩ | ⟨accepted, g, own, laid⟩
    · exact ⟨anew, accepted, Or.inl (Option.some.inj (found.symm.trans defined))⟩
    · exact ⟨code, accepted, Or.inr ⟨i, g, positive, Table.contains_iff.mpr ⟨e, hooked⟩, own,
        Option.some.inj (found.symm.trans laid)⟩⟩

theorem redefine (equipped : s.Equipped fine stale m group) {typeName : String}
    {methods : List (String × Code)} (given : ∀ e ∈ methods, fine e.2)
    (anew : m.typeName = typeName → m.name ∈ methods.map (·.1) → stale) :
    Equipped fine stale
      { s with host := s.host.define typeName (methods.map fun e => (e.1, .program e.2)) }
      m group := by
  rcases s.host.body?_define_cases typeName methods m with ⟨program, own, listed, defined⟩ | same
  · have accepted : fine program := given _ listed
    have replaced : stale := anew own (List.mem_map.mpr ⟨_, listed, rfl⟩)
    constructor
    case free =>
      intro _ body found
      exact ⟨program, accepted, Option.some.inj (found.symm.trans defined)⟩
    case hooked =>
      intro e found
      obtain ⟨i, code, positive, slot, entry, -⟩ := equipped.hooked e found
      exact ⟨i, code, positive, slot, entry, Or.inl ⟨replaced, program, accepted, defined⟩⟩
    case waiting => exact equipped.waiting
  · exact equipped.of_same rfl ⟨rfl, rfl, rfl, same⟩

theorem laid {i : Nat} {code : Code} (accepted : fine code) (positive : 0 < i)
    (slot : s.hooks.slot m = i) (entry : Table.get? m s.hooks.methods =
      some ⟨i, ⟨m, some (.hook s.hooks.manager i), .program code⟩⟩)
    (body : s.host.body? m =
      some (.hooked s.hooks.manager m i (.probes s.hooks.manager g) (.program code)))
    (idle : Table.get? m s.hooks.pendingMethods = none) : s.Equipped fine stale m (some g) where
  free found := by
    rw [entry] at found
    cases found
  hooked e found := by
    rw [entry] at found
    cases found
    exact ⟨i, code, positive, slot, rfl, Or.inr ⟨accepted, g, rfl, body⟩⟩
  waiting callback found := by
    rw [idle] at found
    cases found

theorem hookMethod (equipped : s.Equipped fine stale m group)
    (free : Table.get? m s.hooks.methods = none) (callback : Callback)
    (done : (s.hookMethod m callback).1 = .ok ()) :
    let s' := (s.hookMethod m callback).2
    s'.hooks.manager = s.hooks.manager ∧ ∃ i code, fine code ∧ 0 < i ∧ s'.hooks.slot m = i ∧
      Table.get? m s'.hooks.methods =
        some ⟨i, ⟨m, some (.hook s'.hooks.manager i), .program code⟩⟩ ∧
      s'.host.body? m = some (.hooked s'.hooks.manager m i callback (.program code)) := by
  obtain ⟨host, rest, -⟩ := prepareMethod_of_free free
  rcases hookMethod_cases s m callback with ⟨e, -, refused⟩ | ⟨saved, -, found, set⟩
  · rw [refused] at done
    cases done
  · rw [host] at found
    obtain ⟨code, accepted, rfl⟩ := equipped.free free saved found
    rw [set]
    refine ⟨?_, _, code, accepted, Nat.succ_pos _, ?_, Table.get?_insert_self _ _ _,
      Host.body?_setBody _ _ _⟩
    · show (s.prepareMethod m).hooks.manager = _
      rw [rest]
    · exact (Hooks.slot_setSlot _ m m _).trans (if_pos rfl)

theorem hookWhenDefined (equipped : s.Equipped fine stale m group) (anchored : s.Anchored)
    (code : Option CodeRegistry) (free : Table.get? m s.hooks.methods = none)
    (idle : Table.get? m s.hooks.pendingMethods = none) (g : Nat) {installed : Bool}
    (answer : (s.hookWhenDefined code (.method m) (.probes s.hooks.manager g)).1 = .ok installed) :
    (s.hookWhenDefined code (.method m) (.probes s.hooks.manager g)).2.Equipped fine stale
      m (some g) := by
  have attempt := hookMethod_attempt anchored code free (.probes s.hooks.manager g)
  have laying := equipped.hookMethod free (.probes s.hooks.manager g)
  unfold Hooking.hookWhenDefined at answer ⊢
  rw [hook_method] at answer ⊢
  rcases hooked : s.hookMethod m (.probes s.hooks.manager g) with ⟨result, s'⟩
  rw [hooked] at attempt answer laying
  cases result with
  | ok _ =>
    obtain ⟨manager, i, program, accepted, positive, slot, entry, body⟩ := laying rfl
    have idle' : Table.get? m s'.hooks.pendingMethods = none := by
      rw [attempt.pendingMethods, idle]
    dsimp only at body
    rw [← manager] at body
    exact laid accepted positive slot entry body idle'
  | error e =>
    have same := attempt.refused e rfl
    cases e with
    | targetNotDefined detail =>
      have manager : s'.hooks.manager = s.hooks.manager :=
        congrArg Wiring.manager attempt.frame.wiring
      have free' : Table.get? m s'.hooks.methods = none := same.1.trans free
      constructor
      case free =>
        intro _ body found
        exact equipped.free free body (same.2.2.2.symm.trans found)
      case hooked =>
        intro e found
        cases free'.symm.trans found
      case waiting =>
        intro callback found
        have own := (Table.get?_insert_self m _ s'.hooks.pendingMethods).symm.trans found
        exact ⟨g, rfl, (Option.some.inj own).symm.trans (by rw [← manager]; rfl)⟩
    | _ => cases answer

theorem retry (equipped : s.Equipped fine stale m group) (anchored : s.Anchored)
    (code : Option CodeRegistry) (free : Table.get? m s.hooks.methods = none) {callback : Callback}
    (waits : Table.get? m s.hooks.pendingMethods = some callback) :
    (s.retry code (.method m) callback).2.Equipped fine stale m group := by
  have unhooked : s.hooks.isInstalled (.method m) = false := Table.contains_eq_false_iff.mpr free
  have tried := retry_retry anchored code unhooked callback
  have manager : (s.retry code (.method m) callback).2.hooks.manager = s.hooks.manager :=
    congrArg Wiring.manager tried.frame.wiring
  cases answer : (s.retry code (.method m) callback).1 with
  | false => exact equipped.of_same manager (tried.waits answer)
  | true =>
    obtain ⟨g, rfl, rfl⟩ := equipped.waiting callback waits
    have laying := equipped.hookMethod free (.probes s.hooks.manager g)
    unfold Hooking.retry at answer manager ⊢
    rw [hook_method] at answer manager ⊢
    rcases hooked : s.hookMethod m (.probes s.hooks.manager g) with ⟨result, s'⟩
    rw [hooked] at answer manager laying
    cases result with
    | ok _ =>
      obtain ⟨-, i, program, accepted, positive, slot, entry, body⟩ := laying rfl
      dsimp only at body manager
      rw [← manager] at body
      exact laid accepted positive slot entry body (Table.get?_erase_self m _)
    | error e => cases e <;> cases answer

theorem unhook (equipped : s.Equipped fine stale m group)
    (willing : ∀ c t, s.host.refuses c t = none)
    (idle : Table.get? m s.hooks.pendingMethods = none) (group' : Option Nat) :
    (s.unhookMethod m).2.Equipped fine stale m group' := by
  cases hooked : Table.get? m s.hooks.methods with
  | none =>
    have same : s.unhookMethod m = (.ok (), s) := by simp [unhookMethod, hooked]
    rw [same]
    exact bare hooked idle (equipped.free hooked) group'
  | some e =>
    obtain ⟨i, code, -, -, rfl, body⟩ := equipped.hooked e hooked
    rcases unhookMethod_cases hooked with ⟨error, refused, -⟩ | ⟨-, host, rest, -⟩
    · rw [willing] at refused
      cases refused
    · have plain : ∃ program, fine program ∧
          (s.unhookMethod m).2.host.body? m = some (.program program) := by
        rw [host]
        unfold Host.restoreMethod
        rcases body with ⟨-, anew, accepted, defined⟩ | ⟨accepted, g, -, laid⟩
        · refine ⟨anew, accepted, ?_⟩
          dsimp only
          rw [defined]
          exact defined
        · refine ⟨code, accepted, ?_⟩
          dsimp only
          rw [laid]
          simp [Body.key?, Host.body?_setBody]
      obtain ⟨program, accepted, defined⟩ := plain
      refine bare ?_ ?_ (fun body found => ⟨program, accepted, ?_⟩) group'
      · rw [rest]
        exact Table.get?_erase_self m _
      · rw [rest]
        exact idle
      · exact Option.some.inj (found.symm.trans defined)

end Equipped

/-- What is called at a line, now or as soon as its file is known, acts for the group at the
line. -/
structure Lined (s : Hooking) (l : SourceLine) (group : Option Nat) : Prop where
  traced : ∀ t ∈ s.host.tracesAt l, ∃ g, group = some g ∧ t.callback = .probes s.hooks.manager g
  waiting : ∀ callback, Table.get? l s.hooks.pendingLines = some callback →
    ∃ g, group = some g ∧ callback = .probes s.hooks.manager g

theorem Anchored.tracesAt_eq_nil (anchored : s.Anchored) {l : SourceLine}
    (free : Table.get? l s.hooks.lines = none) : s.host.tracesAt l = [] := by
  refine List.eq_nil_iff_forall_not_mem.mpr fun t member => ?_
  obtain ⟨listed, only⟩ := List.mem_filter.mp member
  have entry : (t.only, t.id) ∈ s.hooks.lines.map fun e => (some e.1, e.2.id) :=
    anchored.traced ▸ List.mem_map.mpr ⟨t, listed, rfl⟩
  obtain ⟨e, held, pair⟩ := List.mem_map.mp entry
  have own : e.1 = l :=
    Option.some.inj ((congrArg Prod.fst pair).trans (of_decide_eq_true only))
  have found := Table.get?_of_mem anchored.lineKeys held
  rw [own, free] at found
  cases found

namespace Lined

variable {l : SourceLine}

theorem of_same (lined : s.Lined l group) (manager : s'.hooks.manager = s.hooks.manager)
    (same : Same (.line l) s s') : s'.Lined l group := by
  obtain ⟨-, pendingLines, traces⟩ := same
  constructor
  case traced =>
    rw [traces, manager]
    exact lined.traced
  case waiting =>
    rw [pendingLines, manager]
    exact lined.waiting

theorem bare (free : s.host.tracesAt l = []) (idle : Table.get? l s.hooks.pendingLines = none)
    (group : Option Nat) : s.Lined l group where
  traced t member := by
    rw [free] at member
    cases member
  waiting callback found := by
    rw [idle] at found
    cases found

theorem hookLine (anchored : s.Anchored) (code : Option CodeRegistry)
    (free : Table.get? l s.hooks.lines = none) (g : Nat) :
    let s' := (s.hookLine code l (.probes s.hooks.manager g)).2
    s'.hooks.manager = s.hooks.manager ∧ s'.hooks.pendingLines = s.hooks.pendingLines ∧
      ∀ t ∈ s'.host.tracesAt l, t.callback = .probes s.hooks.manager g := by
  have untraced := anchored.tracesAt_eq_nil free
  rcases hookLine_cases code free (.probes s.hooks.manager g) with
    ⟨e, -, refused⟩ | ⟨unit, -, done⟩
  · rw [refused]
    refine ⟨rfl, rfl, fun t member => ?_⟩
    rw [untraced] at member
    cases member
  · rw [done]
    refine ⟨rfl, rfl, fun t member => ?_⟩
    unfold Host.tracesAt at member untraced
    rw [List.filter_append, untraced, List.nil_append] at member
    cases List.mem_singleton.mp (List.mem_filter.mp member).1
    rfl

theorem hookWhenDefined (anchored : s.Anchored) (code : Option CodeRegistry)
    (free : Table.get? l s.hooks.lines = none) (idle : Table.get? l s.hooks.pendingLines = none)
    (g : Nat) :
    (s.hookWhenDefined code (.line l) (.probes s.hooks.manager g)).2.Lined l (some g) := by
  have laying := hookLine anchored code free g
  unfold Hooking.hookWhenDefined
  rw [hook_line]
  rcases hooked : s.hookLine code l (.probes s.hooks.manager g) with ⟨result, s'⟩
  rw [hooked] at laying
  obtain ⟨manager, pendingLines, traced⟩ := laying
  dsimp only at manager pendingLines traced
  have laid : s'.Lined l (some g) := by
    refine ⟨fun t member => ⟨g, rfl, manager ▸ traced t member⟩, fun callback found => ?_⟩
    rw [pendingLines, idle] at found
    cases found
  cases result with
  | ok _ => exact laid
  | error e =>
    cases e with
    | targetNotDefined detail =>
      refine ⟨laid.traced, fun callback found => ⟨g, rfl, ?_⟩⟩
      have own := (Table.get?_insert_self l _ s'.hooks.pendingLines).symm.trans found
      rw [← Option.some.inj own, ← manager]
      rfl
    | _ => exact laid

theorem forget (lined : s.Lined l group) : (s.forget (.line l)).Lined l group where
  traced := lined.traced
  waiting callback found := by
    rw [show Table.get? l (s.forget (.line l)).hooks.pendingLines = none from
      Table.get?_erase_self l _] at found
    cases found

theorem retry (lined : s.Lined l group) (anchored : s.Anchored) (code : Option CodeRegistry)
    (free : Table.get? l s.hooks.lines = none) {callback : Callback}
    (waits : Table.get? l s.hooks.pendingLines = some callback) :
    (s.retry code (.line l) callback).2.Lined l group := by
  obtain ⟨g, rfl, rfl⟩ := lined.waiting callback waits
  have laying := hookLine anchored code free g
  unfold Hooking.retry
  rw [hook_line]
  rcases hooked : s.hookLine code l (.probes s.hooks.manager g) with ⟨result, s'⟩
  rw [hooked] at laying
  obtain ⟨manager, pendingLines, traced⟩ := laying
  dsimp only at manager pendingLines traced
  have laid : s'.Lined l (some g) := by
    refine ⟨fun t member => ⟨g, rfl, manager ▸ traced t member⟩, fun callback found => ?_⟩
    rw [pendingLines] at found
    rw [manager]
    exact lined.waiting callback found
  cases result with
  | ok _ => exact laid.forget
  | error e => cases e <;> exact ⟨laid.traced, laid.waiting⟩

theorem unhook (anchored : s.Anchored) (willing : ∀ c t, s.host.refuses c t = none)
    (idle : Table.get? l s.hooks.pendingLines = none) (group' : Option Nat) :
    (s.unhookLine l).2.Lined l group' := by
  have removal : Removal (.line l) s (s.unhookLine l) := unhook_removal anchored (.line l)
  have done : (s.unhookLine l).1 = .ok () := by
    rcases answer : (s.unhookLine l).1 with e | ⟨⟩
    · obtain ⟨-, c, t, refuses⟩ := removal.refused e answer
      rw [willing] at refuses
      cases refuses
    · rfl
  refine bare (removal.anchored.tracesAt_eq_nil ?_) ?_ group'
  · exact Table.contains_eq_false_iff.mp (removal.removed done)
  · rw [removal.pendingLines]
    exact idle

end Lined

def Stands (fine : Code → Prop) (stale : MethodName → Prop) (s : Hooking) (t : HookTarget)
    (group : Option Nat) : Prop :=
  match t with
  | .method m => s.Equipped fine (stale m) m group
  | .line l => s.Lined l group

def waiting? (s : Hooking) : HookTarget → Option Callback
  | .method m => Table.get? m s.hooks.pendingMethods
  | .line l => Table.get? l s.hooks.pendingLines

theorem Same.waiting?_eq {t : HookTarget} (same : Same t s s') : s'.waiting? t = s.waiting? t := by
  cases t with
  | method m => exact same.2.1
  | line l => exact same.2.1

namespace Stands

variable {stale : MethodName → Prop} {t : HookTarget}

theorem of_same (stands : s.Stands fine stale t group)
    (manager : s'.hooks.manager = s.hooks.manager) (same : Same t s s') :
    s'.Stands fine stale t group := by
  cases t with
  | method m => exact Equipped.of_same stands manager same
  | line l => exact Lined.of_same stands manager same

theorem hookWhenDefined (stands : s.Stands fine stale t group) (anchored : s.Anchored)
    (code : Option CodeRegistry) (free : s.hooks.isInstalled t = false)
    (idle : s.hooks.isPending t = false) (g : Nat) {installed : Bool}
    (answer : (s.hookWhenDefined code t (.probes s.hooks.manager g)).1 = .ok installed) :
    (s.hookWhenDefined code t (.probes s.hooks.manager g)).2.Stands fine stale t (some g) := by
  cases t with
  | method m =>
    have absent := Table.contains_eq_false_iff.mp free
    have waitless := Table.contains_eq_false_iff.mp idle
    exact Equipped.hookWhenDefined stands anchored code absent waitless g answer
  | line l =>
    have absent := Table.contains_eq_false_iff.mp free
    have waitless := Table.contains_eq_false_iff.mp idle
    exact Lined.hookWhenDefined anchored code absent waitless g

theorem retry (stands : s.Stands fine stale t group) (anchored : s.Anchored)
    (code : Option CodeRegistry) (free : s.hooks.isInstalled t = false) {callback : Callback}
    (waits : s.waiting? t = some callback) :
    (s.retry code t callback).2.Stands fine stale t group := by
  cases t with
  | method m =>
    exact Equipped.retry stands anchored code (Table.contains_eq_false_iff.mp free) waits
  | line l => exact Lined.retry stands anchored code (Table.contains_eq_false_iff.mp free) waits

theorem retryAll (code : Option CodeRegistry) {groups : HookTarget → Option Nat}
    (waiting : List (HookTarget × Callback)) :
    ∀ {s : Hooking}, s.Anchored → (waiting.map (·.1)).Nodup →
      (∀ e ∈ waiting, s.hooks.isInstalled e.1 = false ∧ s.waiting? e.1 = some e.2) →
      (∀ t, s.Stands fine stale t (groups t)) →
      ∀ t, (s.retryAll code waiting).2.Stands fine stale t (groups t) := by
  induction waiting with
  | nil => exact fun _ _ _ stands => stands
  | cons e rest ih =>
    intro s anchored nodup waits stands
    obtain ⟨fresh, nodupRest⟩ := List.nodup_cons.mp nodup
    obtain ⟨⟨free, pending⟩, waitsRest⟩ := List.forall_mem_cons.mp waits
    have first := retry_retry anchored code free e.2
    rw [retryAll_cons]
    refine ih first.anchored nodupRest (fun e' member => ?_) fun t => ?_
    · obtain ⟨free', pending'⟩ := waitsRest e' member
      have other : e'.1 ≠ e.1 := fun same => fresh (List.mem_map.mpr ⟨e', member, same⟩)
      have same := first.frame.apart _ other
      exact ⟨same.isInstalled.trans free', same.waiting?_eq.trans pending'⟩
    · by_cases own : t = e.1
      · rw [own]
        exact (stands e.1).retry anchored code free pending
      · exact (stands t).of_same (congrArg Wiring.manager first.frame.wiring)
          (first.frame.apart t own)

theorem installPendingMethods {groups : HookTarget → Option Nat}
    (stands : ∀ t, s.Stands fine stale t (groups t)) (anchored : s.Anchored)
    (exclusive : s.Exclusive) (code : Option CodeRegistry) (typeName : String) (t : HookTarget) :
    (s.installPendingMethods code typeName).2.Stands fine stale t (groups t) := by
  unfold Hooking.installPendingMethods
  split
  · exact stands t
  · refine retryAll code _ anchored (nodup_waitingMethods anchored typeName) (fun e member => ?_)
      stands t
    obtain ⟨⟨m, callback⟩, listed, rfl⟩ := List.mem_map.mp member
    have pending := Table.get?_of_mem anchored.pendingMethodKeys (List.mem_of_mem_filter listed)
    exact ⟨exclusive (.method m) (Table.contains_iff.mpr ⟨callback, pending⟩), pending⟩

theorem installPendingLines {groups : HookTarget → Option Nat}
    (stands : ∀ t, s.Stands fine stale t (groups t)) (anchored : s.Anchored)
    (exclusive : s.Exclusive) (code : Option CodeRegistry) (path : String) (t : HookTarget) :
    (s.installPendingLines code path).2.Stands fine stale t (groups t) := by
  unfold Hooking.installPendingLines
  split
  · exact stands t
  · refine retryAll code _ anchored (nodup_waitingLines anchored path) (fun e member => ?_)
      stands t
    obtain ⟨⟨l, callback⟩, listed, rfl⟩ := List.mem_map.mp member
    have pending := Table.get?_of_mem anchored.pendingLineKeys (List.mem_of_mem_filter listed)
    exact ⟨exclusive (.line l) (Table.contains_iff.mpr ⟨callback, pending⟩), pending⟩

theorem forget (stands : s.Stands fine stale t group) (anchored : s.Anchored)
    (free : s.hooks.isInstalled t = false) (group' : Option Nat) :
    (s.forget t).Stands fine stale t group' := by
  cases t with
  | method m =>
    have absent := Table.contains_eq_false_iff.mp free
    have idle : Table.get? m (s.forget (.method m)).hooks.pendingMethods = none :=
      Table.get?_erase_self m _
    have plain : ∀ body, s.host.body? m = some body → ∃ code, fine code ∧ body = .program code :=
      Equipped.free stands absent
    refine Equipped.bare ?_ idle ?_ group'
    · exact absent
    · exact plain
  | line l =>
    have untraced : (s.forget (.line l)).host.tracesAt l = [] :=
      anchored.tracesAt_eq_nil (Table.contains_eq_false_iff.mp free)
    have idle : Table.get? l (s.forget (.line l)).hooks.pendingLines = none :=
      Table.get?_erase_self l _
    exact Lined.bare untraced idle group'

theorem unhook (stands : s.Stands fine stale t group) (anchored : s.Anchored)
    (willing : ∀ c t, s.host.refuses c t = none) (idle : s.hooks.isPending t = false) (group' : Option Nat) :
    (s.unhook t).2.Stands fine stale t group' := by
  cases t with
  | method m => exact Equipped.unhook stands willing (Table.contains_eq_false_iff.mp idle) group'
  | line l =>
    exact Lined.unhook anchored willing (Table.contains_eq_false_iff.mp idle) group'

end Stands
end LiveProbe.Hooking
