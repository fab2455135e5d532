import LiveProbe.Proofs.Hook.Foreign
import Mathlib.Order.Interval.Set.LinearOrder

/-!
Custody of line traces on a host that may refuse anything. A manager keeps each trace that it has
set under its line until the host has removed it, unless the host refuses the removal when the
line is hooked again, when a waiting hook takes its place, or when all hooks are cleared: then the
trace stays in the host and is abandoned. To unhook a line never abandons its trace.
-/
namespace LiveProbe.Hooking

variable {own lost left left' : Set ℕ} {s s' s'' : Hooking} {code : Option CodeRegistry}
  {l : SourceLine} {handle : LineHandle}

inductive Errand where
  | hook (code : Option CodeRegistry) (target : HookTarget) (callback : Callback)
  | hookWhenDefined (code : Option CodeRegistry) (target : HookTarget) (callback : Callback)
  | retryType (code : Option CodeRegistry) (typeName : String)
  | retryFile (code : Option CodeRegistry) (path : String)
  | unhook (target : HookTarget)
  | clearPending (target : HookTarget)
  | clearHooks
  | close

def run (s : Hooking) : Errand → Hooking
  | .hook code target callback => (s.hook code target callback).2
  | .hookWhenDefined code target callback => (s.hookWhenDefined code target callback).2
  | .retryType code typeName => (s.installPendingMethods code typeName).2
  | .retryFile code path => (s.installPendingLines code path).2
  | .unhook target => (s.unhook target).2
  | .clearPending target => s.forget target
  | .clearHooks => s.clearHooks
  | .close => s.close

/-- The trace that is abandoned if a target is hooked: the one of a hooked line that could be
traced anew, where the host refuses to remove it. -/
def balked (code : Option CodeRegistry) (s : Hooking) : HookTarget → Set ℕ
  | .method _ => ∅
  | .line l => {i | ∃ handle, Table.get? l s.hooks.lines = some handle ∧ handle.id = i ∧
      (∃ unit, s.traceUnit code l = .ok unit) ∧ ∃ e, s.host.refuses .removeLine (.line l) = some e}

def unyielded (s : Hooking) : Set ℕ :=
  {i | ∃ l handle, Table.get? l s.hooks.lines = some handle ∧ handle.id = i ∧
    ∃ e, s.host.refuses .removeLine (.line l) = some e}

def abandoned (s : Hooking) : Errand → Set ℕ
  | .hook code target _ => balked code s target
  | .hookWhenDefined code target _ => balked code s target
  | .retryFile code path => {i | s.hooks.closed = false ∧
      ∃ e ∈ waitingLines path s.hooks, i ∈ balked code s e.1}
  | .clearHooks | .close => s.unyielded
  | .retryType _ _ | .unhook _ | .clearPending _ => ∅

/-- The states of a manager and its host, with the numbers of the traces that the manager has set
and of those that it has abandoned. Between errands the host may change in any way, except that
numbers are given out once. -/
inductive Served : Set ℕ → Set ℕ → Hooking → Prop where
  | start (host : Host) (manager : Nat) (untargeted : Bool)
      (numbered : ∀ t ∈ host.traces, t.id ≤ host.lastId) :
      Served ∅ ∅ { host, hooks := { manager, untargeted } }
  | elsewhere {own lost : Set ℕ} {s : Hooking} (served : Served own lost s) (host : Host)
      (later : s.host.lastId ≤ host.lastId) (numbered : ∀ t ∈ host.traces, t.id ≤ host.lastId)
      (old : ∀ t ∈ host.traces, t.id ≤ s.host.lastId → t ∈ s.host.traces) :
      Served own lost { s with host }
  | run {own lost : Set ℕ} {s : Hooking} (served : Served own lost s) (errand : Errand) :
      Served (own ∪ Set.Ioc s.host.lastId (s.run errand).host.lastId)
        (lost ∪ s.abandoned errand) (s.run errand)

/-- What holds between errands: a hooked line has the handle of a trace of its own, and a trace of
the manager that is not lost is that of a hooked line. -/
structure Custody (own lost : Set ℕ) (s : Hooking) : Prop where
  numbered : ∀ t ∈ s.host.traces, t.id ≤ s.host.lastId
  known : ∀ i ∈ own, i ≤ s.host.lastId
  set : ∀ i ∈ lost, i ∈ own
  filed : ∀ l handle, Table.get? l s.hooks.lines = some handle →
    handle.id ∈ own ∧ handle.id ∉ lost ∧ l = ⟨handle.file, handle.line⟩
  apart : ∀ l l' handle handle', Table.get? l s.hooks.lines = some handle →
    Table.get? l' s.hooks.lines = some handle' → handle.id = handle'.id → l = l'
  placed : ∀ t ∈ s.host.traces, t.id ∈ own → t.id ∉ lost →
    ∃ l handle, t.only = some l ∧ Table.get? l s.hooks.lines = some handle ∧ handle.id = t.id
  lineKeys : (Table.keys s.hooks.lines).Nodup
  waitingKeys : (Table.keys s.hooks.pendingLines).Nodup

/-! What a step of the manager keeps, which abandons some traces. -/

structure Keeps (left : Set ℕ) (s s' : Hooking) : Prop where
  custody : ∀ {own lost}, Custody own lost s → s.host.lastId ≤ s'.host.lastId ∧
    Custody (own ∪ Set.Ioc s.host.lastId s'.host.lastId) (lost ∪ left) s'

theorem Keeps.trans (first : Keeps left s s') (second : Keeps left' s' s'') :
    Keeps (left ∪ left') s s'' := by
  refine ⟨fun custody => ?_⟩
  obtain ⟨later, custody'⟩ := first.custody custody
  obtain ⟨later', custody''⟩ := second.custody custody'
  rw [Set.union_assoc, Set.union_assoc, Set.Ioc_union_Ioc_eq_Ioc later later'] at custody''
  exact ⟨later.trans later', custody''⟩

theorem Keeps.of_custody (keeps : ∀ {own lost}, Custody own lost s → Keeps left s s') :
    Keeps left s s' := ⟨fun custody => (keeps custody).custody custody⟩

theorem Keeps.of_parts (traces : s'.host.traces = s.host.traces)
    (lastId : s'.host.lastId = s.host.lastId) (lines : s'.hooks.lines = s.hooks.lines)
    (waiting : (Table.keys s.hooks.pendingLines).Nodup →
      (Table.keys s'.hooks.pendingLines).Nodup) : Keeps ∅ s s' := by
  refine ⟨fun custody => ?_⟩
  rw [lastId, Set.Ioc_self, Set.union_empty, Set.union_empty]
  refine ⟨le_rfl, ?_, ?_, custody.set, ?_, ?_, ?_, ?_, waiting custody.waitingKeys⟩
  · rw [traces, lastId]
    exact custody.numbered
  · rw [lastId]
    exact custody.known
  · rw [lines]
    exact custody.filed
  · rw [lines]
    exact custody.apart
  · rw [traces, lines]
    exact custody.placed
  · rw [lines]
    exact custody.lineKeys

theorem Keeps.refl (s : Hooking) : Keeps ∅ s s := .of_parts rfl rfl rfl id

theorem Keeps.erase (hooked : Table.get? l s.hooks.lines = some handle) {traces : List LineTrace}
    (kept : ∀ t ∈ traces, t ∈ s.host.traces) (only : ∀ i ∈ left, i = handle.id)
    (gone : ∀ t ∈ traces, t.id = handle.id → handle.id ∈ left) :
    Keeps left s { s with
      host := { s.host with traces }
      hooks := { s.hooks with lines := Table.erase l s.hooks.lines } } := by
  refine ⟨fun {own lost} custody => ?_⟩
  have before : ∀ {other handle'}, Table.get? other (Table.erase l s.hooks.lines) = some handle' →
      other ≠ l ∧ Table.get? other s.hooks.lines = some handle' := by
    intro other handle' found
    rw [Table.get?_erase] at found
    split at found
    · cases found
    · exact ⟨‹_›, found⟩
  rw [Set.Ioc_self, Set.union_empty]
  refine ⟨le_rfl, fun t member => custody.numbered t (kept t member), custody.known, ?_, ?_, ?_, ?_,
    Table.nodup_keys_erase custody.lineKeys l, custody.waitingKeys⟩
  · rintro i (former | new)
    · exact custody.set i former
    · rw [only i new]
      exact (custody.filed l handle hooked).1
  · intro other handle' found
    obtain ⟨ne, found'⟩ := before found
    obtain ⟨set, safe, told⟩ := custody.filed other handle' found'
    refine ⟨set, ?_, told⟩
    rintro (former | new)
    · exact safe former
    · exact ne (custody.apart _ _ _ _ found' hooked (only _ new))
  · intro one two handle' handle'' found found' same
    exact custody.apart _ _ _ _ (before found).2 (before found').2 same
  · intro t member set safe
    obtain ⟨other, handle', meant, found, number⟩ :=
      custody.placed t (kept t member) set fun former => safe (.inl former)
    refine ⟨other, handle', meant, ?_, number⟩
    rw [Table.get?_erase, if_neg]
    · exact found
    · rintro rfl
      rw [hooked] at found
      cases found
      exact safe (.inr (number ▸ gone t member number.symm))

theorem Keeps.remove (hooked : Table.get? l s.hooks.lines = some handle) :
    Keeps ∅ s { s with
      host := s.host.removeTrace handle
      hooks := { s.hooks with lines := Table.erase l s.hooks.lines } } := by
  refine .erase hooked (fun t member => (List.mem_filter.mp member).1)
    (fun i nothing => nothing.elim) fun t member same => ?_
  exact absurd same (by simpa using (List.mem_filter.mp member).2)

theorem get?_insert_of_free_iff (free : Table.get? l s.hooks.lines = none) {new : LineHandle}
    {other : SourceLine} {handle' : LineHandle} :
    Table.get? other (Table.insert l new s.hooks.lines) = some handle' ↔
      (other = l ∧ handle' = new) ∨ Table.get? other s.hooks.lines = some handle' := by
  rw [Table.get?_insert]
  split
  · rename_i same
    rw [same, free]
    simp [eq_comm]
  · rename_i ne
    simp [ne]

theorem Keeps.insert (free : Table.get? l s.hooks.lines = none) (unit : Option Nat)
    (callback : Callback) : Keeps ∅ s { s with
      host := { s.host with
        lastId := s.host.lastId + 1
        traces := s.host.traces ++ [⟨s.host.lastId + 1, unit, l.line, some l, callback⟩] }
      hooks := { s.hooks with
        lines := Table.insert l ⟨s.host.lastId + 1, l.file, l.line⟩ s.hooks.lines } } := by
  refine ⟨fun {own lost} custody => ?_⟩
  let new : LineHandle := ⟨s.host.lastId + 1, l.file, l.line⟩
  have old : ∀ {other handle'}, Table.get? other s.hooks.lines = some handle' →
      handle'.id ≤ s.host.lastId := fun found => custody.known _ (custody.filed _ _ found).1
  have fresh : ∀ i ∈ own, i ≠ s.host.lastId + 1 := fun i set => by
    have := custody.known i set
    omega
  have given : ∀ i, i ∈ own ∪ Set.Ioc s.host.lastId (s.host.lastId + 1) ↔
      i ∈ own ∨ i = s.host.lastId + 1 := by
    intro i
    rw [Set.mem_union, Set.mem_Ioc]
    exact or_congr_right (by omega)
  rw [Set.union_empty]
  refine ⟨Nat.le_succ _, ?_, fun i set => ?_, fun i safe => .inl (custody.set i safe), ?_, ?_,
    fun t member set safe => ?_, Table.nodup_keys_insert custody.lineKeys, custody.waitingKeys⟩
  · intro t member
    rcases List.mem_append.mp member with former | latest
    · exact (custody.numbered t former).trans (Nat.le_succ _)
    · rw [List.mem_singleton.mp latest]
  · rcases (given i).mp set with former | rfl
    · exact (custody.known i former).trans (Nat.le_succ _)
    · exact le_rfl
  · intro other handle' found
    rcases (get?_insert_of_free_iff free).mp found with ⟨rfl, rfl⟩ | former
    · exact ⟨(given _).mpr (.inr rfl), fun left => fresh _ (custody.set _ left) rfl, rfl⟩
    · obtain ⟨set, safe, told⟩ := custody.filed _ _ former
      exact ⟨.inl set, safe, told⟩
  · intro one two handle' handle'' found found' same
    rcases (get?_insert_of_free_iff free).mp found with ⟨rfl, rfl⟩ | former <;>
      rcases (get?_insert_of_free_iff free).mp found' with ⟨rfl, rfl⟩ | former'
    · rfl
    · exact absurd (old former') (by rw [← same]; exact Nat.not_succ_le_self _)
    · exact absurd (old former) (by rw [same]; exact Nat.not_succ_le_self _)
    · exact custody.apart _ _ _ _ former former' same
  · rcases List.mem_append.mp member with former | latest
    · have bound := custody.numbered t former
      rcases (given _).mp set with set | number
      · obtain ⟨other, handle', meant, found, number⟩ := custody.placed t former set safe
        exact ⟨other, handle', meant, (get?_insert_of_free_iff free).mpr (.inr found), number⟩
      · omega
    · rw [List.mem_singleton.mp latest]
      exact ⟨l, new, rfl, (get?_insert_of_free_iff free).mpr (.inl ⟨rfl, rfl⟩), rfl⟩

/-! Hooking. -/

theorem installLine_keeps (free : Table.get? l s.hooks.lines = none) (unit : Option CompiledUnit)
    (callback : Callback) : Keeps ∅ s (s.installLine unit l callback).2 := by
  unfold installLine
  rcases Host.installLine_cases s.host unit l callback with ⟨e, -, refused⟩ | ⟨-, done⟩
  · rw [refused]
    exact .refl s
  · rw [done]
    exact .insert free _ callback

theorem hookLine_cases_of_hooked (hooked : Table.get? l s.hooks.lines = some handle)
    (told : l = ⟨handle.file, handle.line⟩) (code : Option CodeRegistry) (callback : Callback) :
    let forgotten := { s.hooks with lines := Table.erase l s.hooks.lines }
    (∃ e, s.traceUnit code l = .error e ∧ s.hookLine code l callback = (.error e, s)) ∨
      ∃ unit, s.traceUnit code l = .ok unit ∧
        ((∃ e, s.host.refuses .removeLine (.line l) = some e ∧
            s.hookLine code l callback = (.error e, { s with hooks := forgotten })) ∨
          s.host.refuses .removeLine (.line l) = none ∧
            s.hookLine code l callback = Hooking.installLine unit l callback
              { s with host := s.host.removeTrace handle, hooks := forgotten }) := by
  intro forgotten
  unfold hookLine
  cases s.traceUnit code l with
  | error e => exact .inl ⟨e, rfl, rfl⟩
  | ok unit =>
    refine .inr ⟨unit, rfl, ?_⟩
    dsimp only
    rw [releaseLine_of_hooked hooked, Host.removeLine, ← told]
    cases s.host.refuses .removeLine (.line l) with
    | some e => exact .inl ⟨e, rfl, rfl⟩
    | none => exact .inr ⟨rfl, rfl⟩

theorem mem_balked_iff (hooked : Table.get? l s.hooks.lines = some handle) {i : ℕ} :
    i ∈ balked code s (.line l) ↔ handle.id = i ∧ (∃ unit, s.traceUnit code l = .ok unit) ∧
      ∃ e, s.host.refuses .removeLine (.line l) = some e := by
  simp [balked, hooked]

theorem hookLine_keeps (code : Option CodeRegistry) (l : SourceLine) (callback : Callback)
    (s : Hooking) : Keeps (balked code s (.line l)) s (s.hookLine code l callback).2 := by
  refine .of_custody fun custody => ?_
  cases hooked : Table.get? l s.hooks.lines with
  | none =>
    have nothing : balked code s (.line l) = ∅ :=
      Set.eq_empty_of_forall_notMem fun i ⟨_, found, _⟩ => by simp [hooked] at found
    have idle : s.releaseLine l = (.ok (), s) := by simp [releaseLine, hooked]
    unfold hookLine
    rw [nothing, idle]
    cases s.traceUnit code l with
    | error e => exact .refl s
    | ok unit => exact installLine_keeps hooked unit callback
  | some handle =>
    rcases hookLine_cases_of_hooked hooked (custody.filed l handle hooked).2.2 code callback with
      ⟨e, place, same⟩ | ⟨unit, place, ⟨e, refused, forgotten⟩ | ⟨willing, removed⟩⟩
    · have nothing : balked code s (.line l) = ∅ := Set.eq_empty_of_forall_notMem fun i left => by
        simp [mem_balked_iff hooked, place] at left
      rw [nothing, same]
      exact .refl s
    · have only : balked code s (.line l) = {handle.id} := by
        ext i
        simp [mem_balked_iff hooked, place, refused, eq_comm]
      rw [only, forgotten]
      exact .erase hooked (fun t member => member) (fun i same => same) fun _ _ _ => rfl
    · have nothing : balked code s (.line l) = ∅ := Set.eq_empty_of_forall_notMem fun i left => by
        simp [mem_balked_iff hooked, willing] at left
      rw [nothing, removed, ← Set.union_empty ∅]
      exact (Keeps.remove hooked).trans
        (installLine_keeps (Table.get?_erase_self l s.hooks.lines) unit callback)

theorem hook_keeps (code : Option CodeRegistry) (target : HookTarget) (callback : Callback)
    (s : Hooking) : Keeps (balked code s target) s (s.hook code target callback).2 := by
  cases target with
  | line l => exact hookLine_keeps code l callback s
  | method m =>
    obtain ⟨types, host⟩ := host_hookMethod m callback s
    obtain ⟨methods, slots, lastInstallation, hooks, -⟩ := hookMethod_rest s m callback
    show Keeps ∅ s (s.hookMethod m callback).2
    refine .of_parts (by rw [host]) (by rw [host]) (by rw [hooks]) fun keys => ?_
    rw [hooks]
    exact keys

theorem addPending_keeps (target : HookTarget) (callback : Callback) (s : Hooking) :
    Keeps ∅ s (s.addPending target callback) := by
  cases target with
  | method m => exact .of_parts rfl rfl rfl id
  | line l => exact .of_parts rfl rfl rfl Table.nodup_keys_insert

theorem forget_keeps (target : HookTarget) (s : Hooking) : Keeps ∅ s (s.forget target) := by
  cases target with
  | method m => exact .of_parts rfl rfl rfl id
  | line l => exact .of_parts rfl rfl rfl fun keys => Table.nodup_keys_erase keys l

theorem hookWhenDefined_keeps (code : Option CodeRegistry) (target : HookTarget)
    (callback : Callback) (s : Hooking) :
    Keeps (balked code s target) s (s.hookWhenDefined code target callback).2 := by
  have tried := hook_keeps code target callback s
  unfold hookWhenDefined
  split <;> rename_i answer <;> rw [answer] at tried
  · exact tried
  · rw [← Set.union_empty (balked code s target)]
    exact tried.trans (addPending_keeps target callback _)
  · exact tried

theorem retry_keeps (code : Option CodeRegistry) (target : HookTarget) (callback : Callback)
    (s : Hooking) : Keeps (balked code s target) s (s.retry code target callback).2 := by
  have tried := hook_keeps code target callback s
  unfold retry
  split <;> rename_i answer <;> rw [answer] at tried
  · rw [← Set.union_empty (balked code s target)]
    exact tried.trans (forget_keeps target _)
  · exact tried
  · rw [← Set.union_empty (balked code s target)]
    exact tried.trans (.of_parts rfl rfl rfl id)

/-! Several waiting hooks in turn. What is abandoned for one of them does not depend on the others,
so it can be told beforehand. -/

theorem balked_congr {t : HookTarget} (refuses : s'.host.refuses = s.host.refuses)
    (untargeted : s'.hooks.untargeted = s.hooks.untargeted)
    (lines : ∀ l, t = .line l → Table.get? l s'.hooks.lines = Table.get? l s.hooks.lines) :
    balked code s' t = balked code s t := by
  cases t with
  | method m => rfl
  | line l =>
    have place : s'.traceUnit code l = s.traceUnit code l := by
      unfold traceUnit
      rw [untargeted]
    simp only [balked, refuses, place, lines l rfl]

theorem balked_retry {t other : HookTarget} (apart : ∀ l, t = .line l → other ≠ .line l)
    (callback : Callback) :
    balked code (s.retry code t callback).2 other = balked code s other := by
  have hooked : balked code (s.hook code t callback).2 other = balked code s other := by
    cases t with
    | method m =>
      obtain ⟨types, host⟩ := host_hookMethod m callback s
      obtain ⟨methods, slots, lastInstallation, hooks, -⟩ := hookMethod_rest s m callback
      show balked code (s.hookMethod m callback).2 other = _
      exact balked_congr (by rw [host]) (by rw [hooks]) fun l _ => by rw [hooks]
    | line l =>
      obtain ⟨traces, lastId, lines, parts, kept⟩ := hookLine_rest code l callback s
      show balked code (s.hookLine code l callback).2 other = _
      rw [parts]
      refine balked_congr rfl rfl fun l' same => kept l' ?_
      rintro rfl
      exact apart l' rfl same
  rw [← hooked]
  unfold retry
  split <;> rename_i answer <;> rw [answer]
  · cases t <;> exact balked_congr rfl rfl fun l _ => rfl
  · exact balked_congr rfl rfl fun l _ => rfl

theorem retryAll_keeps (code : Option CodeRegistry) (waiting : List (HookTarget × Callback)) :
    ∀ {s : Hooking}, (waiting.Pairwise fun e e' => ∀ l, e.1 = .line l → e'.1 ≠ .line l) →
      Keeps {i | ∃ e ∈ waiting, i ∈ balked code s e.1} s (s.retryAll code waiting).2 := by
  induction waiting with
  | nil =>
    intro s _
    have nothing : {i | ∃ e ∈ ([] : List (HookTarget × Callback)), i ∈ balked code s e.1} = ∅ := by
      simp
    rw [nothing]
    exact .refl s
  | cons e rest ih =>
    intro s apart
    obtain ⟨first, others⟩ := List.pairwise_cons.mp apart
    have told : {i | ∃ e' ∈ e :: rest, i ∈ balked code s e'.1} = balked code s e.1 ∪
        {i | ∃ e' ∈ rest, i ∈ balked code (s.retry code e.1 e.2).2 e'.1} := by
      ext i
      simp only [Set.mem_ofPred_eq, Set.mem_union, List.exists_mem_cons_iff]
      refine or_congr_right (exists_congr fun e' => and_congr_right fun member => ?_)
      rw [balked_retry (first e' member)]
    rw [told, retryAll_cons]
    exact (retry_keeps code e.1 e.2 s).trans (ih others)

theorem installPendingMethods_keeps (code : Option CodeRegistry) (typeName : String)
    (s : Hooking) : Keeps ∅ s (s.installPendingMethods code typeName).2 := by
  unfold installPendingMethods
  split
  · exact .refl s
  · have methods : ∀ e ∈ waitingMethods typeName s.hooks, ∃ m, e.1 = .method m := by
      intro e member
      obtain ⟨pending, -, rfl⟩ := List.mem_map.mp member
      exact ⟨_, rfl⟩
    have nothing : {i | ∃ e ∈ waitingMethods typeName s.hooks, i ∈ balked code s e.1} = ∅ := by
      refine Set.eq_empty_of_forall_notMem fun i ⟨e, member, left⟩ => ?_
      obtain ⟨m, method⟩ := methods e member
      rw [method] at left
      exact left
    rw [← nothing]
    refine retryAll_keeps code _ (List.pairwise_of_forall_mem_list fun e member e' _ l line => ?_)
    obtain ⟨m, method⟩ := methods e member
    rw [method] at line
    cases line

theorem installPendingLines_keeps (code : Option CodeRegistry) (path : String) (s : Hooking) :
    Keeps (s.abandoned (.retryFile code path)) s (s.installPendingLines code path).2 := by
  refine .of_custody fun custody => ?_
  unfold installPendingLines abandoned
  cases s.hooks.closed with
  | true =>
    simp only [Bool.true_eq_false, false_and, Set.ofPred_false, if_true]
    exact .refl s
  | false =>
    simp only [true_and, Bool.false_eq_true, if_false]
    refine retryAll_keeps code _ ?_
    have distinct := nodup_waitingLines_of_keys custody.waitingKeys path
    exact (List.pairwise_map.mp distinct).imp fun ne l line line' => ne (line.trans line'.symm)

/-! Unhooking. -/

theorem unhook_keeps (target : HookTarget) (s : Hooking) : Keeps ∅ s (s.unhook target).2 := by
  cases target with
  | method m =>
    show Keeps ∅ s (s.unhookMethod m).2
    cases hooked : Table.get? m s.hooks.methods with
    | none =>
      have idle : s.unhookMethod m = (.ok (), s) := by simp [unhookMethod, hooked]
      rw [idle]
      exact .refl s
    | some installed =>
      rcases unhookMethod_cases hooked with ⟨e, -, refused⟩ | ⟨-, host, hooks, -⟩
      · rw [refused]
        exact .refl s
      · have bodies := Host.BodyFrame.restoreMethod s.host installed.handle
        rw [← host] at bodies
        refine .of_parts (by rw [bodies.rest]) (by rw [bodies.rest]) (by rw [hooks]) fun keys => ?_
        rw [hooks]
        exact keys
  | line l =>
    show Keeps ∅ s (s.unhookLine l).2
    cases hooked : Table.get? l s.hooks.lines with
    | none =>
      have idle : s.unhookLine l = (.ok (), s) := by simp [unhookLine, hooked]
      rw [idle]
      exact .refl s
    | some handle =>
      rcases unhookLine_cases hooked with ⟨e, -, refused⟩ | done
      · rw [refused]
        exact .refl s
      · rw [done]
        exact .remove hooked

def yields (h : Host) (handle : LineHandle) : Bool :=
  (h.refuses .removeLine (.line ⟨handle.file, handle.line⟩)).isNone

theorem foldl_dropMethod_parts (entries : List (MethodName × InstalledMethod)) :
    ∀ {s : Hooking}, ∃ types warnings, entries.foldl dropMethod s =
      { s with host := { s.host with types }, warnings } := by
  induction entries with
  | nil => exact fun {s} => ⟨s.host.types, s.warnings, rfl⟩
  | cons e rest ih =>
    intro s
    obtain ⟨types, warnings, first⟩ : ∃ types warnings, s.dropMethod e =
        { s with host := { s.host with types }, warnings } := by
      have bodies := (Host.BodyFrame.removeMethod s.host e.2.handle).rest
      unfold dropMethod
      split <;> rename_i answer <;> rw [answer] at bodies <;> dsimp only at bodies
      · exact ⟨_, s.warnings, by rw [bodies]⟩
      · exact ⟨_, _, by rw [bodies]; rfl⟩
    obtain ⟨types', warnings', later⟩ := ih (s := s.dropMethod e)
    refine ⟨types', warnings', ?_⟩
    rw [List.foldl_cons, later, first]

theorem foldl_dropLine_eq (entries : List (SourceLine × LineHandle)) :
    ∀ {s : Hooking}, ∃ warnings, entries.foldl dropLine s = { s with
      host := { s.host with
        traces := s.host.traces.filter fun t =>
          entries.all fun e => !(yields s.host e.2 && decide (t.id = e.2.id)) }
      warnings := warnings } := by
  induction entries with
  | nil => exact fun {s} => ⟨s.warnings, by simp⟩
  | cons e rest ih =>
    intro s
    obtain ⟨warnings, first⟩ : ∃ warnings, s.dropLine e = { s with
        host := { s.host with
          traces := s.host.traces.filter fun t => !(yields s.host e.2 && decide (t.id = e.2.id)) }
        warnings := warnings } := by
      unfold dropLine Host.removeLine yields
      cases s.host.refuses .removeLine (.line ⟨e.2.file, e.2.line⟩) with
      | some error => exact ⟨s.warnings ++ [.hookStays (.line e.1) error], by simp [warn]⟩
      | none => exact ⟨s.warnings, by simp [Host.removeTrace]⟩
    obtain ⟨warnings', later⟩ := ih (s := s.dropLine e)
    refine ⟨warnings', ?_⟩
    rw [List.foldl_cons, later, first]
    simp [yields, List.filter_filter, Bool.and_comm]

theorem clearHooks_keeps (s : Hooking) : Keeps s.unyielded s s.clearHooks := by
  obtain ⟨types, warnings, methods⟩ := foldl_dropMethod_parts s.hooks.methods (s := { s with
    hooks := { s.hooks with
      slots := s.hooks.slots.map fun e => (e.1, 0), methods := [], lines := [] } })
  obtain ⟨warnings', lines⟩ := foldl_dropLine_eq s.hooks.lines (s := { s with
    host := { s.host with types }
    hooks := { s.hooks with
      slots := s.hooks.slots.map fun e => (e.1, 0), methods := [], lines := [] }
    warnings })
  have cleared : s.clearHooks = _ := (congrArg (s.hooks.lines.foldl dropLine) methods).trans lines
  rw [cleared]
  refine ⟨fun {own lost} custody => ?_⟩
  rw [Set.Ioc_self, Set.union_empty]
  refine ⟨le_rfl, fun t member => custody.numbered t (List.mem_filter.mp member).1, custody.known,
    ?_, ?_, ?_, fun t member set safe => ?_, List.nodup_nil, custody.waitingKeys⟩
  · rintro i (former | ⟨l, handle, hooked, rfl, -⟩)
    · exact custody.set i former
    · exact (custody.filed l handle hooked).1
  · rintro l handle ⟨⟩
  · rintro l l' handle handle' ⟨⟩
  · obtain ⟨listed, spared⟩ := List.mem_filter.mp member
    obtain ⟨l, handle, -, hooked, number⟩ :=
      custody.placed t listed set fun former => safe (.inl former)
    have told := (custody.filed l handle hooked).2.2
    have refused := List.all_eq_true.mp spared _ (Table.mem_of_get? hooked)
    cases answer : s.host.refuses .removeLine (.line l) with
    | some e => exact absurd (.inr ⟨l, handle, hooked, number, e, answer⟩) safe
    | none =>
      have yielded : yields s.host handle = true := by
        rw [yields, ← told, answer]
        rfl
      have kept : yields s.host handle = false := by simpa [yields, number] using refused
      rw [yielded] at kept
      cases kept

theorem close_keeps (s : Hooking) : Keeps s.unyielded s s.close := by
  have stopped : Keeps ∅ s s.stopFollowing ∧ s.stopFollowing.unyielded = s.unyielded := by
    unfold stopFollowing
    cases s.hooks.definitions <;> exact ⟨.of_parts rfl rfl rfl id, rfl⟩
  have cleared : Keeps ∅ s.stopFollowing.clearHooks s.close :=
    .of_parts rfl rfl rfl fun _ => List.nodup_nil
  have whole := (stopped.1.trans (clearHooks_keeps _)).trans cleared
  rwa [Set.empty_union, Set.union_empty, stopped.2] at whole

/-! Errands, one after the other. -/

theorem run_keeps (s : Hooking) (errand : Errand) : Keeps (s.abandoned errand) s (s.run errand) := by
  cases errand with
  | hook code target callback => exact hook_keeps code target callback s
  | hookWhenDefined code target callback => exact hookWhenDefined_keeps code target callback s
  | retryType code typeName => exact installPendingMethods_keeps code typeName s
  | retryFile code path => exact installPendingLines_keeps code path s
  | unhook target => exact unhook_keeps target s
  | clearPending target => exact forget_keeps target s
  | clearHooks => exact clearHooks_keeps s
  | close => exact close_keeps s

theorem Custody.elsewhere (custody : Custody own lost s) {host : Host}
    (later : s.host.lastId ≤ host.lastId) (numbered : ∀ t ∈ host.traces, t.id ≤ host.lastId)
    (old : ∀ t ∈ host.traces, t.id ≤ s.host.lastId → t ∈ s.host.traces) :
    Custody own lost { s with host } :=
  { custody with
    numbered
    known := fun i set => (custody.known i set).trans later
    placed := fun t member set safe =>
      custody.placed t (old t member (custody.known t.id set)) set safe }

theorem Served.custody (served : Served own lost s) : Custody own lost s := by
  induction served with
  | start host manager untargeted numbered =>
    refine ⟨numbered, fun i nothing => nothing.elim, fun i nothing => nothing.elim, ?_, ?_,
      fun t _ nothing => nothing.elim, List.nodup_nil, List.nodup_nil⟩
    · rintro l handle ⟨⟩
    · rintro l l' handle handle' ⟨⟩
  | elsewhere _ host later numbered old custody => exact custody.elsewhere later numbered old
  | run _ errand custody => exact ((run_keeps _ errand).custody custody).2

/-- A live trace that the manager has set is kept under its line exactly if it was not abandoned;
what is kept can be removed as soon as the host allows it. A hook that fails to replace another
abandons it only where the host has refused to remove it. -/
theorem Served.traces_kept (served : Served own lost s) :
    (∀ t ∈ s.host.traces, t.id ∈ own → (t.id ∉ lost ↔ ∃ l handle, t.only = some l ∧
      Table.get? l s.hooks.lines = some handle ∧ handle.id = t.id)) ∧
    (∀ l handle, Table.get? l s.hooks.lines = some handle →
      (∀ e, s.host.refuses .removeLine (.line l) = some e → s.unhook (.line l) = (.error e, s)) ∧
      (s.host.refuses .removeLine (.line l) = none → (s.unhook (.line l)).1 = .ok () ∧
        ∀ t ∈ (s.unhook (.line l)).2.host.traces, t.id ≠ handle.id)) ∧
    ∀ code l callback previous e, Table.get? l s.hooks.lines = some previous →
      (s.hookLine code l callback).1 = .error e →
      (∃ t ∈ (s.hookLine code l callback).2.host.traces, t.id = previous.id) →
      (Table.get? l (s.hookLine code l callback).2.hooks.lines = some previous ↔
        previous.id ∉ s.abandoned (.hook code (.line l) callback)) := by
  have custody := served.custody
  refine ⟨fun t member set => ⟨custody.placed t member set, ?_⟩, fun l handle hooked => ?_, ?_⟩
  · rintro ⟨l, handle, -, hooked, number⟩
    rw [← number]
    exact (custody.filed l handle hooked).2.1
  · have told := (custody.filed l handle hooked).2.2
    show (∀ e, _ → s.unhookLine l = (.error e, s)) ∧ (_ → (s.unhookLine l).1 = .ok () ∧
      ∀ t ∈ (s.unhookLine l).2.host.traces, t.id ≠ handle.id)
    unfold unhookLine Host.removeLine
    rw [hooked]
    dsimp only
    rw [← told]
    cases s.host.refuses .removeLine (.line l) with
    | some e =>
      refine ⟨?_, fun willing => by cases willing⟩
      rintro e' ⟨⟩
      rfl
    | none =>
      refine ⟨fun e refused => (by cases refused), fun _ => ⟨rfl, fun t member => ?_⟩⟩
      simpa using (List.mem_filter.mp member).2
  · intro code l callback previous e hooked failed live
    rcases hookLine_cases_of_hooked hooked (custody.filed l previous hooked).2.2 code callback with
      ⟨e, place, same⟩ | ⟨unit, place, ⟨e, refused, forgotten⟩ | ⟨willing, removed⟩⟩
    · rw [same]
      simp [abandoned, mem_balked_iff hooked, hooked, place]
    · rw [forgotten]
      simp [abandoned, mem_balked_iff hooked, place, refused, Table.get?_erase_self]
    · rw [removed] at failed live
      obtain ⟨t, member, number⟩ := live
      unfold installLine at failed member
      rcases Host.installLine_cases (s.host.removeTrace previous) unit l callback with
        ⟨e', -, refused⟩ | ⟨-, done⟩
      · rw [refused] at member
        exact absurd number (by simpa using (List.mem_filter.mp member).2)
      · rw [done] at failed
        cases failed

/-! A line is hooked, then again and again on a host that no longer removes traces. -/

def tenth : SourceLine := ⟨"f.rb", 10⟩

def hookTenth : Errand := .hook none (.line tenth) (.record "h")

def hookedOnce : Hooking :=
  run { host := {}, hooks := { manager := 0, untargeted := true } } hookTenth

def resisting : Hooking :=
  { hookedOnce with host := { hookedOnce.host with
      refuses := fun c _ => if c = .removeLine then some (.install "stays") else none } }

def hookedTwice : Hooking := resisting.run hookTenth

theorem hookedTwice_served : ∃ own lost, Served own lost hookedTwice ∧ 1 ∈ own ∧ 1 ∈ lost := by
  have once : Served _ _ hookedOnce := (Served.start {} 0 true (by simp)).run hookTenth
  have refused : Served _ _ resisting :=
    once.elsewhere _ le_rfl once.custody.numbered fun t member _ => member
  refine ⟨_, _, refused.run hookTenth, .inl (.inr ⟨by decide, by decide⟩), .inr ?_⟩
  exact ⟨⟨1, "f.rb", 10⟩, rfl, rfl, ⟨none, rfl⟩, _, rfl⟩

/-- The second hook takes the place of none, and the first one is not taken back. -/
theorem Served.traces_kept_resisted : ∃ own lost s, Served own lost s ∧
    (∃ t ∈ s.host.traces, t.id ∈ own ∧ t.id ∈ lost ∧ ¬ ∃ l handle, t.only = some l ∧
      Table.get? l s.hooks.lines = some handle ∧ handle.id = t.id) ∧
    ∃ t ∈ s.host.traces, t.id ∈ own ∧ t.id ∉ lost ∧
      Table.get? tenth s.hooks.lines = some ⟨t.id, "f.rb", 10⟩ ∧
      s.unhook (.line tenth) = (.error (.install "stays"), s) := by
  obtain ⟨own, lost, served, set, left⟩ := hookedTwice_served
  have thrice := served.run hookTenth
  obtain ⟨registered, removable, -⟩ := thrice.traces_kept
  let traces : List LineTrace :=
    [⟨1, none, 10, some tenth, .record "h"⟩, ⟨2, none, 10, some tenth, .record "h"⟩]
  have live : (hookedTwice.run hookTenth).host.traces = traces := rfl
  have hooked : Table.get? tenth (hookedTwice.run hookTenth).hooks.lines = some ⟨2, "f.rb", 10⟩ :=
    rfl
  refine ⟨_, _, _, thrice, ⟨traces[0], by simp [live, traces], .inl set, .inl left, fun found => ?_⟩,
    traces[1], by simp [live, traces], ?_, ?_, hooked, (removable tenth _ hooked).1 _ rfl⟩
  · exact (registered traces[0] (by simp [live, traces]) (.inl set)).mpr found (.inl left)
  · exact .inr ⟨by decide, by decide⟩
  · exact (registered traces[1] (by simp [live, traces]) (.inr ⟨by decide, by decide⟩)).mpr
      ⟨tenth, _, rfl, hooked, rfl⟩

/-- A trace that the manager has set is live, and no line has its handle. -/
theorem Served.traces_orphaned : ¬ ∀ own lost s, Served own lost s →
    ∀ t ∈ s.host.traces, t.id ∈ own → ∃ l handle, t.only = some l ∧
      Table.get? l s.hooks.lines = some handle ∧ handle.id = t.id := by
  intro always
  obtain ⟨own, lost, served, set, left⟩ := hookedTwice_served
  have live : (⟨1, none, 10, some tenth, .record "h"⟩ : LineTrace) ∈ hookedTwice.host.traces := by
    show _ ∈ [_]
    exact List.mem_singleton.mpr rfl
  obtain ⟨l, handle, meant, hooked, -⟩ := always own lost hookedTwice served _ live set
  have forgotten : hookedTwice.hooks.lines = [] := rfl
  rw [forgotten] at hooked
  cases hooked

end LiveProbe.Hooking
