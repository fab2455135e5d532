import LiveProbe.Proofs.Dispatch.Handling
import LiveProbe.Proofs.Line.Waiting

/-!
What hooks are laid on. On a host that refuses nothing and is hooked by one manager alone, a method
is the program that it was defined as last, or its hook is laid on that program and gives it back
when it goes. So when all hooks go, every method is what it was defined as.
-/
namespace LiveProbe

abbrev Definitions := MethodName → Option Code

def Definitions.enter (typeName : String) (methods : List (String × Code))
    (latest : Definitions) : Definitions :=
  fun m => (Switchboard.given typeName methods m).or (latest m)

theorem Host.body?_define_given (h : Host) (typeName : String) (methods : List (String × Code))
    (m : MethodName) :
    (h.define typeName (methods.map fun e => (e.1, .program e.2))).body? m =
      ((Switchboard.given typeName methods m).map .program).or (h.body? m) := by
  rw [body?_define, ← List.map_reverse, Table.get?_map_values, Switchboard.given]
  split <;> rfl

namespace Hooking

variable {s s' : Hooking} {latest : Definitions} {m : MethodName} {e : InstalledMethod}

/-- The hook of a method is its body, laid on a program, which the hook gives back. -/
def Covers (s : Hooking) (m : MethodName) (code : Code) : Prop :=
  ∃ i callback,
    Table.get? m s.hooks.methods =
      some ⟨i, ⟨m, some (.hook s.hooks.manager i), .program code⟩⟩ ∧
    s.host.body? m = some (.hooked s.hooks.manager m i callback (.program code))

structure Rooted (latest : Definitions) (s : Hooking) : Prop where
  willing : ∀ c t, s.host.refuses c t = none
  keys : (Table.keys s.hooks.methods).Nodup
  home : ∀ m e, Table.get? m s.hooks.methods = some e →
    e.handle.method = m ∧ e.handle.installed.isSome = true
  bodies : ∀ m, s.host.body? m = (latest m).map .program ∨
    ∃ code, latest m = some code ∧ s.Covers m code

namespace Rooted

theorem congr (rooted : s.Rooted latest) (bodies : ∀ m, s'.host.body? m = s.host.body? m)
    (refuses : s'.host.refuses = s.host.refuses)
    (manager : s'.hooks.manager = s.hooks.manager)
    (methods : s'.hooks.methods = s.hooks.methods) : s'.Rooted latest := by
  constructor
  case willing =>
    rw [refuses]
    exact rooted.willing
  case keys =>
    rw [methods]
    exact rooted.keys
  case home =>
    rw [methods]
    exact rooted.home
  case bodies =>
    unfold Covers
    simp only [bodies, methods, manager]
    exact rooted.bodies

theorem bare (willing : ∀ c t, s.host.refuses c t = none) (methods : s.hooks.methods = [])
    (bodies : ∀ m, s.host.body? m = (latest m).map .program) : s.Rooted latest where
  willing := willing
  keys := by
    rw [methods]
    exact List.nodup_nil
  home m e found := by
    rw [methods] at found
    cases found
  bodies m := Or.inl (bodies m)

theorem body?_of_free (rooted : s.Rooted latest) (free : Table.get? m s.hooks.methods = none) :
    s.host.body? m = (latest m).map .program := by
  rcases rooted.bodies m with bare | ⟨code, -, i, callback, hooked, -⟩
  · exact bare
  · rw [free] at hooked
    cases hooked

theorem body?_restored (rooted : s.Rooted latest) (hooked : Table.get? m s.hooks.methods = some e) :
    (s.host.restoreMethod e.handle).body? m = (latest m).map .program := by
  obtain ⟨home, keyed⟩ := rooted.home m e hooked
  unfold Host.restoreMethod
  rw [home]
  rcases rooted.bodies m with bare | ⟨code, defined, i, callback, own, laid⟩
  · cases known : latest m with
    | none =>
      rw [known] at bare
      rw [bare]
      exact bare
    | some code =>
      rw [known] at bare
      have other : ((Body.program code).key? == e.handle.installed) = false := by
        cases installed : e.handle.installed with
        | none =>
          rw [installed] at keyed
          cases keyed
        | some key => rfl
      rw [bare]
      simpa [other] using bare
  · rw [own] at hooked
    cases hooked
    rw [laid, defined]
    simp [Body.key?, Host.body?_setBody]

theorem restored (rooted : s.Rooted latest) (hooked : Table.get? m s.hooks.methods = some e)
    (host : s'.host = s.host.restoreMethod e.handle)
    (manager : s'.hooks.manager = s.hooks.manager)
    (methods : s'.hooks.methods = Table.erase m s.hooks.methods) : s'.Rooted latest := by
  obtain ⟨home, -⟩ := rooted.home m e hooked
  have apart : ∀ {m'}, m' ≠ m →
      Table.get? m' s'.hooks.methods = Table.get? m' s.hooks.methods ∧
        s'.host.body? m' = s.host.body? m' := by
    intro m' other
    rw [methods, host]
    exact ⟨Table.get?_erase_of_ne other _, Host.body?_restoreMethod_of_ne _ (home ▸ other)⟩
  constructor
  case willing =>
    obtain ⟨types, same⟩ := Host.restoreMethod_eq s.host e.handle
    rw [host, same]
    exact rooted.willing
  case keys =>
    rw [methods]
    exact Table.nodup_keys_erase rooted.keys m
  case home =>
    intro m' e' found
    rw [methods, Table.get?_erase] at found
    split at found
    · cases found
    · exact rooted.home m' e' found
  case bodies =>
    intro m'
    by_cases own : m' = m
    · subst own
      rw [host]
      exact Or.inl (rooted.body?_restored hooked)
    · unfold Covers
      rw [(apart own).1, (apart own).2, manager]
      exact rooted.bodies m'

theorem prepareMethod (rooted : s.Rooted latest) (m : MethodName) :
    (s.prepareMethod m).Rooted latest ∧
      (s.prepareMethod m).host.body? m = (latest m).map .program := by
  cases hooked : Table.get? m s.hooks.methods with
  | none =>
    obtain ⟨host, rest, -⟩ := prepareMethod_of_free hooked
    refine ⟨rooted.congr ?_ ?_ ?_ ?_, ?_⟩
    · exact fun m' => by rw [host]
    · rw [host]
    · rw [rest]
    · rw [rest]
    · rw [host]
      exact rooted.body?_of_free hooked
  | some e =>
    obtain ⟨host, rest, -⟩ := prepareMethod_of_hooked hooked
    rw [Host.removeMethod_of_willing rooted.willing] at host
    refine ⟨rooted.restored hooked host ?_ ?_, ?_⟩
    · rw [rest]
    · rw [rest]
    · rw [host]
      exact rooted.body?_restored hooked

theorem hookMethod (rooted : s.Rooted latest) (m : MethodName) (callback : Callback) :
    (s.hookMethod m callback).2.Rooted latest := by
  obtain ⟨prepared, bare⟩ := rooted.prepareMethod m
  rcases hookMethod_cases s m callback with ⟨e, -, refused⟩ | ⟨saved, -, found, done⟩
  · rw [refused]
    exact prepared
  · rw [bare] at found
    obtain ⟨code, defined, rfl⟩ := Option.map_eq_some_iff.mp found
    rw [done]
    constructor
    case willing => exact prepared.willing
    case keys => exact Table.nodup_keys_insert prepared.keys
    case home =>
      intro m' e' found
      dsimp only at found
      rw [Table.get?_insert] at found
      split at found
      · rename_i own
        cases found
        exact ⟨own.symm, rfl⟩
      · exact prepared.home m' e' found
    case bodies =>
      intro m'
      by_cases own : m' = m
      · subst own
        exact Or.inr ⟨code, defined, _, callback, Table.get?_insert_self _ _ _,
          Host.body?_setBody _ _ _⟩
      · unfold Covers
        dsimp only
        rw [Host.body?_setBody_of_ne _ own, Table.get?_insert_of_ne own]
        exact prepared.bodies m'

theorem unhookMethod (rooted : s.Rooted latest) (m : MethodName) :
    (s.unhookMethod m).2.Rooted latest := by
  cases hooked : Table.get? m s.hooks.methods with
  | none =>
    have same : s.unhookMethod m = (.ok (), s) := by simp [Hooking.unhookMethod, hooked]
    rw [same]
    exact rooted
  | some e =>
    rcases unhookMethod_cases hooked with ⟨error, refused, -⟩ | ⟨-, host, rest, -⟩
    · rw [rooted.willing] at refused
      cases refused
    · refine rooted.restored hooked host ?_ ?_
      · rw [rest]
      · rw [rest]

theorem hook (rooted : s.Rooted latest) (code : Option CodeRegistry) (t : HookTarget)
    (callback : Callback) : (s.hook code t callback).2.Rooted latest := by
  cases t with
  | method m => exact rooted.hookMethod m callback
  | line l =>
    obtain ⟨traces, lastId, lines, parts, -⟩ := hookLine_rest code l callback s
    show (s.hookLine code l callback).2.Rooted latest
    rw [parts]
    exact rooted.congr (fun _ => rfl) rfl rfl rfl

theorem unhook (rooted : s.Rooted latest) (t : HookTarget) : (s.unhook t).2.Rooted latest := by
  cases t with
  | method m => exact rooted.unhookMethod m
  | line l =>
    obtain ⟨traces, lines, parts⟩ := unhookLine_rest l s
    show (s.unhookLine l).2.Rooted latest
    rw [parts]
    exact rooted.congr (fun _ => rfl) rfl rfl rfl

theorem forget (rooted : s.Rooted latest) (t : HookTarget) : (s.forget t).Rooted latest := by
  cases t <;> exact rooted.congr (fun _ => rfl) rfl rfl rfl

theorem hookWhenDefined (rooted : s.Rooted latest) (code : Option CodeRegistry) (t : HookTarget)
    (callback : Callback) : (s.hookWhenDefined code t callback).2.Rooted latest := by
  have hooked := rooted.hook code t callback
  unfold Hooking.hookWhenDefined
  split <;> rename_i answer <;> rw [answer] at hooked
  · exact hooked
  · cases t <;> exact hooked.congr (fun _ => rfl) rfl rfl rfl
  · exact hooked

theorem retry (rooted : s.Rooted latest) (code : Option CodeRegistry) (t : HookTarget)
    (callback : Callback) : (s.retry code t callback).2.Rooted latest := by
  have hooked := rooted.hook code t callback
  unfold Hooking.retry
  split <;> rename_i answer <;> rw [answer] at hooked
  · exact hooked.forget t
  · exact hooked
  · exact hooked.congr (fun _ => rfl) rfl rfl rfl

theorem retryAll (code : Option CodeRegistry) (waiting : List (HookTarget × Callback)) :
    ∀ {s : Hooking}, s.Rooted latest → (s.retryAll code waiting).2.Rooted latest := by
  induction waiting with
  | nil => exact fun rooted => rooted
  | cons e rest ih =>
    intro s rooted
    rw [retryAll_cons]
    exact ih (rooted.retry code e.1 e.2)

theorem installPendingMethods (rooted : s.Rooted latest) (code : Option CodeRegistry)
    (typeName : String) : (s.installPendingMethods code typeName).2.Rooted latest := by
  unfold Hooking.installPendingMethods
  split
  · exact rooted
  · exact retryAll code _ rooted

theorem installPendingLines (rooted : s.Rooted latest) (code : Option CodeRegistry)
    (path : String) : (s.installPendingLines code path).2.Rooted latest := by
  unfold Hooking.installPendingLines
  split
  · exact rooted
  · exact retryAll code _ rooted

theorem define (rooted : s.Rooted latest) (typeName : String) (methods : List (String × Code)) :
    Rooted (latest.enter typeName methods) { s with
      host := s.host.define typeName (methods.map fun e => (e.1, .program e.2)) } where
  willing := rooted.willing
  keys := rooted.keys
  home := rooted.home
  bodies m := by
    unfold Covers Definitions.enter
    dsimp only
    rw [Host.body?_define_given]
    cases Switchboard.given typeName methods m with
    | some code => exact Or.inl rfl
    | none => exact rooted.bodies m

/-! The end of all hooks. -/

theorem foldl_dropMethod (entries : List (MethodName × InstalledMethod)) :
    ∀ {s : Hooking}, Rooted latest { s with hooks := { s.hooks with methods := entries } } →
      ∃ types, entries.foldl dropMethod s = { s with host := { s.host with types } } ∧
        ∀ m, Host.body? { s.host with types } m = (latest m).map .program := by
  induction entries with
  | nil => exact fun {s} rooted => ⟨s.host.types, rfl, fun m => rooted.body?_of_free rfl⟩
  | cons e rest ih =>
    intro s rooted
    obtain ⟨fresh, -⟩ := List.nodup_cons.mp rooted.keys
    have erased : Table.erase e.1 (e :: rest) = rest := by
      have absent : Table.get? e.1 rest = none := Table.get?_eq_none_iff.mpr fresh
      have dropped : Table.erase e.1 (e :: rest) = Table.erase e.1 rest := by simp [Table.erase]
      rw [dropped, Table.erase_of_absent absent]
    let after : Hooking := { s with host := s.host.restoreMethod e.2.handle }
    have own : Table.get? e.1 (e :: rest) = some e.2 := by simp [Table.get?]
    have first : Rooted latest { after with hooks := { s.hooks with methods := rest } } :=
      rooted.restored own rfl rfl erased.symm
    obtain ⟨types, restored⟩ := Host.restoreMethod_eq s.host e.2.handle
    obtain ⟨types', dropped, bodies⟩ := ih (s := after) first
    dsimp only [after] at dropped bodies
    rw [restored] at dropped bodies
    refine ⟨types', ?_, bodies⟩
    rw [List.foldl_cons, dropMethod_of_willing (s := s) rooted.willing, restored]
    exact dropped

theorem clearHooks (rooted : s.Rooted latest) (anchored : s.Anchored) :
    ∃ types, s.clearHooks = { s with
        host := { s.host with types, traces := [] }
        hooks := { s.hooks with
          slots := s.hooks.slots.map fun e => (e.1, 0), methods := [], lines := [] } } ∧
      ∀ m, Host.body? { s.host with types, traces := [] } m = (latest m).map .program := by
  let emptied : Hooking := { s with hooks := { s.hooks with
    slots := s.hooks.slots.map fun e => (e.1, 0), methods := [], lines := [] } }
  have listed : Rooted latest { emptied with
      hooks := { emptied.hooks with methods := s.hooks.methods } } :=
    rooted.congr (fun _ => rfl) rfl rfl rfl
  obtain ⟨types, dropped, bodies⟩ := foldl_dropMethod s.hooks.methods listed
  have untraced := foldl_dropLine_of_willing s.hooks.lines
    (s := { emptied with host := { s.host with types } }) rooted.willing
  dsimp only at untraced
  rw [anchored.traces_dropped] at untraced
  refine ⟨types, ?_, bodies⟩
  unfold Hooking.clearHooks
  dsimp only
  rw [dropped]
  exact untraced

end Rooted
end Hooking
end LiveProbe
