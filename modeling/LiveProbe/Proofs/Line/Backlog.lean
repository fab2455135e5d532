import LiveProbe.Proofs.Code.Seniority
import LiveProbe.Proofs.Line.Stock
import Mathlib.Data.List.Perm.Basic

/-!
A registry that only its host tells of units. However often it stops and starts, what it knows is
what it would know if it had been told of the first units that were loaded, one after the other;
and while it is used, of all of them. So the first unit under a key is found for good, whatever is
loaded later.
-/
namespace LiveProbe

def CompiledUnit.file (u : CompiledUnit) : String × List UInt32 := (u.path, u.lines)

namespace CodeRegistry

variable {r : CodeRegistry} {key : String} {known units : List CompiledUnit} {u : CompiledUnit}

def firstUnder (key : String) (units : List CompiledUnit) : Option CompiledUnit :=
  units.find? fun u => (keysOf u.path).contains key

def fileUnder (key : String) (files : List (String × List UInt32)) :
    Option (String × List UInt32) :=
  files.find? fun f => (keysOf f.1).contains key

def registerAll (r : CodeRegistry) (units : List CompiledUnit) : CodeRegistry :=
  units.foldl (fun r u => (r.register u.path u).2) r

def Knows (r : CodeRegistry) (units : List CompiledUnit) : Prop :=
  ∀ key, Table.get? key r.units = firstUnder key units

theorem file_firstUnder (key : String) (units : List CompiledUnit) :
    (firstUnder key units).map (·.file) = fileUnder key (units.map (·.file)) := by
  unfold fileUnder
  rw [List.find?_map]
  rfl

theorem firstUnder_append (key : String) (units later : List CompiledUnit) :
    firstUnder key (units ++ later) = (firstUnder key units).or (firstUnder key later) :=
  List.find?_append

theorem firstUnder_of_prefix (first : known <+: units) (found : firstUnder key known = some u) :
    firstUnder key units = some u := by
  obtain ⟨later, rfl⟩ := first
  rw [firstUnder_append, found, Option.some_or]

theorem firstUnder_of_own (own : key ∈ keysOf u.path)
    (found : (firstUnder key units).or (firstUnder (Text.basename key) units) = some u) :
    firstUnder key units = some u := by
  cases first : firstUnder key units with
  | some v => rwa [first, Option.some_or] at found
  | none =>
    rw [first, Option.none_or] at found
    have absent := List.find?_eq_none.mp first u (List.mem_of_find?_eq_some found)
    exact absurd (List.contains_iff_mem.mpr own) absent

theorem knows_iff : r.Knows units ↔ r.Records (units.map (·.registration)) := by
  refine forall_congr' fun key => ?_
  unfold firstUnder earliest
  rw [List.find?_map, Option.map_map]
  simp [Function.comp_def, CompiledUnit.registration]

theorem Knows.register (knows : r.Knows known) (u : CompiledUnit) :
    (r.register u.path u).2.Knows (known ++ [u]) := by
  rw [knows_iff, List.map_append]
  exact (knows_iff.mp knows).register u.path u

theorem Knows.registerAll (knows : r.Knows known) (units : List CompiledUnit) :
    (r.registerAll units).Knows (known ++ units) := by
  induction units generalizing r known with
  | nil => simpa [CodeRegistry.registerAll] using knows
  | cons u rest ih => simpa [CodeRegistry.registerAll] using ih (knows.register u)

theorem knows_registerAll (units : List CompiledUnit) :
    (CodeRegistry.registerAll {} units).Knows units := by
  have nothing : ({} : CodeRegistry).Knows [] := fun _ => rfl
  exact nothing.registerAll units

theorem Knows.again (knows : r.Knows (known ++ units)) (first : known <+: units) :
    r.Knows units := by
  intro key
  rw [knows key, firstUnder_append]
  cases found : firstUnder key known with
  | none => rw [Option.none_or]
  | some u => rw [Option.some_or, firstUnder_of_prefix first found]

theorem Knows.lookup (knows : r.Knows units) (location : String) :
    r.lookup location =
      (firstUnder location units).or (firstUnder (Text.basename location) units) := by
  unfold CodeRegistry.lookup
  rw [knows, knows]
  cases firstUnder location units <;> rfl

end CodeRegistry

namespace Host

variable {h h' : Host} {loaded : List CompiledUnit}

structure Shelves (loaded : List CompiledUnit) (h : Host) : Prop where
  lists : h.listsUnits = true
  kept : h.allUnits.Perm loaded
  ordered : loaded.Pairwise fun u v => u.id < v.id
  numbered : ∀ u ∈ loaded, u.id ≤ h.lastId

theorem perm_flatMap_insert (path : String) (former : List CompiledUnit) (u : CompiledUnit)
    (table : List (String × List CompiledUnit))
    (current : (Table.get? path table).getD [] = former) :
    ((Table.insert path (former ++ [u]) table).flatMap (·.2)).Perm
      (table.flatMap (·.2) ++ [u]) := by
  induction table with
  | nil =>
    subst current
    simp [Table.insert, Table.get?]
  | cons e rest ih =>
    obtain ⟨k, v⟩ := e
    by_cases same : k = path
    · subst same
      simp only [Table.get?, if_true, Option.getD_some] at current
      subst current
      simp only [Table.insert, if_true, List.flatMap_cons, List.append_assoc]
      exact List.Perm.append_left v List.perm_append_comm
    · simp only [Table.get?, same, if_false] at current
      simp only [Table.insert, same, if_false, List.flatMap_cons, List.append_assoc]
      exact List.Perm.append_left v (ih current)

theorem Shelves.load (shelves : h.Shelves loaded) (path : String) (lines : List UInt32) :
    (h.load path lines).2.Shelves (loaded ++ [(h.load path lines).1]) where
  lists := shelves.lists
  kept := (perm_flatMap_insert path _ _ h.units rfl).trans (shelves.kept.append_right _)
  ordered := by
    refine List.pairwise_append.mpr ⟨shelves.ordered, List.pairwise_singleton _ _, ?_⟩
    intro u before v new
    rw [List.mem_singleton.mp new]
    exact Nat.lt_succ_of_le (shelves.numbered u before)
  numbered u member := by
    rcases List.mem_append.mp member with before | new
    · exact Nat.le_succ_of_le (shelves.numbered u before)
    · rw [List.mem_singleton.mp new]
      exact Nat.le_refl _

theorem Shelves.mono (shelves : h.Shelves loaded) (units : h'.units = h.units)
    (lists : h'.listsUnits = h.listsUnits) (last : h.lastId ≤ h'.lastId) : h'.Shelves loaded where
  lists := lists.trans shelves.lists
  kept := by
    unfold allUnits
    rw [units]
    exact shelves.kept
  ordered := shelves.ordered
  numbered u member := (shelves.numbered u member).trans last

theorem Shelves.loadedUnits (shelves : h.Shelves loaded) : h.loadedUnits = loaded := by
  unfold Host.loadedUnits
  rw [if_pos shelves.lists]
  let before (a b : CompiledUnit) : Bool := decide (a.id ≤ b.id)
  have sorted : (h.allUnits.mergeSort before).Pairwise fun a b => before a b :=
    List.pairwise_mergeSort (fun a b c => by simpa [before] using Nat.le_trans)
      (fun a b => by simpa [before] using Nat.le_total a.id b.id) h.allUnits
  have listed := (List.mergeSort_perm h.allUnits before).trans shelves.kept
  have distinct : (loaded.map (·.id)).Nodup :=
    List.pairwise_map.mpr (shelves.ordered.imp Nat.ne_of_lt)
  have sorted' : (h.allUnits.mergeSort before).Pairwise fun a b => a.id ≤ b.id := by
    simpa [before] using sorted
  have ordered : loaded.Pairwise fun a b => a.id ≤ b.id := shelves.ordered.imp Nat.le_of_lt
  refine listed.eq_of_pairwise (fun a b inA inB ab ba => ?_) sorted' ordered
  exact List.inj_on_of_nodup_map distinct (listed.mem_iff.mp inA) inB (Nat.le_antisymm ab ba)

end Host

namespace Hooking

variable {s : Hooking}

/-! The host gives out numbers in ascending order, also to the traces of a manager. -/

theorem lastId_le_hookWhenDefined (code : Option CodeRegistry) (l : SourceLine)
    (callback : Callback) (s : Hooking) :
    s.host.lastId ≤ (s.hookWhenDefined code (.line l) callback).2.host.lastId := by
  have hooked := lastId_le_hookLine code l callback s
  unfold hookWhenDefined hook
  dsimp only
  rcases answer : s.hookLine code l callback with ⟨e | _, s'⟩
  all_goals rw [answer] at hooked
  · cases e <;> exact hooked
  · exact hooked

theorem lastId_le_retry (code : Option CodeRegistry) (l : SourceLine) (callback : Callback)
    (s : Hooking) : s.host.lastId ≤ (s.retry code (.line l) callback).2.host.lastId := by
  have hooked := lastId_le_hookLine code l callback s
  unfold retry hook
  dsimp only
  rcases answer : s.hookLine code l callback with ⟨e | _, s'⟩
  all_goals rw [answer] at hooked
  · cases e <;> exact hooked
  · exact hooked

theorem lastId_le_retryAll (code : Option CodeRegistry) (waiting : List (HookTarget × Callback))
    (lines : ∀ e ∈ waiting, ∃ l, e.1 = .line l) (s : Hooking) :
    s.host.lastId ≤ (s.retryAll code waiting).2.host.lastId := by
  induction waiting generalizing s with
  | nil => exact Nat.le_refl _
  | cons e rest ih =>
    obtain ⟨⟨l, own⟩, others⟩ := List.forall_mem_cons.mp lines
    rw [retryAll_cons, own]
    exact (lastId_le_retry code l e.2 s).trans (ih others _)

theorem lastId_le_installPendingLines (code : Option CodeRegistry) (path : String) (s : Hooking) :
    s.host.lastId ≤ (s.installPendingLines code path).2.host.lastId := by
  unfold installPendingLines
  split
  · exact Nat.le_refl _
  · refine lastId_le_retryAll code _ (fun e member => ?_) s
    obtain ⟨x, -, same⟩ := List.mem_map.mp member
    exact ⟨x.1, by rw [← same]⟩

theorem lastId_unhookLine (l : SourceLine) (s : Hooking) :
    (s.unhookLine l).2.host.lastId = s.host.lastId := by
  obtain ⟨traces, lines, rest⟩ := unhookLine_rest l s
  rw [rest]

theorem Meets.close_stock {b : Lineup} (meets : Meets b s) :
    s.close.host.units = s.host.units ∧ s.close.host.listsUnits = s.host.listsUnits ∧
      s.close.host.lastId = s.host.lastId := by
  unfold Hooking.close
  rw [meets.stopFollowing.clearHooks_eq]
  unfold Hooking.stopFollowing
  cases s.hooks.definitions <;> exact ⟨rfl, rfl, rfl⟩

end Hooking

namespace Setup

variable {s s' : Setup} {b : Lineup} {old loaded : List CompiledUnit}

theorem lastId_le_fileKnown (path : String) (s : Setup) :
    s.host.lastId ≤ (s.fileKnown path).host.lastId := by
  have held := congrArg (·.host.lastId) (held_fileKnown s path)
  exact (Hooking.lastId_le_installPendingLines s.engine.code path s.held).trans_eq held.symm

theorem lastId_le_registerUnit (path : String) (unit : CompiledUnit) (s : Setup) :
    s.host.lastId ≤ (s.registerUnit path unit).2.host.lastId := by
  unfold registerUnit
  split
  · exact Nat.le_refl _
  · dsimp only
    split
    · refine List.foldlRecOn (motive := fun t : Setup => s.host.lastId ≤ t.host.lastId) _ _
        (Nat.le_refl _) fun t later l _ => ?_
      cases l with
      | hooks => exact later.trans (lastId_le_fileKnown unit.path t)
      | watcher label => exact later
    · exact Nat.le_refl _

/-- The registry knows the first of the units that have been loaded, the old ones and maybe more,
and all of them while it is used. -/
structure Abreast (old loaded : List CompiledUnit) (s : Setup) : Prop where
  shelves : s.host.Shelves loaded
  registry : ∃ r known, s.engine.code = some r ∧ r.Knows known ∧ old <+: known ∧
    known <+: loaded ∧ (r.active = true → known = loaded)

theorem Abreast.of_host (abreast : s.Abreast old loaded) (units : s'.host.units = s.host.units)
    (lists : s'.host.listsUnits = s.host.listsUnits) (last : s.host.lastId ≤ s'.host.lastId)
    (code : s'.engine.code = s.engine.code) : s'.Abreast old loaded where
  shelves := abreast.shelves.mono units lists last
  registry := by
    rw [code]
    exact abreast.registry

theorem Abreast.of_wiring (abreast : s.Abreast old loaded) (wiring : s'.held.wiring = s.held.wiring)
    (last : s.host.lastId ≤ s'.host.lastId) (code : s'.engine.code = s.engine.code) :
    s'.Abreast old loaded :=
  abreast.of_host (congrArg Hooking.Wiring.units wiring)
    (congrArg Hooking.Wiring.listsUnits wiring) last code

theorem Manages.told (units : List CompiledUnit) : ∀ {b : Lineup} {s : Setup}, Manages b s →
    let s' := units.foldl unitLoaded s
    s'.held.wiring = s.held.wiring ∧ s.host.lastId ≤ s'.host.lastId ∧
      s'.engine.code = s.engine.code.map (·.registerAll units) := by
  induction units with
  | nil =>
    intro b s _
    refine ⟨rfl, Nat.le_refl _, ?_⟩
    show s.engine.code = _
    cases s.engine.code <;> rfl
  | cons u rest ih =>
    intro b s manages
    obtain ⟨manages', wiring, -⟩ := manages.registerUnit u.path u
    obtain ⟨wiring', last, code⟩ := ih manages'
    refine ⟨wiring'.trans wiring, (lastId_le_registerUnit u.path u s).trans last, ?_⟩
    cases known : s.engine.code with
    | none =>
      have same : (s.registerUnit u.path u).2 = s := by
        unfold Setup.registerUnit
        rw [known]
      rw [same, known] at code
      show (rest.foldl unitLoaded (s.registerUnit u.path u).2).engine.code = _
      rw [same]
      exact code
    | some r =>
      rw [code_registerUnit known] at code
      exact code

theorem Abreast.load (abreast : s.Abreast old loaded) (alert : Alert s) (manages : Manages b s)
    (path : String) (lines : List UInt32) :
    let s' : Setup := { s with host := (s.host.load path lines).2 }
    let unit := (s.host.load path lines).1
    (if (s.engine.code.bind (·.subscription)).isSome then s'.unitLoaded unit else s').Abreast old
      (loaded ++ [unit]) := by
  intro s' unit
  obtain ⟨shelves, r, known, code, knows, since, first, all⟩ := abreast
  have shelves' : s'.host.Shelves (loaded ++ [unit]) := shelves.load path lines
  rw [code, Option.bind_some]
  have active := alert r code
  cases subscribed : r.subscription.isSome with
  | false =>
    rw [subscribed] at active
    refine ⟨shelves', r, known, code, knows, since, first.trans (List.prefix_append _ _),
      fun used => ?_⟩
    rw [active] at used
    cases used
  | true =>
    rw [subscribed] at active
    obtain ⟨wiring, last, told⟩ := (manages.load path lines).told [unit]
    have code' : s'.engine.code = some r := code
    rw [code'] at told
    refine ⟨shelves'.mono (congrArg Hooking.Wiring.units wiring)
      (congrArg Hooking.Wiring.listsUnits wiring) last, _, known ++ [unit], told,
      knows.registerAll [unit], since.trans (List.prefix_append _ _), ?_,
      fun _ => by rw [all active]⟩
    simp only [all active, List.prefix_refl]

theorem Abreast.track (abreast : s.Abreast old loaded) (alert : Alert s) (manages : Manages b s) :
    s.track.Abreast old loaded ∧ s.track.isTracking = true := by
  obtain ⟨shelves, r, known, code, knows, since, first, all⟩ := id abreast
  cases subscription : r.subscription with
  | some id =>
    rw [track_of_subscribed code subscription]
    have active := alert r code
    rw [subscription] at active
    refine ⟨abreast, ?_⟩
    unfold Setup.isTracking
    rw [code]
    exact active
  | none =>
    let subscribed := { s with host := (s.host.subscribeCompiles (.engine 0)).2 }.setCode
      fun c => { c with subscription := some (s.host.lastId + 1) }
    have shelves' : subscribed.host.Shelves loaded := shelves.mono rfl rfl (Nat.le_succ _)
    have told := (manages.subscribeCompiles code subscription).told
      (s.host.subscribeCompiles (.engine 0)).2.loadedUnits
    rw [track_of_idle code subscription manages.number]
    have listed : (s.host.subscribeCompiles (.engine 0)).2.loadedUnits = loaded :=
      shelves'.loadedUnits
    rw [listed] at told ⊢
    obtain ⟨wiring, last, code'⟩ := told
    have registered : subscribed.engine.code =
        some { r with subscription := some (s.host.lastId + 1) } := congrArg (Option.map _) code
    have code' : (loaded.foldl unitLoaded subscribed).engine.code =
        some (CodeRegistry.registerAll { r with subscription := some (s.host.lastId + 1) }
          loaded) := by
      rw [code', registered]
      rfl
    have knows' : CodeRegistry.Knows { r with subscription := some (s.host.lastId + 1) } known :=
      knows
    have registry := congrArg (Option.map fun c : CodeRegistry => { c with active := true }) code'
    refine ⟨⟨shelves'.mono (congrArg Hooking.Wiring.units wiring)
      (congrArg Hooking.Wiring.listsUnits wiring) last, _, loaded, registry,
      (knows'.registerAll loaded).again first, since.trans first, List.prefix_rfl,
      fun _ => rfl⟩, ?_⟩
    exact congrArg (Option.any (·.active)) registry

theorem Abreast.untrack (abreast : s.Abreast old loaded) : s.untrack.Abreast old loaded := by
  unfold Setup.untrack
  split
  · rename_i units active id listeners code
    obtain ⟨shelves, r, known, code', knows, since, first, -⟩ := abreast
    cases code'.symm.trans code
    exact ⟨shelves.mono rfl rfl (Nat.le_refl _), _, known, congrArg (Option.map _) code, knows,
      since, first, fun used => by cases used⟩
  · exact abreast

theorem Abreast.subscribe (abreast : s.Abreast old loaded) : s.subscribe.Abreast old loaded := by
  obtain ⟨shelves, r, known, code, knows, since, first, all⟩ := abreast
  unfold Setup.subscribe
  cases s.engine.hooks.definitions with
  | some id => exact ⟨shelves, _, known, congrArg (Option.map _) code, knows, since, first, all⟩
  | none =>
    exact ⟨shelves.mono rfl rfl (Nat.le_succ _), _, known, congrArg (Option.map _) code, knows,
      since, first, all⟩

end Setup

namespace World

open CodeRegistry

variable {w : World} {old loaded : List CompiledUnit}

def lookup (location : String) (w : World) : Option CompiledUnit :=
  (w.setup?.bind (·.engine.code)).bind (·.lookup location)

def loading (w : World) : LineCommand → List CompiledUnit
  | .load path lines => [(w.load path lines).1]
  | _ => []

def loadings (w : World) : List LineCommand → List CompiledUnit
  | [] => []
  | c :: rest => w.loading c ++ (w.heed c).loadings rest

theorem file_loadings (commands : List LineCommand) (w : World) :
    (w.loadings commands).map (·.file) = commands.filterMap fun
      | .load path lines => some (path, lines)
      | _ => none := by
  induction commands generalizing w with
  | nil => rfl
  | cons c rest ih =>
    unfold loadings
    rw [List.map_append, ih]
    cases c <;> rfl

def Abreast (old loaded : List CompiledUnit) (w : World) : Prop :=
  ∃ b, w.Lined b ∧ ∃ s, w.setup? = some s ∧ s.Abreast old loaded

theorem abreast_opened (e : Engine) (w : World) :
    (w.opened { e with code := some {} }).Abreast [] [] :=
  ⟨{}, lined_opened _ w, _, rfl,
    ⟨rfl, List.Perm.nil, List.Pairwise.nil, fun u member => by cases member⟩,
    {}, [], rfl, fun _ => rfl, List.prefix_rfl, List.prefix_rfl, fun _ => rfl⟩

theorem Abreast.inSetup {b : Lineup} {α : Type} {f : Setup → α × Setup}
    (lined : (w.inSetup 0 f).2.Lined b) {s : Setup} (there : w.setup? = some s)
    (abreast : (f s).2.Abreast old loaded) : (w.inSetup 0 f).2.Abreast old loaded :=
  ⟨b, lined, _, (setup?_inSetup there f).2, abreast⟩

theorem Abreast.heed (abreast : w.Abreast old loaded) (c : LineCommand)
    (own : ∀ path unit, c ≠ .register path unit) :
    (w.heed c).Abreast old (loaded ++ w.loading c) := by
  obtain ⟨b, lined, s, there, abreast⟩ := abreast
  have lined' := lined.heed c
  obtain ⟨s', there', manages, alert⟩ := lined
  cases there.symm.trans there'
  have meets := manages.meets
  -- a command that leaves the registry alone and the host connected as before
  have kept : ∀ {α : Type} {f : Hooking → α × Hooking}, (f s.held).2.wiring = s.held.wiring →
      s.host.lastId ≤ (f s.held).2.host.lastId → (s.hooking f).2.Abreast old loaded :=
    fun wiring last => abreast.of_wiring wiring last rfl
  have idle : ∀ {w' : World}, w'.Abreast old loaded → w'.Abreast old (loaded ++ []) := by
    intro w' abreast'
    rwa [List.append_nil]
  cases c with
  | load path lines =>
    refine ⟨_, lined', _, setup?_load there manages.compiles path lines, ?_⟩
    have same : w.host = s.host := by
      obtain ⟨e, -, rfl⟩ := Option.map_eq_some_iff.mp there
      rfl
    show Setup.Abreast old (loaded ++ [(w.host.load path lines).1]) _
    rw [same]
    exact abreast.load alert manages path lines
  | hook path line callback =>
    exact idle (Abreast.inSetup lined' there
      (kept (meets.hookLine s.engine.code (.ofPath path line) callback).2.2
        (Hooking.lastId_le_hookLine s.engine.code (.ofPath path line) callback s.held)))
  | hookWhenDefined path line callback =>
    exact idle (Abreast.inSetup lined' there
      (kept (meets.hookWhenDefined s.engine.code (.ofPath path line) callback).2.2
        (Hooking.lastId_le_hookWhenDefined s.engine.code (.ofPath path line) callback s.held)))
  | installPending path =>
    exact idle (Abreast.inSetup lined' there (abreast.of_wiring
      (Setup.wiring_fileKnown manages path) (Setup.lastId_le_fileKnown path s)
      (Setup.code_fileKnown s path)))
  | unhook target =>
    refine idle (Abreast.inSetup lined' there ?_)
    cases target with
    | method m =>
      refine kept ?_ ?_ <;> rw [meets.unhook_method m]
      exact Nat.le_refl _
    | line l =>
      exact kept (meets.unhookLine l).2 (Nat.le_of_eq (Hooking.lastId_unhookLine l s.held).symm)
  | clearPending target =>
    refine idle (Abreast.inSetup lined' there ?_)
    cases target <;> exact kept rfl (Nat.le_refl _)
  | clearHooks =>
    refine idle (Abreast.inSetup lined' there (kept ?_ ?_)) <;> dsimp only <;>
      rw [meets.clearHooks_eq]
    · rfl
    · exact Nat.le_refl _
  | close =>
    obtain ⟨units, lists, last⟩ := meets.close_stock
    exact idle (Abreast.inSetup lined' there
      (abreast.of_host units lists (Nat.le_of_eq last.symm) rfl))
  | subscribe => exact idle (Abreast.inSetup lined' there abreast.subscribe)
  | track => exact idle (Abreast.inSetup lined' there (abreast.track alert manages).1)
  | untrack => exact idle (Abreast.inSetup lined' there abreast.untrack)
  | register path unit => exact absurd rfl (own path unit)

theorem Abreast.foldl_heed (commands : List LineCommand)
    (own : ∀ path unit, .register path unit ∉ commands) (abreast : w.Abreast old loaded) :
    (commands.foldl World.heed w).Abreast old (loaded ++ w.loadings commands) := by
  induction commands generalizing w loaded with
  | nil =>
    unfold loadings
    rwa [List.append_nil]
  | cons c rest ih =>
    have first : ∀ path unit, c ≠ .register path unit := fun path unit same =>
      own path unit (same ▸ List.mem_cons_self)
    have later : ∀ path unit, .register path unit ∉ rest := fun path unit member =>
      own path unit (List.mem_cons_of_mem c member)
    unfold loadings
    rw [← List.append_assoc]
    exact ih later (abreast.heed c first)

theorem Abreast.isTracking (abreast : w.Abreast old loaded) :
    (w.heed .track).isTracking = true := by
  obtain ⟨b, ⟨s, there, manages, alert⟩, s', there', abreast⟩ := abreast
  cases there.symm.trans there'
  have later : (w.heed .track).setup? = some s.track :=
    (setup?_inSetup there fun s => ((), Setup.track s)).2
  unfold World.isTracking
  rw [later]
  exact (abreast.track alert manages).2

theorem Abreast.lookup (abreast : w.Abreast old loaded) :
    ∃ known, old <+: known ∧ (w.isTracking = true → known = loaded) ∧ w.Abreast known loaded ∧
      ∀ location, w.lookup location =
        (firstUnder location known).or (firstUnder (Text.basename location) known) := by
  obtain ⟨b, lined, s, there, shelves, r, known, code, knows, since, first, all⟩ := abreast
  refine ⟨known, since, fun used => all ?_,
    ⟨b, lined, s, there, shelves, r, known, code, knows, List.prefix_rfl, first, all⟩,
    fun location => ?_⟩
  · unfold World.isTracking at used
    rw [there, Option.any_some] at used
    unfold Setup.isTracking at used
    rwa [code, Option.any_some] at used
  · unfold World.lookup
    rw [there, Option.bind_some, code, Option.bind_some]
    exact knows.lookup location

/-- However often a registry that only its host tells of units stops and starts, while it is used it
answers as if it had been told of all that was loaded, from the first unit on; and a unit that is
found under a key of its own is found there for good. -/
theorem tracking_caught_up (engine : Engine) (w : World) (commands : List LineCommand)
    (own : ∀ path unit, .register path unit ∉ commands) :
    let opened := w.opened { engine with code := some {} }
    let now := commands.foldl heed opened
    let loaded := opened.loadings commands
    (now.isTracking = true → ∀ location,
      now.lookup location = (CodeRegistry.registerAll {} loaded).lookup location ∧
      now.lookup location =
        (firstUnder location loaded).or (firstUnder (Text.basename location) loaded)) ∧
    ∀ later : List LineCommand, (∀ path unit, .register path unit ∉ later) → ∀ key u,
      now.lookup key = some u → key ∈ keysOf u.path →
        (later.foldl heed now).lookup key = some u := by
  intro opened now loaded
  have abreast : now.Abreast [] loaded := (abreast_opened engine w).foldl_heed commands own
  obtain ⟨known, -, all, abreast, found⟩ := abreast.lookup
  refine ⟨fun used location => ?_, fun later own' key u there mine => ?_⟩
  · have entire := (CodeRegistry.knows_registerAll loaded).lookup location
    have answer := found location
    rw [all used] at answer
    exact ⟨answer.trans entire.symm, answer⟩
  · obtain ⟨known', since, -, -, found'⟩ := (abreast.foldl_heed later own').lookup
    rw [found key] at there
    rw [found' key, firstUnder_of_prefix since (firstUnder_of_own mine there),
      Option.some_or]

namespace Sample

def interrupted : List LineCommand :=
  [.load "/app/f.rb" [10], .track, .load "/lib/f.rb" [20], .untrack, .load "/app/f.rb" [30],
    .load "/lib/g.rb" [40], .track]

def reloading : List LineCommand := [.load "/lib/g.rb" [50], .untrack, .track]

end Sample

open Sample in
theorem tracking_caught_up_interrupted :
    let opened := ({} : World).opened { engine with code := some {} }
    let now := interrupted.foldl heed opened
    let again := reloading.foldl heed now
    (∀ location, now.lookup location =
      (CodeRegistry.registerAll {} (opened.loadings interrupted)).lookup location) ∧
      (now.lookup "f.rb").map (·.file) = some ("/app/f.rb", [10]) ∧
      (now.lookup "g.rb").map (·.file) = some ("/lib/g.rb", [40]) ∧
      again.lookup "g.rb" = now.lookup "g.rb" := by
  intro opened now again
  have own : ∀ path unit, .register path unit ∉ interrupted := by simp [interrupted]
  have own' : ∀ path unit, .register path unit ∉ reloading := by simp [reloading]
  -- the last command is a start
  have used : now.isTracking = true :=
    ((abreast_opened engine {}).foldl_heed interrupted.dropLast (by simp [interrupted])).isTracking
  have files := file_loadings interrupted opened
  obtain ⟨answers, kept⟩ := tracking_caught_up engine {} interrupted own
  have answer : ∀ key, (now.lookup key).map (·.file) =
      (fileUnder key ((opened.loadings interrupted).map (·.file))).or
        (fileUnder (Text.basename key) ((opened.loadings interrupted).map (·.file))) :=
    fun key => by rw [(answers used key).2, Option.map_or, file_firstUnder, file_firstUnder]
  rw [files] at answer
  have first : (now.lookup "f.rb").map (·.file) = some ("/app/f.rb", [10]) :=
    (answer "f.rb").trans (by decide +kernel)
  have second : (now.lookup "g.rb").map (·.file) = some ("/lib/g.rb", [40]) :=
    (answer "g.rb").trans (by decide +kernel)
  obtain ⟨u, found, file⟩ := Option.map_eq_some_iff.mp second
  have path : u.path = "/lib/g.rb" := congrArg Prod.fst file
  refine ⟨fun location => (answers used location).1, first, second, ?_⟩
  rw [found]
  refine kept reloading own' "g.rb" u found ?_
  rw [path]
  decide +kernel

end World
end LiveProbe
