import LiveProbe.Proofs.Line.Stock

/-!
Hooks that wait for a file that the registry knows. When a file becomes known, what waits for it is
tried, with two exceptions. Units that become known before the registry is used are told of too
early, for lines can not be traced in units yet; and of a unit that is registered under another base
name than its own, the hooks are told by its own path. A file that is overlooked so is not told of
again.
-/
namespace LiveProbe

namespace LineCommand

def asks : LineCommand → Bool
  | .hook .. | .hookWhenDefined .. => true
  | _ => false

def misses (file : String) (w : World) : LineCommand → Bool
  | .track => true
  | .register _ unit => !w.isTracking || Text.basename unit.path != file
  | _ => false

end LineCommand

namespace Lineup

variable {b : Lineup} {l : SourceLine} {c : Callback}

theorem waiting_assign (l other : SourceLine) (p : Option Posting) (waits : Option Callback)
    (b : Lineup) :
    (b.assign l p waits).waiting other = if other = l then waits else b.waiting other :=
  Function.update_apply ..

theorem closed_follow {w w' : World} {command : LineCommand} (stays : command ≠ .close) :
    (b.follow w w' command).closed = b.closed := by
  cases command with
  | load path lines =>
    rw [follow]
    split
    · exact closed_attend path
    · rfl
  | register path unit =>
    rw [follow]
    split
    · exact closed_attend unit.path
    · rfl
  | installPending path => exact closed_attend path
  | unhook target => cases target <;> rfl
  | clearPending target => cases target <;> rfl
  | close => exact absurd rfl stays
  | _ => rfl

theorem waiting_follow {w w' : World} {command : LineCommand}
    (waits : (b.follow w w' command).waiting l = some c) :
    b.waiting l = some c ∨ ∃ path line, command = .hookWhenDefined path line c ∧
      l = .ofPath path line ∧ w.prospect l = .unknown := by
  cases command with
  | hookWhenDefined path line callback =>
    rw [follow, hookWhenDefined, waiting_assign] at waits
    split at waits
    · rename_i own
      split at waits
      · rename_i unknown
        cases waits
        exact Or.inr ⟨path, line, rfl, own, own ▸ unknown⟩
      · exact Or.inl (own ▸ waits)
    · exact Or.inl waits
  | hook path line callback =>
    rw [follow, hook, waiting_assign] at waits
    split at waits
    · rename_i own
      exact Or.inl (own ▸ waits)
    · exact Or.inl waits
  | load path lines =>
    rw [follow] at waits
    split at waits
    · exact Or.inl (waiting_attend waits)
    · exact Or.inl waits
  | register path unit =>
    rw [follow] at waits
    split at waits
    · exact Or.inl (waiting_attend waits)
    · exact Or.inl waits
  | installPending path => exact Or.inl (waiting_attend waits)
  | unhook target =>
    cases target with
    | method m => exact Or.inl waits
    | line other =>
      rw [follow, waiting_assign] at waits
      split at waits
      · rename_i own
        exact Or.inl (own ▸ waits)
      · exact Or.inl waits
  | clearPending target =>
    cases target with
    | method m => exact Or.inl waits
    | line other =>
      rw [follow, waiting_assign] at waits
      split at waits
      · cases waits
      · exact Or.inl waits
  | close => cases waits
  | clearHooks | subscribe | track | untrack => exact Or.inl waits

end Lineup

namespace World

variable {w : World} {b : Lineup} {r r' : CodeRegistry} {c : LineCommand}

def knows (file : String) (w : World) : Bool :=
  w.setup?.any fun s => s.engine.code.any fun r => (r.lookup file).isSome

def awaits (l : SourceLine) (w : World) : Bool :=
  w.setup?.any (·.engine.hooks.isPending (.line l))

/-- A command makes a file known, and what waits for it is not tried. -/
structure Overlooks (file : String) (c : LineCommand) (w : World) : Prop where
  unknown : w.knows file = false
  known : (w.heed c).knows file = true
  missed : c.misses file w = true

def admits (w : World) : LineCommand → Bool
  | .register _ unit => w.host.allUnits.contains unit
  | .close => false
  | _ => true

def admitsAll (w : World) : List LineCommand → Bool
  | [] => true
  | c :: rest => w.admits c && (w.heed c).admitsAll rest

inductive Learns (w : World) (r : CodeRegistry) : LineCommand → CodeRegistry → Prop where
  | nothing (c : LineCommand) (r' : CodeRegistry) (units : r'.units = r.units)
      (listens : ∀ x ∈ r.listeners, x ∈ r'.listeners) : Learns w r c r'
  | listed (r' : CodeRegistry) (more : r.Extends r') : Learns w r .track r'
  | loaded (path : String) (lines : List UInt32) (used : w.isTracking = true) :
      Learns w r (.load path lines) (r.register path (w.host.load path lines).1).2
  | registered (path : String) (unit : CompiledUnit) :
      Learns w r (.register path unit) (r.register path unit).2

theorem Learns.extends (learns : Learns w r c r') : r.Extends r' := by
  cases learns with
  | nothing _ _ units listens => exact ⟨fun key known => units ▸ known, listens⟩
  | listed _ more => exact more
  | loaded path lines _ => exact CodeRegistry.extends_register path _ r
  | registered path unit => exact CodeRegistry.extends_register path unit r

/-- An open manager holds of lines what is meant to be held, over a registry that knows only units
that are loaded. -/
structure Minded (b : Lineup) (r : CodeRegistry) (w : World) : Prop where
  setup : ∃ s, w.setup? = some s ∧ s.Manages b ∧ s.Alert ∧ s.Stocked r
  unclosed : b.closed = false
  base : ∀ l callback, b.waiting l = some callback → Text.basename l.file = l.file

theorem Minded.awaits (minded : w.Minded b r) (l : SourceLine) :
    w.awaits l = (b.waiting l).isSome := by
  obtain ⟨s, there, manages, -, -⟩ := minded.setup
  unfold World.awaits
  rw [there]
  exact congrArg Option.isSome (manages.meets.waiting l)

theorem Minded.base_of_awaits (minded : w.Minded b r) {l : SourceLine}
    (waits : w.awaits l = true) : Text.basename l.file = l.file := by
  rw [minded.awaits] at waits
  obtain ⟨callback, waiting⟩ := Option.isSome_iff_exists.mp waits
  exact minded.base l callback waiting

theorem Minded.knows (minded : w.Minded b r) {file : String} (base : Text.basename file = file) :
    w.knows file = Table.contains file r.units := by
  obtain ⟨s, there, -, -, stocked⟩ := minded.setup
  unfold World.knows
  rw [there, Option.any_some, stocked.code, Option.any_some, CodeRegistry.lookup_of_base base]
  rfl

theorem Minded.learns (minded : w.Minded b r) (admitted : w.admits c = true) :
    ∃ r' s', (w.heed c).setup? = some s' ∧ s'.Stocked r' ∧ w.Learns r c r' := by
  obtain ⟨s, there, manages, alert, stocked⟩ := minded.setup
  have unchanged : ∀ {s' : Setup}, (w.heed c).setup? = some s' → s'.Stocked r →
      ∃ r' s', (w.heed c).setup? = some s' ∧ s'.Stocked r' ∧ w.Learns r c r' :=
    fun there' stocked' => ⟨r, _, there', stocked', .nothing c r rfl fun _ h => h⟩
  have hooking : ∀ {α : Type} (f : Hooking → α × Hooking),
      (f s.held).2.wiring = s.held.wiring → (s.hooking f).2.Stocked r :=
    fun f wiring => stocked.of_wiring wiring rfl
  cases c with
  | load path lines =>
    have same : (s.host.load path lines).1 = (w.host.load path lines).1 := by
      obtain ⟨e, -, rfl⟩ := Option.map_eq_some_iff.mp there
      rfl
    have there' := setup?_load there manages.compiles path lines
    have used : w.isTracking = (s.engine.code.bind (·.subscription)).isSome := by
      unfold World.isTracking
      rw [there]
      exact alert.isTracking
    dsimp only at there'
    rw [← used] at there'
    cases tracking : w.isTracking with
    | false =>
      rw [tracking, if_neg Bool.false_ne_true] at there'
      exact unchanged there' (stocked.load path lines)
    | true =>
      rw [tracking, if_pos rfl] at there'
      have stocked' := (stocked.load path lines).registerUnit (manages.load path lines) path
        ((s.host.mem_allUnits_load path lines _).mpr (Or.inr rfl))
      rw [same] at stocked'
      exact ⟨_, _, there', same ▸ stocked', .loaded path lines tracking⟩
  | hook path line callback =>
    exact unchanged (setup?_inSetup there _).2
      (hooking _ (manages.meets.hookLine s.engine.code (.ofPath path line) callback).2.2)
  | hookWhenDefined path line callback =>
    exact unchanged (setup?_inSetup there _).2
      (hooking _ (manages.meets.hookWhenDefined s.engine.code (.ofPath path line) callback).2.2)
  | installPending path =>
    exact unchanged (setup?_inSetup there fun s => ((), s.fileKnown path)).2
      (stocked.of_wiring (Setup.wiring_fileKnown manages path) (Setup.code_fileKnown s path))
  | unhook target =>
    refine unchanged (setup?_inSetup there _).2 (hooking _ ?_)
    cases target with
    | method m => rw [manages.meets.unhook_method m]
    | line l => exact (manages.meets.unhookLine l).2
  | clearPending target =>
    refine unchanged (setup?_inSetup there fun s => s.onHooks (·.clearPending target)).2
      (stocked.of_wiring ?_ rfl)
    cases target <;> rfl
  | clearHooks =>
    refine unchanged (setup?_inSetup there _).2 (hooking _ ?_)
    dsimp only
    rw [manages.meets.clearHooks_eq]
    rfl
  | close => cases admitted
  | subscribe =>
    exact ⟨_, _, (setup?_inSetup there fun s => ((), s.subscribe)).2, stocked.subscribe,
      .nothing _ _ rfl fun x listens => List.mem_append_left _ listens⟩
  | track =>
    obtain ⟨r', more, stocked', -⟩ := stocked.track manages alert
    exact ⟨r', _, (setup?_inSetup there fun s => ((), s.track)).2, stocked', .listed r' more⟩
  | untrack =>
    obtain ⟨r', units, listeners, stocked'⟩ := stocked.untrack
    exact ⟨r', _, (setup?_inSetup there fun s => ((), s.untrack)).2, stocked',
      .nothing _ _ units fun x listens => listeners ▸ listens⟩
  | register path unit =>
    have host : w.host = s.host := by
      obtain ⟨e, -, rfl⟩ := Option.map_eq_some_iff.mp there
      rfl
    have loaded : unit ∈ s.host.allUnits := host ▸ List.contains_iff_mem.mp admitted
    exact ⟨_, _, (setup?_inSetup there _).2, stocked.registerUnit manages path loaded,
      .registered path unit⟩

theorem isTracking_of_setup {s : Setup} (there : w.setup? = some s) :
    w.isTracking = s.isTracking := by
  unfold World.isTracking
  rw [there]
  rfl

theorem reports_of_setup {s : Setup} (there : w.setup? = some s) (path : String)
    (unit : CompiledUnit) : w.reports path unit = s.reports path unit := by
  unfold World.reports
  rw [there]
  rfl

theorem Minded.heed (minded : w.Minded b r) (admitted : w.admits c = true) :
    ∃ r', (w.heed c).Minded (b.follow w (w.heed c) c) r' ∧ w.Learns r c r' := by
  obtain ⟨r', s', there', stocked', learns⟩ := minded.learns admitted
  obtain ⟨s, there, manages, alert, -⟩ := minded.setup
  obtain ⟨s'', there'', manages', alert'⟩ := Lined.heed ⟨s, there, manages, alert⟩ c
  cases there'.symm.trans there''
  refine ⟨r', ⟨⟨s', there', manages', alert', stocked'⟩, ?_, fun l callback waits => ?_⟩, learns⟩
  · rw [Lineup.closed_follow fun close => by rw [close] at admitted; cases admitted]
    exact minded.unclosed
  · rcases Lineup.waiting_follow waits with before | ⟨path, line, -, rfl, -⟩
    · exact minded.base l callback before
    · exact Text.basename_idem path

theorem Minded.step (minded : w.Minded b r) (admitted : w.admits c = true)
    (listens : CodeListener.hooks ∈ r.listeners) {l : SourceLine}
    (waits : (w.heed c).awaits l = true) (known : (w.heed c).knows l.file = true) :
    w.awaits l = true ∧ (w.knows l.file = true ∨ w.Overlooks l.file c) := by
  obtain ⟨r', minded', learns⟩ := minded.heed admitted
  have base := minded'.base_of_awaits waits
  have isKnown := known
  rw [minded'.knows base] at isKnown
  rw [minded'.awaits] at waits
  have before : w.awaits l = true := by
    rw [minded.awaits]
    obtain ⟨callback, waiting⟩ := Option.isSome_iff_exists.mp waits
    rcases Lineup.waiting_follow waiting with old | ⟨path, line, rfl, -, unknown⟩
    · rw [old]
      rfl
    · -- a request does not make the file known for which it has to wait
      obtain ⟨s, there, -, -, stocked⟩ := minded.setup
      rw [prospect_of_setup there] at unknown
      cases learns with
      | nothing _ _ units _ =>
        rw [units, stocked.known_of_unknown base unknown] at isKnown
        cases isKnown
  refine ⟨before, ?_⟩
  cases already : w.knows l.file with
  | true => exact Or.inl rfl
  | false =>
    refine Or.inr ⟨already, known, ?_⟩
    have unknown := already
    rw [minded.knows base] at unknown
    obtain ⟨s, there, -, -, stocked⟩ := minded.setup
    obtain ⟨s', there', -, alert', stocked'⟩ := minded'.setup
    cases learns with
    | nothing _ _ units _ =>
      rw [units, unknown] at isKnown
      cases isKnown
    | listed => rfl
    | loaded path lines used =>
      have own : l.file = Text.basename path := by
        rcases (CodeRegistry.contains_register path _ r).mp isKnown with old | key
        · rw [unknown] at old
          cases old
        · exact ((CodeRegistry.mem_keysOf base).mp key).2.symm
      have used' : s.isTracking = true := (isTracking_of_setup there).symm.trans used
      obtain ⟨reports, attended⟩ := stocked.attended stocked' used' minded.unclosed listens rfl
        base unknown isKnown own
      have tried : (b.attend s'.prospect path).waiting l = none := attended
      rw [Lineup.follow, used, reports_of_setup there, reports, prospect_of_setup there',
        Bool.and_self, if_pos rfl, tried] at waits
      cases waits
    | registered path unit =>
      by_cases missed : w.isTracking = true ∧ Text.basename unit.path = l.file
      · obtain ⟨used, own⟩ := missed
        have used' : s.isTracking = true := (isTracking_of_setup there).symm.trans used
        obtain ⟨reports, tried⟩ := stocked.attended stocked' used' minded.unclosed listens rfl base
          unknown isKnown own.symm
        rw [Lineup.follow, reports_of_setup there, reports, if_pos rfl, prospect_of_setup there',
          tried] at waits
        cases waits
      · unfold LineCommand.misses
        rw [Bool.or_eq_true, Bool.not_eq_true', bne_iff_ne]
        rcases Classical.not_and_iff_not_or_not.mp missed with idle | other
        · exact Or.inl (Bool.eq_false_iff.mpr idle)
        · exact Or.inr other

/-- Hooks that have been waiting for a file since before it became known. -/
def Neglects (l : SourceLine) (commands : List LineCommand) (w : World) : Prop :=
  ∃ pre c post, commands = pre ++ c :: post ∧ (pre.foldl World.heed w).Overlooks l.file c ∧
    ∀ early, early <+: c :: post → ((pre ++ early).foldl World.heed w).awaits l = true

theorem admitsAll_append (first second : List LineCommand) (w : World) :
    w.admitsAll (first ++ second) =
      (w.admitsAll first && (first.foldl World.heed w).admitsAll second) := by
  induction first generalizing w with
  | nil => rfl
  | cons c rest ih =>
    show (w.admits c && (w.heed c).admitsAll (rest ++ second)) = _
    rw [ih, ← Bool.and_assoc]
    rfl

/-- An open manager that listens to its registry. -/
def Heedful (w : World) : Prop := ∃ b r, w.Minded b r ∧ CodeListener.hooks ∈ r.listeners

theorem Heedful.heed (heedful : w.Heedful) (admitted : w.admits c = true) : (w.heed c).Heedful := by
  obtain ⟨b, r, minded, listens⟩ := heedful
  obtain ⟨r', minded', learns⟩ := minded.heed admitted
  exact ⟨_, r', minded', learns.extends.listens _ listens⟩

theorem Heedful.run (commands : List LineCommand) :
    ∀ {w : World}, w.Heedful → w.admitsAll commands = true →
      (commands.foldl World.heed w).Heedful := by
  induction commands with
  | nil => exact fun heedful _ => heedful
  | cons c rest ih =>
    intro w heedful admitted
    obtain ⟨first, later⟩ := (Bool.and_eq_true _ _).mp admitted
    exact ih (heedful.heed first) later

theorem Minded.knows_heed (minded : w.Minded b r) (admitted : w.admits c = true) {file : String}
    (base : Text.basename file = file) (known : w.knows file = true) :
    (w.heed c).knows file = true := by
  obtain ⟨r', minded', learns⟩ := minded.heed admitted
  rw [minded.knows base] at known
  rw [minded'.knows base]
  exact learns.extends.keeps file known

theorem Heedful.knows_run {file : String} (base : Text.basename file = file)
    (commands : List LineCommand) :
    ∀ {w : World}, w.Heedful → w.admitsAll commands = true → w.knows file = true →
      (commands.foldl World.heed w).knows file = true := by
  induction commands with
  | nil => exact fun _ _ known => known
  | cons c rest ih =>
    intro w heedful admitted known
    obtain ⟨first, later⟩ := (Bool.and_eq_true _ _).mp admitted
    obtain ⟨b, r, minded, listens⟩ := heedful
    exact ih (Heedful.heed ⟨b, r, minded, listens⟩ first) later (minded.knows_heed first base known)

section Neglect

variable {l : SourceLine} {commands : List LineCommand}

theorem Overlooks.neglects (overlooks : (commands.foldl World.heed w).Overlooks l.file c)
    (waited : (commands.foldl World.heed w).awaits l = true)
    (waits : ((commands ++ [c]).foldl World.heed w).awaits l = true) :
    w.Neglects l (commands ++ [c]) := by
  refine ⟨commands, c, [], rfl, overlooks, fun early shorter => ?_⟩
  rcases List.prefix_concat_iff.mp (show early <+: [] ++ [c] from shorter) with all | none
  · rw [all]
    exact waits
  · rw [List.prefix_nil.mp none, List.append_nil]
    exact waited

theorem Neglects.append (neglects : w.Neglects l commands)
    (waits : ((commands ++ [c]).foldl World.heed w).awaits l = true) :
    w.Neglects l (commands ++ [c]) := by
  obtain ⟨pre, first, post, rfl, overlooks, since⟩ := neglects
  refine ⟨pre, first, post ++ [c], by simp, overlooks, fun early shorter => ?_⟩
  rcases List.prefix_concat_iff.mp (show early <+: first :: post ++ [c] from shorter) with
    all | shorter
  · rw [all, ← List.append_assoc]
    exact waits
  · exact since early shorter

theorem Neglects.now (neglects : w.Neglects l commands) (heedful : w.Heedful)
    (admitted : w.admitsAll commands = true) :
    (commands.foldl World.heed w).awaits l = true ∧
      (commands.foldl World.heed w).knows l.file = true := by
  obtain ⟨pre, first, post, rfl, overlooks, since⟩ := neglects
  refine ⟨since _ (List.prefix_refl _), ?_⟩
  rw [admitsAll_append] at admitted
  obtain ⟨before, after⟩ := (Bool.and_eq_true _ _).mp admitted
  obtain ⟨admits, later⟩ := (Bool.and_eq_true _ _).mp after
  have waited := since [] List.nil_prefix
  rw [List.append_nil] at waited
  obtain ⟨b, r, minded, listens⟩ := heedful.run pre before
  have overlooking := Heedful.heed ⟨b, r, minded, listens⟩ admits
  rw [List.foldl_append]
  exact overlooking.knows_run (minded.base_of_awaits waited) post later overlooks.known

theorem Heedful.neglects (heedful : w.Heedful) (commands : List LineCommand)
    (noticed : w.knows l.file = true → w.awaits l = false) :
    w.admitsAll commands = true → (commands.foldl World.heed w).awaits l = true →
      (commands.foldl World.heed w).knows l.file = true → w.Neglects l commands := by
  induction commands using List.reverseRecOn with
  | nil =>
    intro _ waits known
    have none : w.awaits l = false := noticed known
    have waits : w.awaits l = true := waits
    rw [none] at waits
    cases waits
  | append_singleton commands c ih =>
    intro admitted waits known
    rw [admitsAll_append] at admitted
    obtain ⟨before, last⟩ := (Bool.and_eq_true _ _).mp admitted
    have admits := ((Bool.and_eq_true _ _).mp last).1
    obtain ⟨b, r, minded, listens⟩ := heedful.run commands before
    have waits' := waits
    rw [List.foldl_append] at waits' known
    obtain ⟨waited, either⟩ := minded.step admits listens waits' known
    rcases either with already | overlooks
    · exact (ih before waited already).append waits
    · exact overlooks.neglects waited waits

end Neglect

/-! Until a hook is asked for, nothing waits. -/

theorem minded_opened (engine : Engine) (w : World) : (w.opened engine.targeted).Minded {} {} := by
  obtain ⟨s, there, manages, alert⟩ := lined_opened engine.targeted w
  refine ⟨⟨s, there, manages, alert, ?_⟩, rfl, fun l callback waits => (by cases waits)⟩
  cases there
  exact ⟨rfl, fun e member => (by cases member), rfl⟩

theorem Minded.unasked (commands : List LineCommand) :
    ∀ {b : Lineup} {r : CodeRegistry} {w : World}, w.Minded b r → (∀ l, b.waiting l = none) →
      (∀ c ∈ commands, c.asks = false) → w.admitsAll commands = true →
      ∃ b' r', (commands.foldl World.heed w).Minded b' r' ∧ ∀ l, b'.waiting l = none := by
  induction commands with
  | nil => exact fun minded idle _ _ => ⟨_, _, minded, idle⟩
  | cons c rest ih =>
    intro b r w minded idle unasked admitted
    obtain ⟨first, later⟩ := (Bool.and_eq_true _ _).mp admitted
    obtain ⟨r', minded', -⟩ := minded.heed first
    refine ih minded' (fun l => ?_) (fun c' member => unasked c' (List.mem_cons_of_mem _ member))
      later
    cases waiting : (b.follow w (w.heed c) c).waiting l with
    | none => rfl
    | some callback =>
      rcases Lineup.waiting_follow waiting with old | ⟨path, line, rfl, -⟩
      · rw [idle l] at old
        cases old
      · cases unasked _ List.mem_cons_self

theorem Minded.subscribe (minded : w.Minded b r) (idle : ∀ l, b.waiting l = none) :
    (w.heed .subscribe).Heedful ∧ ∀ l, (w.heed .subscribe).awaits l = false := by
  obtain ⟨r', minded', -⟩ := minded.heed (c := .subscribe) rfl
  obtain ⟨s, there, -, -, stocked⟩ := minded.setup
  obtain ⟨s', there', manages', alert', -⟩ := minded'.setup
  have subscribed : (w.heed .subscribe).setup? = some s.subscribe :=
    (setup?_inSetup there fun s => ((), s.subscribe)).2
  cases subscribed.symm.trans there'
  refine ⟨⟨b, _, ⟨⟨_, there', manages', alert', stocked.subscribe⟩, minded'.unclosed, minded'.base⟩,
    List.mem_append_right _ List.mem_cons_self⟩, fun l => ?_⟩
  rw [minded'.awaits]
  show (b.waiting l).isSome = false
  rw [idle l]
  rfl

/-- An open manager that traces lines in units only, and that listened to its registry before a hook
was asked for. A hook waits for a file that the registry knows if and only if the file was
overlooked, and the hook has been waiting since before that: the unit of the file became known when
tracking started, or was registered while nothing was tracked, or under another base name than its
own. -/
theorem awaits_known_iff_neglects (engine : Engine) (before after : List LineCommand) (w : World)
    (unasked : ∀ c ∈ before, c.asks = false)
    (admitted : (w.opened engine.targeted).admitsAll (before ++ .subscribe :: after) = true)
    (l : SourceLine) :
    let start := ((before.foldl World.heed (w.opened engine.targeted)).heed .subscribe)
    (after.foldl World.heed start).awaits l = true ∧
        (after.foldl World.heed start).knows l.file = true ↔ start.Neglects l after := by
  rw [admitsAll_append] at admitted
  obtain ⟨first, later⟩ := (Bool.and_eq_true _ _).mp admitted
  obtain ⟨b, r, minded, idle⟩ :=
    (minded_opened engine w).unasked before (fun l => rfl) unasked first
  obtain ⟨heedful, silent⟩ := minded.subscribe idle
  have admitted' := ((Bool.and_eq_true _ _).mp later).2
  exact ⟨fun both => heedful.neglects after (fun _ => silent l) admitted' both.1 both.2,
    fun neglects => neglects.now heedful admitted'⟩

namespace Sample

def listing : List LineCommand :=
  [.hookWhenDefined "f.rb" 10 (.record "h"), .untrack, .load "/app/f.rb" [10], .track]

def aliasing : List LineCommand :=
  [.hookWhenDefined "g.rb" 10 (.record "h"), .load "/app/f.rb" [10],
    .register "/app/g.rb" ⟨3, "/app/f.rb", [10]⟩]

end Sample

open Sample

/-- A file that is listed when tracking starts is overlooked. -/
theorem neglects_listing :
    (∀ c ∈ [LineCommand.track], c.asks = false) ∧
      (({} : World).opened engine.targeted).admitsAll ([.track] ++ .subscribe :: listing) = true ∧
      ((([LineCommand.track]).foldl World.heed (({} : World).opened engine.targeted)).heed
        .subscribe).Neglects ⟨"f.rb", 10⟩ listing :=
  ⟨by decide, by decide +kernel,
    (awaits_known_iff_neglects engine [.track] listing {} (by decide) (by decide +kernel)
      ⟨"f.rb", 10⟩).mp ⟨by decide +kernel, by decide +kernel⟩⟩

/-- Both ways in which a hook comes to wait for a known file while tracking is active. -/
theorem awaits_known_tracking :
    let start := ((({} : World).opened engine.targeted).heed .track).heed .subscribe
    let listed := listing.foldl World.heed start
    let aliased := aliasing.foldl World.heed start
    start.admitsAll listing = true ∧ listed.isTracking = true ∧
      listed.awaits ⟨"f.rb", 10⟩ = true ∧ listed.knows "f.rb" = true ∧
      start.admitsAll aliasing = true ∧ aliased.isTracking = true ∧
      aliased.awaits ⟨"g.rb", 10⟩ = true ∧ aliased.knows "g.rb" = true := by
  decide +kernel

end World
end LiveProbe
