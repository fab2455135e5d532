import LiveProbe.Proofs.Dispatch.Handling
import LiveProbe.Proofs.Engine.Following

/-!
Managers of one host do what they are meant to do: every command does to managers and host what it
does to the switchboard, and a definition reaches those who follow definitions, and no others.
-/
namespace LiveProbe

open Function (update)

namespace World

def numbers (w : World) (n : Nat) : Nat := (w.engines[n]?.map (·.hooks.lastInstallation)).getD 0

theorem numbers_eq_update {w w' : World} {n : Nat} {e : Engine} (found : w'.engines[n]? = some e)
    (others : ∀ k, k ≠ n → w'.engines[k]? = w.engines[k]?) :
    w'.numbers = update w.numbers n e.hooks.lastInstallation := by
  funext k
  by_cases same : k = n
  · subst same
    rw [Function.update_self, numbers, found]
    rfl
  · rw [Function.update_of_ne same, numbers, others k same, ← numbers]

structure Mirrored (b : Switchboard) (w : World) : Prop where
  willing : ∀ c t, w.host.refuses c t = none
  numbered : w.host.Numbered
  count : w.engines.length = b.desks.length
  managers : ∀ (n : Nat) (e : Engine), w.engines[n]? = some e → e.hooks.manager = n
  desks : ∀ (n : Nat) (e : Engine) (d : Desk), w.engines[n]? = some e → b.desks[n]? = some d →
    Mirrors d w.host e.hooks
  chained : ∀ m, w.host.Chained w.numbers m (b.defined m)

variable {b : Switchboard} {w w' : World} {n : Nat}

theorem Mirrored.congr (mirrored : Mirrored b w) (host : w'.host = w.host)
    (engines : w'.engines = w.engines) : Mirrored b w' := by
  have numbers : w'.numbers = w.numbers := by
    funext n
    rw [World.numbers, engines, World.numbers]
  obtain ⟨willing, numbered, count, managers, desks, chained⟩ := mirrored
  rw [← host] at willing numbered desks chained
  rw [← engines] at count managers desks
  rw [← numbers] at chained
  exact ⟨willing, numbered, count, managers, desks, chained⟩

theorem Mirrored.isDefined (mirrored : Mirrored b w) (m : MethodName) :
    (w.host.body? m).isSome = b.isDefined m := by
  have chained := mirrored.chained m
  unfold Host.Chained at chained
  unfold Switchboard.isDefined
  split at chained
  · rename_i undefined
    rw [undefined, chained]
    rfl
  · rename_i body found
    obtain ⟨code, same, -⟩ := chained
    rw [found, same]
    rfl

theorem Mirrored.exists_desk (mirrored : Mirrored b w) {e : Engine}
    (manager : w.engines[n]? = some e) : ∃ d, b.desks[n]? = some d := by
  have inside := (List.getElem?_eq_some_iff.mp manager).1
  rw [mirrored.count] at inside
  exact ⟨_, List.getElem?_eq_getElem inside⟩

theorem Mirrored.exists_manager (mirrored : Mirrored b w) {d : Desk}
    (desk : b.desks[n]? = some d) : ∃ e, w.engines[n]? = some e := by
  have inside := (List.getElem?_eq_some_iff.mp desk).1
  rw [← mirrored.count] at inside
  exact ⟨_, List.getElem?_eq_getElem inside⟩

theorem Mirrored.atDesk (mirrored : Mirrored b w) (n : Nat) {α : Type} {F : Setup → α × Setup}
    {f : Desk → Desk}
    (step : ∀ e d, w.engines[n]? = some e → Mirrors d w.host e.hooks →
      Hooking.Move (f d) (Setup.held ⟨w.host, e, w.journal, w.warnings⟩)
        (F ⟨w.host, e, w.journal, w.warnings⟩).2.held) :
    Mirrored (b.atDesk n f) (w.inSetup n F).2 := by
  cases found : w.engines[n]? with
  | none =>
    have outside : b.desks.length ≤ n := by
      rw [← mirrored.count]
      exact List.getElem?_eq_none_iff.mp found
    have same : b.atDesk n f = b := by
      unfold Switchboard.atDesk
      rw [List.modify_eq_self outside]
    rw [inSetup_of_none found, same]
    exact mirrored
  | some e =>
    have inside := (List.getElem?_eq_some_iff.mp found).1
    obtain ⟨d, desk⟩ := mirrored.exists_desk found
    have move := step e d found (mirrored.desks n e d found desk)
    have manager := mirrored.managers n e found
    unfold World.inSetup
    rw [found]
    dsimp only
    generalize (F ⟨w.host, e, w.journal, w.warnings⟩).2 = s' at move
    obtain ⟨shuffle, mirrors, manager'⟩ := move
    have number : (Setup.held ⟨w.host, e, w.journal, w.warnings⟩).hooks.manager = n := manager
    rw [number] at shuffle manager'
    have others : ∀ k, k ≠ n → (w.engines.set n s'.engine)[k]? = w.engines[k]? :=
      fun k other => List.getElem?_set_ne fun own => other own.symm
    have own : (w.engines.set n s'.engine)[n]? = some s'.engine := List.getElem?_set_self inside
    have before := numbers_eq_update found fun k _ => rfl
    constructor
    case willing =>
      show ∀ c t, s'.host.refuses c t = none
      rw [show s'.host.refuses = w.host.refuses from shuffle.refuses]
      exact mirrored.willing
    case numbered => exact shuffle.numbered mirrored.numbered
    case count =>
      rw [List.length_set, mirrored.count]
      exact (List.length_modify f b.desks n).symm
    case managers =>
      intro k e' at_
      by_cases same : k = n
      · subst same
        cases own.symm.trans at_
        exact manager'
      · exact mirrored.managers k e' ((others k same).symm.trans at_)
    case desks =>
      intro k e' d' at_ desk'
      by_cases same : k = n
      · subst same
        cases own.symm.trans at_
        have modified : (b.desks.modify k f)[k]? = some (f d) := by
          rw [List.getElem?_modify_eq, desk]
          rfl
        cases modified.symm.trans desk'
        exact mirrors
      · have engine' := (others k same).symm.trans at_
        have untouched : (b.desks.modify n f)[k]? = b.desks[k]? :=
          List.getElem?_modify_ne f b.desks fun own => same own.symm
        apply (mirrored.desks k e' d' engine' (untouched.symm.trans desk')).shuffle shuffle
        rw [mirrored.managers k e' engine']
        exact same
    case chained =>
      intro m
      rw [numbers_eq_update own others]
      apply shuffle.chained m (b.defined m) w.numbers
      show w.host.Chained (update w.numbers n e.hooks.lastInstallation) m (b.defined m)
      rw [← before]
      exact mirrored.chained m

/-! A definition: hooks on what is defined anew are not current, then managers are told. -/

theorem body?_define_programs (h : Host) (typeName : String) (methods : List (String × Code))
    (m : MethodName) :
    (h.define typeName (methods.map fun e => (e.1, .program e.2))).body? m =
      ((Switchboard.given typeName methods m).map .program).or (h.body? m) := by
  rw [Host.body?_define, ← List.map_reverse, Table.get?_map_values]
  unfold Switchboard.given
  split <;> rfl

theorem Mirrored.redefine (mirrored : Mirrored b w) (typeName : String)
    (methods : List (String × Code)) :
    Mirrored
      { defined := fun m => (Switchboard.given typeName methods m).or (b.defined m)
        desks := b.desks.map (·.outdate fun m => (Switchboard.given typeName methods m).isSome) }
      { w with host := w.host.define typeName (methods.map fun e => (e.1, .program e.2)) } := by
  have bodies := body?_define_programs w.host typeName methods
  refine ⟨mirrored.willing, ⟨mirrored.numbered.distinct, mirrored.numbered.bounded⟩,
    mirrored.count.trans (List.length_map _).symm, mirrored.managers, fun n e d found desk => ?_,
    fun m => ?_⟩
  · rw [List.getElem?_map] at desk
    obtain ⟨d', desk', rfl⟩ := Option.map_eq_some_iff.mp desk
    have mirrors := mirrored.desks n e d' found desk'
    refine { mirrors with seated := fun m => ?_ }
    have seated := mirrors.seated m
    unfold Desk.outdate
    cases ticket : d'.installed m with
    | none =>
      rw [ticket] at seated
      simp only [ticket, Option.map_none]
      exact seated
    | some t =>
      rw [ticket] at seated
      obtain ⟨saved, held, positive, known, layer⟩ := seated
      simp only [ticket, Option.map_some]
      refine ⟨saved, held, positive, ?_, ?_⟩
      · rw [bodies, Option.isSome_or, known, Bool.or_true]
      · unfold Host.layer? at layer ⊢
        rw [bodies]
        cases given : Switchboard.given typeName methods m with
        | none => simpa [given] using layer
        | some code => simp [Body.layer?]
  · have chained := mirrored.chained m
    unfold Host.Chained at chained ⊢
    dsimp only
    rw [bodies]
    cases given : Switchboard.given typeName methods m with
    | none => exact chained
    | some code => exact ⟨code, rfl, rfl⟩

end World

namespace Switchboard

def tell (typeName : String) (b : Switchboard) : Observer → Switchboard
  | .engine n => b.atDesk n (·.attend typeName b.isDefined)
  | .watcher _ => b

theorem defined_foldl_tell (typeName : String) (os : List Observer) :
    ∀ b : Switchboard, (os.foldl (tell typeName) b).defined = b.defined := by
  induction os with
  | nil => exact fun b => rfl
  | cons o rest ih => exact fun b => (ih (b.tell typeName o)).trans (by cases o <;> rfl)

theorem desks_foldl_tell (typeName : String) (os : List Observer) (k : Nat) :
    ∀ b : Switchboard, (os.foldl (tell typeName) b).desks[k]? =
      b.desks[k]?.map fun d => if .engine k ∈ os then d.attend typeName b.isDefined else d := by
  induction os with
  | nil =>
    intro b
    simp
  | cons o rest ih =>
    intro b
    have isDefined : (b.tell typeName o).isDefined = b.isDefined := by cases o <;> rfl
    rw [List.foldl_cons, ih, isDefined]
    cases o with
    | watcher label => simp [tell]
    | engine n =>
      unfold tell atDesk
      rw [List.getElem?_modify]
      cases b.desks[k]? with
      | none => rfl
      | some d =>
        by_cases own : n = k
        · subst own
          simp [Desk.attend_attend]
        · have other : k ≠ n := fun same => own same.symm
          simp [own, other]

theorem define_eq_foldl_tell (typeName : String) (methods : List (String × Code))
    (b : Switchboard) (os : List Observer)
    (heard : ∀ k d, b.desks[k]? = some d → (Observer.engine k ∈ os ↔ d.subscribed = true)) :
    b.define typeName methods = os.foldl (tell typeName)
      { defined := fun m => (given typeName methods m).or (b.defined m)
        desks := b.desks.map (·.outdate fun m => (given typeName methods m).isSome) } := by
  unfold define
  refine congr (congrArg Switchboard.mk ?_) (List.ext_getElem? fun k => ?_)
  · rw [defined_foldl_tell]
  · rw [desks_foldl_tell, List.getElem?_map, List.getElem?_map]
    cases desk : b.desks[k]? with
    | none => rfl
    | some d =>
      have told := heard k d desk
      have subscribed : (d.outdate fun m => (given typeName methods m).isSome).subscribed =
          d.subscribed := rfl
      by_cases follows : d.subscribed = true
      · simp only [Option.map_some, subscribed, follows, told, if_true]
        rfl
      · simp [subscribed, follows, told]

end Switchboard

namespace World

theorem Mirrored.tell (mirrored : Mirrored b w) (typeName : String) (o : Observer) :
    Mirrored (b.tell typeName o) (tellDefined typeName w o) := by
  cases o with
  | watcher label => exact mirrored.congr rfl rfl
  | engine n =>
    apply mirrored.atDesk n
    intro e d found mirrors
    rw [Setup.held_typeDefined]
    have move := Hooking.installPendingMethods_move
      (s := Setup.held ⟨w.host, e, w.journal, w.warnings⟩) mirrors mirrored.willing e.code typeName
    have isDefined : (fun m => (w.host.body? m).isSome) = b.isDefined :=
      funext mirrored.isDefined
    rw [← isDefined]
    exact move

theorem Mirrored.foldl_tell (typeName : String) (os : List Observer) :
    ∀ {b : Switchboard} {w : World}, Mirrored b w →
      Mirrored (os.foldl (Switchboard.tell typeName) b) (os.foldl (tellDefined typeName) w) := by
  induction os with
  | nil => exact fun mirrored => mirrored
  | cons o rest ih => exact fun mirrored => ih (mirrored.tell typeName o)

theorem Mirrored.define (mirrored : Mirrored b w) (typeName : String)
    (methods : List (String × Code)) :
    Mirrored (b.define typeName methods) (w.define typeName methods) := by
  have heard : ∀ k d, b.desks[k]? = some d →
      (Observer.engine k ∈ w.host.definitionObservers.map (·.2) ↔ d.subscribed = true) := by
    intro k d desk
    obtain ⟨e, found⟩ := mirrored.exists_manager desk
    have mirrors := mirrored.desks k e d found desk
    have manager := mirrored.managers k e found
    rw [← mirrors.subscribed, Option.isSome_iff_exists]
    constructor
    · intro member
      obtain ⟨⟨id, o⟩, listed, rfl⟩ := List.mem_map.mp member
      rw [← manager] at listed
      exact ⟨id, (mirrors.observed id).mp listed⟩
    · intro ⟨id, following⟩
      have listed := (mirrors.observed id).mpr following
      rw [manager] at listed
      exact List.mem_map_of_mem (f := (·.2)) listed
  rw [Switchboard.define_eq_foldl_tell typeName methods b _ heard]
  exact (mirrored.redefine typeName methods).foldl_tell typeName _

theorem Mirrored.subscribe (mirrored : Mirrored b w) (n : Nat) :
    Mirrored (b.atDesk n fun d => { d with subscribed := true })
      (w.updateSetup n Setup.subscribe) := by
  apply mirrored.atDesk n
  intro e d found mirrors
  cases following : e.hooks.definitions with
  | some id =>
    have same : (Setup.subscribe ⟨w.host, e, w.journal, w.warnings⟩).held =
        Setup.held ⟨w.host, e, w.journal, w.warnings⟩ := by
      unfold Setup.subscribe
      rw [following]
      rfl
    have already : d.subscribed = true := by
      rw [← mirrors.subscribed, following]
      rfl
    have desk : { d with subscribed := true } = d := by
      rw [← already]
    show Hooking.Move _ _ (Setup.subscribe ⟨w.host, e, w.journal, w.warnings⟩).held
    rw [same, desk]
    exact Hooking.Move.refl mirrors
  | none =>
    have move := Hooking.subscribe_move (s := Setup.held ⟨w.host, e, w.journal, w.warnings⟩)
      mirrors following
    show Hooking.Move _ _ (Setup.subscribe ⟨w.host, e, w.journal, w.warnings⟩).held
    unfold Setup.subscribe
    rw [following]
    exact move

theorem Mirrored.obey (mirrored : Mirrored b w) (c : Command) :
    Mirrored (b.obey c) (w.obey c) := by
  have willing := mirrored.willing
  cases c with
  | define typeName methods => exact mirrored.define typeName methods
  | hook n m callback =>
    show Mirrored (if b.isDefined m then b.atDesk n (·.seat m callback) else b) _
    split
    · rename_i defined
      apply mirrored.atDesk n
      intro e d found mirrors
      have known := (mirrored.isDefined m).trans defined
      exact (Hooking.hookMethod_of_defined (s := Setup.held ⟨w.host, e, w.journal, w.warnings⟩)
        mirrors willing known callback).2
    · rename_i undefined
      rw [← mirrored.isDefined, Bool.not_eq_true, Option.isSome_eq_false_iff,
        Option.isNone_iff_eq_none] at undefined
      rw [← b.atDesk_id n]
      apply mirrored.atDesk n
      intro e d found mirrors
      exact (Hooking.hookMethod_of_undefined (s := Setup.held ⟨w.host, e, w.journal, w.warnings⟩)
        mirrors willing undefined callback).2
  | hookWhenDefined n m callback =>
    apply mirrored.atDesk n
    intro e d found mirrors
    have move := Hooking.hookWhenDefined_move
      (s := Setup.held ⟨w.host, e, w.journal, w.warnings⟩) mirrors willing e.code m callback
    rw [show (Setup.held ⟨w.host, e, w.journal, w.warnings⟩).host = w.host from rfl,
      mirrored.isDefined] at move
    split
    · rename_i defined
      rwa [if_pos defined] at move
    · rename_i undefined
      rwa [if_neg undefined] at move
  | unhook n target =>
    cases target with
    | method m =>
      exact mirrored.atDesk n fun e d found mirrors =>
        Hooking.unhookMethod_move (s := Setup.held ⟨w.host, e, w.journal, w.warnings⟩) mirrors
          willing m
    | line l =>
      show Mirrored b _
      rw [← b.atDesk_id n]
      exact mirrored.atDesk n fun e d found mirrors =>
        Hooking.unhookLine_move (s := Setup.held ⟨w.host, e, w.journal, w.warnings⟩) mirrors l
  | clearHooks n =>
    exact mirrored.atDesk n fun e d found mirrors =>
      Hooking.clearHooks_move (s := Setup.held ⟨w.host, e, w.journal, w.warnings⟩) mirrors willing
  | close n =>
    exact mirrored.atDesk n fun e d found mirrors =>
      Hooking.close_move (s := Setup.held ⟨w.host, e, w.journal, w.warnings⟩) mirrors
        mirrored.numbered willing
  | subscribe n => exact mirrored.subscribe n

theorem Mirrored.obeyAll (commands : List Command) :
    ∀ {b : Switchboard} {w : World}, Mirrored b w →
      Mirrored (commands.foldl Switchboard.obey b) (commands.foldl World.obey w) := by
  induction commands with
  | nil => exact fun mirrored => mirrored
  | cons c rest ih => exact fun mirrored => ih (mirrored.obey c)

def manned (engines : List Engine) (w : World) : World :=
  { w with
    host := {}
    engines := engines.mapIdx fun n e =>
      { e with hooks := { manager := n, untargeted := e.hooks.untargeted } } }

theorem mirrored_manned (engines : List Engine) (w : World) :
    Mirrored (Switchboard.idle engines.length) (w.manned engines) := by
  have fresh : ∀ (n : Nat) (e : Engine), (w.manned engines).engines[n]? = some e →
      ∃ untargeted, e.hooks = { manager := n, untargeted } := by
    intro n e found
    unfold manned at found
    rw [List.getElem?_mapIdx] at found
    obtain ⟨e', -, rfl⟩ := Option.map_eq_some_iff.mp found
    exact ⟨_, rfl⟩
  refine ⟨fun _ _ => rfl, ⟨List.nodup_nil, ?_⟩, ?_, fun n e found => ?_, fun n e d found desk => ?_,
    fun m => rfl⟩
  · intro e member
    cases member
  · unfold manned Switchboard.idle
    rw [List.length_mapIdx, List.length_replicate]
  · obtain ⟨untargeted, hooks⟩ := fresh n e found
    rw [hooks]
  · obtain ⟨untargeted, hooks⟩ := fresh n e found
    unfold Switchboard.idle at desk
    obtain ⟨-, rfl⟩ := List.mem_replicate.mp (List.mem_of_getElem? desk)
    rw [hooks]
    refine ⟨fun m => ⟨rfl, rfl⟩, List.nodup_nil, fun m => rfl, List.nodup_nil, fun id => ?_, rfl,
      rfl⟩
    constructor
    · intro member
      cases member
    · intro following
      cases following

end World
end LiveProbe
