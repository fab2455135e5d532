import LiveProbe.Proofs.Capture.Tree
import LiveProbe.Report.Reporter
import Mathlib.Data.List.Forall2

/-!
Redaction as non-interference. Two runs that differ only in what is redacted are captured alike.
Values that stand in each other's place are compared part by part and without end, since objects
can be reached from themselves, so being alike is told by a relation that justifies itself one level
at a time.
-/
namespace LiveProbe

namespace Redactor

/-- Whether the value under a key of a map goes by a redacted name. -/
def redactsKey (r : Redactor) (key : Value) : Bool := (nameOfKey key).any r.redactsName

/-- Two values that differ only in what is redacted, provided that their parts that are `related`
do. A value is `hidden` if it goes by a redacted name. `keys` tells which keys may stand in each
other's place over a value. -/
inductive Masked (r : Redactor) (keys : Value → Value → Value → Prop) (heap heap' : Heap)
    (related : Bool → Value → Value → Prop) (hidden : Bool) : Value → Value → Prop
  | redacted {v v' : Value} (withheld : hidden = true ∨ r.redactsType v = true)
      (type : v'.typeName = v.typeName) : Masked r keys heap heap' related hidden v v'
  | scalar {v : Value} (scalar : v.isContainer = false) :
      Masked r keys heap heap' related hidden v v
  | array {items items' : List Value} (alike : List.Forall₂ (related false) items items') :
      Masked r keys heap heap' related hidden (.array items) (.array items')
  | map {entries entries' : List (Value × Value)}
      (alike : List.Forall₂ (fun e e' => related false e.1 e'.1 ∧
        related (r.redactsKey e.1 && r.redactsKey e'.1) e.2 e'.2 ∧ keys e.1 e'.1 e.2)
        entries entries') :
      Masked r keys heap heap' related hidden (.map entries) (.map entries')
  | object {typeName : String} {ref ref' : Nat}
      (alike : List.Forall₂ (fun f f' => f'.1 = f.1 ∧ related (r.redactsName f.1) f.2 f'.2)
        (heap.fields ref) (heap'.fields ref')) :
      Masked r keys heap heap' related hidden (.object typeName ref) (.object typeName ref')

/-- Equality up to what is redacted. -/
def Alike (r : Redactor) (keys : Value → Value → Value → Prop) (heap heap' : Heap) (hidden : Bool)
    (v v' : Value) : Prop :=
  ∃ related : Bool → Value → Value → Prop,
    (∀ hidden v v', related hidden v v' → r.Masked keys heap heap' related hidden v v') ∧
    related hidden v v'

def AlikeVars (r : Redactor) (keys : Value → Value → Value → Prop) (heap heap' : Heap) :
    Vars → Vars → Prop :=
  List.Forall₂ fun x x' => x'.1 = x.1 ∧ r.Alike keys heap heap' (r.redactsName x.1) x.2 x'.2

/-- Any key that is itself alike. -/
def anyKeys (_ _ _ : Value) : Prop := True

def agreeingKeys (r : Redactor) (key key' value : Value) : Prop :=
  r.redactsKey key' = r.redactsKey key ∨ r.redactsType value = true

/-- What a hook has seen in two runs that differ only in what is redacted. -/
inductive AlikeHits (r : Redactor) (keys : Value → Value → Value → Prop) (heap heap' : Heap) :
    Execution → Execution → Prop
  | method {hit hit' : MethodHit}
      (positional : r.AlikeVars keys heap heap' (Capturer.positionalVars hit.args.positional)
        (Capturer.positionalVars hit'.args.positional))
      (named : r.AlikeVars keys heap heap' hit.args.named hit'.args.named)
      (returned : r.Alike keys heap heap' (r.redactsName Reporter.returnName) hit.returned
        hit'.returned) :
      AlikeHits r keys heap heap' (.method hit) (.method hit')
  | line {hit hit' : LineHit} (line : hit'.line = hit.line)
      (locals : r.AlikeVars keys heap heap' hit.locals hit'.locals) :
      AlikeHits r keys heap heap' (.line hit) (.line hit')

end Redactor

namespace Capturer

variable {c : Capturer} {heap heap' : Heap} {related : Bool → Value → Value → Prop}
  {hidden : Bool} {v v' : Value} {name name' : Option String}
  {left left' : Option (Option String → Value → CapturedValue)}

/-- Two names that make no difference to the capture of values that are hidden by neither or by
both. -/
def Together (c : Capturer) (hidden : Bool) (v : Value) (name name' : Option String) : Prop :=
  c.redactor.redactsType v = true ∨
    name'.any c.redactor.redactsName = name.any c.redactor.redactsName ∧
    (hidden = true → name.any c.redactor.redactsName = true)

theorem map_eq_of_forall₂ {α β : Type} {R : α → α → Prop} {f f' : α → β} {l l' : List α}
    (all : List.Forall₂ R l l') (same : ∀ a a', R a a' → f a = f' a') : l.map f = l'.map f' := by
  induction all with
  | nil => rfl
  | cons first _ ih => rw [List.map_cons, List.map_cons, same _ _ first, ih]

theorem forall₂_bounded {α : Type} {R : α → α → Prop} {l l' : List α} (max : Nat)
    (all : List.Forall₂ R l l') : List.Forall₂ R (bounded max l) (bounded max l') := by
  unfold bounded
  split
  · exact all
  · exact List.forall₂_take max all

theorem exceeds_congr {α : Type} {R : α → α → Prop} {l l' : List α} (max : Nat)
    (all : List.Forall₂ R l l') : exceeds max l = exceeds max l' := by
  unfold exceeds
  rw [all.length_eq]

theorem markCut_congr {α : Type} {R : α → α → Prop} {l l' : List α} (t : CapturedValue)
    (all : List.Forall₂ R l l') : c.markCut l t = c.markCut l' t := by
  unfold markCut
  rw [exceeds_congr _ all, all.length_eq]

theorem typeName_masked {keys : Value → Value → Value → Prop}
    (masked : c.redactor.Masked keys heap heap' related hidden v v') :
    v'.typeName = v.typeName := by
  cases masked with
  | redacted _ type => exact type
  | scalar | array | map | object => rfl

theorem together_of_keys {k k' : Value} (agree : c.redactor.agreeingKeys k k' v) :
    c.Together (c.redactor.redactsKey k && c.redactor.redactsKey k') v (nameOfKey k)
      (nameOfKey k') := by
  rcases agree with agree | redacted
  · exact Or.inr ⟨agree, fun both => (Bool.and_eq_true_iff.mp both).1⟩
  · exact Or.inl redacted

theorem expand_masked
    (masked : c.redactor.Masked c.redactor.agreeingKeys heap heap' related false v v')
    (visible : c.redactor.redactsType v = false)
    (parts : Option.Rel (fun part part' => ∀ hidden v v' name name', related hidden v v' →
      c.Together hidden v name name' → part name v = part' name' v') left left') :
    c.expand heap left v = c.expand heap' left' v' := by
  cases masked with
  | redacted withheld => simp [visible] at withheld
  | scalar scalar => cases v <;> first | rfl | contradiction
  | @array items items' alike =>
    cases parts with
    | none => rfl
    | some parts =>
      have elements := map_eq_of_forall₂ (forall₂_bounded c.limits.maxCollectionSize alike)
        fun v v' rel => parts false v v' none none rel (Or.inr ⟨rfl, nofun⟩)
      simp only [expand, elements]
      exact markCut_congr _ alike
  | @map entries entries' alike =>
    cases parts with
    | none => rfl
    | @some part part' parts =>
      have pair : ∀ e e' : Value × Value, related false e.1 e'.1 ∧
          related (c.redactor.redactsKey e.1 && c.redactor.redactsKey e'.1) e.2 e'.2 ∧
          c.redactor.agreeingKeys e.1 e'.1 e.2 →
          (part none e.1, part (nameOfKey e.1) e.2) =
            (part' none e'.1, part' (nameOfKey e'.1) e'.2) := by
        rintro e e' ⟨key, value, agree⟩
        rw [parts _ _ _ none none key (Or.inr ⟨rfl, nofun⟩),
          parts _ _ _ _ _ value (together_of_keys agree)]
      simp only [expand,
        map_eq_of_forall₂ (forall₂_bounded c.limits.maxCollectionSize alike) pair]
      exact markCut_congr _ alike
  | @object typeName ref ref' alike =>
    cases parts with
    | none => rfl
    | @some part part' parts =>
      have field : ∀ f f' : String × Value, f'.1 = f.1 ∧
          related (c.redactor.redactsName f.1) f.2 f'.2 →
          (f.1, part (some f.1) f.2) = (f'.1, part' (some f'.1) f'.2) := by
        rintro ⟨_, v⟩ ⟨n, v'⟩ ⟨rfl, rel⟩
        rw [parts _ v v' (some n) (some n) rel (Or.inr ⟨rfl, fun hidden => hidden⟩)]
      simp only [expand, exceeds_congr c.limits.maxFieldCount alike,
        map_eq_of_forall₂ (forall₂_bounded c.limits.maxFieldCount alike) field, Value.typeName]

theorem node_masked
    (masked : c.redactor.Masked c.redactor.agreeingKeys heap heap' related hidden v v')
    (together : c.Together hidden v name name')
    (parts : Option.Rel (fun part part' => ∀ hidden v v' name name', related hidden v v' →
      c.Together hidden v name name' → part name v = part' name' v') left left') :
    c.node heap left name v = c.node heap' left' name' v' := by
  have type := typeName_masked masked
  have ofType : c.redactor.redactsType v' = c.redactor.redactsType v := by
    simp only [Redactor.redactsType, type]
  cases visible : c.redactor.redactsType v with
  | true => simp [node, ofType, visible, type]
  | false =>
    obtain ⟨names, hides⟩ := together.resolve_left (by simp [visible])
    cases shown : name.any c.redactor.redactsName with
    | true => simp [node, ofType, visible, names, shown, type]
    | false =>
      have unhidden : hidden = false := by simpa [shown] using hides
      subst unhidden
      simp only [node, ofType, visible, names, shown]
      exact expand_masked masked visible parts

theorem captureLevels_masked
    (justified : ∀ hidden v v', related hidden v v' →
      c.redactor.Masked c.redactor.agreeingKeys heap heap' related hidden v v')
    (levels : Nat) (rel : related hidden v v') (together : c.Together hidden v name name') :
    c.captureLevels heap levels name v = c.captureLevels heap' levels name' v' := by
  induction levels generalizing hidden v v' name name' with
  | zero => exact node_masked (justified _ _ _ rel) together .none
  | succ levels ih =>
    exact node_masked (justified _ _ _ rel) together
      (.some fun _ _ _ _ _ rel together => ih rel together)

theorem capture_alike
    (alike : c.redactor.Alike c.redactor.agreeingKeys heap heap'
      (name.any c.redactor.redactsName) v v') (depth : Int32) :
    c.capture heap name v depth = c.capture heap' name v' depth := by
  obtain ⟨related, justified, rel⟩ := alike
  exact captureLevels_masked justified (levelsOf depth) rel (Or.inr ⟨rfl, id⟩)

theorem captureVars_alike {vars vars' : Vars}
    (alike : c.redactor.AlikeVars c.redactor.agreeingKeys heap heap' vars vars') :
    c.captureVars heap vars = c.captureVars heap' vars' := by
  unfold captureVars
  congr 1
  refine map_eq_of_forall₂ alike ?_
  rintro ⟨_, v⟩ ⟨n, v'⟩ ⟨rfl, same⟩
  have captured : c.capture heap (some n) v c.limits.maxDepth =
      c.capture heap' (some n) v' c.limits.maxDepth := capture_alike same _
  exact congrArg (Prod.mk n) captured

theorem captureArgs_alike {args args' : List Value} {named named' : Vars}
    (positional : c.redactor.AlikeVars c.redactor.agreeingKeys heap heap' (positionalVars args)
      (positionalVars args'))
    (alike : c.redactor.AlikeVars c.redactor.agreeingKeys heap heap' named named') :
    c.captureArgs heap args named = c.captureArgs heap' args' named' :=
  captureVars_alike (List.rel_append positional alike)

end Capturer

namespace Reporter

open Redactor

theorem captures_alike (r : Reporter) {heap heap' : Heap} {e e' : Execution}
    (alike : r.capturer.redactor.AlikeHits r.capturer.redactor.agreeingKeys heap heap' e e') :
    r.captures heap e = r.captures heap' e' := by
  cases alike with
  | @method hit hit' positional named returned =>
    have arguments := Capturer.captureArgs_alike positional named
    have locals : r.capturer.captureVars heap [(returnName, hit.returned)] =
        r.capturer.captureVars heap' [(returnName, hit'.returned)] :=
      Capturer.captureVars_alike (.cons ⟨rfl, returned⟩ .nil)
    simp only [captures, methodCaptures, arguments, locals]
  | line line locals =>
    simp only [captures, lineCaptures, line, Capturer.captureVars_alike locals]

/-- Nothing that is redacted reaches a report beyond its type: what is the same up to redaction is
captured as the same, alone, among variables, among arguments, and by a probe. -/
theorem captured_alike (r : Reporter) (heap heap' : Heap) :
    let c := r.capturer
    let keys := c.redactor.agreeingKeys
    (∀ (name : Option String) (v v' : Value) (depth : Int32),
      c.redactor.Alike keys heap heap' (name.any c.redactor.redactsName) v v' →
      c.capture heap name v depth = c.capture heap' name v' depth) ∧
    (∀ vars vars' : Vars, c.redactor.AlikeVars keys heap heap' vars vars' →
      c.captureVars heap vars = c.captureVars heap' vars') ∧
    (∀ (args args' : List Value) (named named' : Vars),
      c.redactor.AlikeVars keys heap heap' (Capturer.positionalVars args)
        (Capturer.positionalVars args') →
      c.redactor.AlikeVars keys heap heap' named named' →
      c.captureArgs heap args named = c.captureArgs heap' args' named') ∧
    ∀ (p : Probe) (e e' : Execution), c.redactor.AlikeHits keys heap heap' e e' →
      (r.snapshot heap p e).snapshot.captures = (r.snapshot heap' p e').snapshot.captures := by
  refine ⟨fun _ _ _ depth alike => Capturer.capture_alike alike depth,
    fun _ _ alike => Capturer.captureVars_alike alike,
    fun _ _ _ _ positional named => Capturer.captureArgs_alike positional named, ?_⟩
  intro p e e' alike
  simp only [snapshot, captures_alike r alike]

/-- Two objects, each of which holds itself and a password of its own. -/
theorem captured_alike_password :
    let origin : Origin := { runtimeId := "", snapshotId := "", threadId := "" }
    let r : Reporter := ⟨"", ⟨.ofNames [] [], {}⟩, origin⟩
    let heap : Heap := ⟨#[[("password", .string "a"), ("self", .object "User" 0)]]⟩
    let heap' : Heap := ⟨#[[("password", .string "b"), ("self", .object "User" 0)]]⟩
    r.capturer.redactor.Alike r.capturer.redactor.agreeingKeys heap heap' false (.object "User" 0)
      (.object "User" 0) ∧
    r.capturer.capture heap none (.object "User" 0) 2 =
      r.capturer.capture heap' none (.object "User" 0) 2 := by
  intro origin r heap heap'
  have alike : r.capturer.redactor.Alike r.capturer.redactor.agreeingKeys heap heap' false
      (.object "User" 0) (.object "User" 0) := by
    refine ⟨fun hidden v v' => hidden = true ∧ v.typeName = "String" ∧ v'.typeName = "String" ∨
      v = .object "User" 0 ∧ v' = .object "User" 0, ?_, Or.inr ⟨rfl, rfl⟩⟩
    rintro hidden v v' (⟨rfl, type, type'⟩ | ⟨rfl, rfl⟩)
    · exact .redacted (Or.inl rfl) (type'.trans type.symm)
    · have redacted : r.capturer.redactor.redactsName "password" = true := by decide +kernel
      exact .object (.cons ⟨rfl, Or.inl ⟨redacted, rfl, rfl⟩⟩
        (.cons ⟨rfl, Or.inr ⟨rfl, rfl⟩⟩ .nil))
  exact ⟨alike, (captured_alike r heap heap').1 none _ _ 2 alike⟩

/-- A key of a redacted type is left out, but its text still decides whether the value under it
is. -/
theorem key_not_captured_alike :
    ¬ ∀ (c : Capturer) (heap heap' : Heap) (v v' : Value) (depth : Int32),
      c.redactor.Alike anyKeys heap heap' false v v' →
      c.capture heap none v depth = c.capture heap' none v' depth := by
  intro always
  let c : Capturer := ⟨.ofNames [] ["String"], {}⟩
  let v : Value := .map [(.string "password", .integer 1)]
  let v' : Value := .map [(.string "user", .integer 1)]
  have alike : c.redactor.Alike anyKeys {} {} false v v' := by
    refine ⟨fun _ w w' => (w = v ∧ w' = v') ∨ (w = .integer 1 ∧ w' = .integer 1) ∨
      (w = .string "password" ∧ w' = .string "user"), ?_, Or.inl ⟨rfl, rfl⟩⟩
    rintro hidden w w' (⟨rfl, rfl⟩ | ⟨rfl, rfl⟩ | ⟨rfl, rfl⟩)
    · exact .map (.cons ⟨Or.inr (Or.inr ⟨rfl, rfl⟩), Or.inr (Or.inl ⟨rfl, rfl⟩), trivial⟩ .nil)
    · exact .scalar rfl
    · exact .redacted (Or.inr (by decide +kernel)) rfl
  have same := congrArg (fun t => (t.entries.getD []).map fun e => e.2.value.isSome)
    (always c {} {} v v' 0 alike)
  exact absurd same (by decide +kernel)

end Reporter
end LiveProbe
