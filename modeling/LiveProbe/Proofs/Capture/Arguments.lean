import LiveProbe.Proofs.Capture.Tree
import Mathlib.Data.List.Nodup

/-!
The arguments of a call, captured. Positional arguments are given names, under which the caller may
name arguments too: then the named argument stands in the place of the positional one, and nothing
tells of the latter. As long as no name is used twice, no argument is lost.
-/
namespace LiveProbe

namespace Capturer

variable {c : Capturer} {heap : Heap} {args : List Value} {named : Vars}

def argumentName (i : Nat) : String := "arg" ++ toString (i + 1)

def argumentNames (args : List Value) : List String := (List.range args.length).map argumentName

theorem argumentName_inj {i j : Nat} (same : argumentName i = argumentName j) : i = j := by
  have numerals : toString (i + 1) = toString (j + 1) := (String.append_right_inj _).mp same
  have digits : Nat.toDigits 10 (i + 1) = Nat.toDigits 10 (j + 1) := by
    simpa [Nat.toString_eq_ofList_toDigits] using congrArg String.toList numerals
  have numbers := congrArg (fun ds => Nat.ofDigitChars 10 ds 0) digits
  simp only [Nat.ofDigitChars_ten_toDigits] at numbers
  omega

theorem nodup_argumentNames (args : List Value) : (argumentNames args).Nodup := by
  apply List.Nodup.map
  · intro i j same
    exact argumentName_inj same
  · exact List.nodup_range

theorem keys_positionalVars (args : List Value) :
    Table.keys (positionalVars args) = argumentNames args := by
  apply List.ext_getElem
  · simp [Table.keys, positionalVars, argumentNames]
  · intro i _ _
    simp [Table.keys, positionalVars, argumentNames, argumentName]

theorem nodup_positionalVars (args : List Value) : (Table.keys (positionalVars args)).Nodup := by
  rw [keys_positionalVars]
  exact nodup_argumentNames args

theorem mem_argumentNames {name : String} :
    name ∈ argumentNames args ↔ ∃ i < args.length, argumentName i = name := by
  simp [argumentNames]

theorem get?_positionalVars (args : List Value) (i : Nat) :
    Table.get? (argumentName i) (positionalVars args) = args[i]? := by
  cases given : args[i]? with
  | none =>
    rw [Table.get?_eq_none_iff, keys_positionalVars, mem_argumentNames]
    rintro ⟨j, inside, same⟩
    have := List.getElem?_eq_none_iff.mp given
    have := argumentName_inj same
    omega
  | some value =>
    apply Table.get?_of_mem
    · exact nodup_positionalVars args
    · obtain ⟨inside, there⟩ := List.getElem?_eq_some_iff.mp given
      subst there
      simp only [positionalVars, List.mem_mapIdx]
      exact ⟨i, inside, rfl⟩

def captured (c : Capturer) (heap : Heap) (name : String) (value : Value) : CapturedValue :=
  c.capture heap (some name) value c.limits.maxDepth

def capturedVars (c : Capturer) (heap : Heap) (vars : Vars) : CapturedVars :=
  vars.map fun e => (e.1, c.captured heap e.1 e.2)

theorem keys_capturedVars (vars : Vars) : Table.keys (c.capturedVars heap vars) = Table.keys vars :=
  Table.keys_map_keyed (c.captured heap) vars

theorem captureArgs_eq (c : Capturer) (heap : Heap) (args : List Value) (named : Vars) :
    c.captureArgs heap args named =
      Table.insertAll (c.capturedVars heap (positionalVars args)) (c.capturedVars heap named) := by
  have positional : (Table.keys (c.capturedVars heap (positionalVars args))).Nodup := by
    rw [keys_capturedVars]
    exact nodup_positionalVars args
  have split : c.captureArgs heap args named = Table.insertAll []
      (c.capturedVars heap (positionalVars args) ++ c.capturedVars heap named) := by
    simp only [capturedVars, ← List.map_append]
    rfl
  rw [split, Table.insertAll_append, Table.insertAll_of_nodup positional]

theorem keys_captureArgs (distinct : (Table.keys named).Nodup) :
    Table.keys (c.captureArgs heap args named) =
      argumentNames args ++ (Table.keys named).filter fun name => name ∉ argumentNames args := by
  have own : (Table.keys (c.capturedVars heap named)).Nodup := by
    rw [keys_capturedVars]
    exact distinct
  rw [captureArgs_eq, Table.keys_insertAll own, keys_capturedVars, keys_capturedVars,
    keys_positionalVars]

theorem get?_captureArgs (distinct : (Table.keys named).Nodup) (name : String) :
    Table.get? name (c.captureArgs heap args named) =
      ((Table.get? name named).or (Table.get? name (positionalVars args))).map
        (c.captured heap name) := by
  have own : (Table.keys (c.capturedVars heap named)).Nodup := by
    rw [keys_capturedVars]
    exact distinct
  rw [captureArgs_eq, Table.get?_insertAll, Table.get?_reverse own, Option.map_or]
  congr 1 <;> exact Table.get?_map_keyed (c.captured heap) name _

theorem captureArgs_of_apart (distinct : (Table.keys named).Nodup)
    (apart : ∀ name ∈ Table.keys named, name ∉ argumentNames args) :
    c.captureArgs heap args named =
      c.capturedVars heap (positionalVars args) ++ c.capturedVars heap named := by
  have all : (Table.keys (c.capturedVars heap (positionalVars args ++ named))).Nodup := by
    rw [keys_capturedVars, Table.keys, List.map_append]
    refine List.nodup_append.mpr ⟨nodup_positionalVars args, distinct, ?_⟩
    intro given member name own same
    subst same
    have positional : given ∈ Table.keys (positionalVars args) := member
    rw [keys_positionalVars] at positional
    exact apart given own positional
  have whole : c.captureArgs heap args named =
      Table.insertAll [] (c.capturedVars heap (positionalVars args ++ named)) := rfl
  rw [whole, Table.insertAll_of_nodup all, capturedVars, List.map_append]
  rfl

theorem length_captureArgs_iff (c : Capturer) (heap : Heap) (args : List Value)
    (distinct : (Table.keys named).Nodup) :
    (c.captureArgs heap args named).length = args.length + named.length ↔
      ∀ name ∈ Table.keys named, name ∉ argumentNames args := by
  have names := congrArg List.length (@keys_captureArgs c heap args named distinct)
  have positional : (argumentNames args).length = args.length := by simp [argumentNames]
  have entries : (Table.keys named).length = named.length := List.length_map _
  rw [List.length_append, positional, Table.keys, List.length_map] at names
  rw [names, Nat.add_left_cancel_iff, ← entries, List.length_filter_eq_length_iff]
  simp

/-- A positional argument is captured under its own name unless a named one goes by that name, which
is captured in its place; all other named arguments follow in their order. No argument is lost if
and only if no named one goes by the name of a positional one. -/
theorem captureArgs_placed (c : Capturer) (heap : Heap) (args : List Value) (named : Vars)
    (distinct : (Table.keys named).Nodup) :
    let vars := c.captureArgs heap args named
    let names := argumentNames args
    Table.keys vars = names ++ (Table.keys named).filter (fun name => name ∉ names) ∧
    (∀ i, Table.get? (argumentName i) vars =
      ((Table.get? (argumentName i) named).or args[i]?).map (c.captured heap (argumentName i))) ∧
    (∀ name, name ∉ names →
      Table.get? name vars = (Table.get? name named).map (c.captured heap name)) ∧
    ((∀ name ∈ Table.keys named, name ∉ names) ↔
      vars = c.capturedVars heap (positionalVars args) ++ c.capturedVars heap named) ∧
    ((∀ name ∈ Table.keys named, name ∉ names) ↔ vars.length = args.length + named.length) := by
  intro vars names
  have lengths := length_captureArgs_iff c heap args distinct
  refine ⟨keys_captureArgs distinct, ?_, ?_, ?_, lengths.symm⟩
  · intro i
    rw [get?_captureArgs distinct, get?_positionalVars]
  · intro name other
    have absent : Table.get? name (positionalVars args) = none := by
      rw [Table.get?_eq_none_iff, keys_positionalVars]
      exact other
    rw [get?_captureArgs distinct, absent, Option.or_none]
  · constructor
    · intro apart
      exact captureArgs_of_apart distinct apart
    · intro whole
      exact lengths.mp ((congrArg List.length whole).trans
        (by simp [capturedVars, positionalVars]))

/-- Of two positional arguments, the second goes by the name of a named one. -/
theorem captureArgs_placed_namesake :
    let c : Capturer := ⟨.ofNames [] [], {}⟩
    let named : Vars := [("arg2", .integer 3), ("x", .integer 4)]
    (Table.keys named).Nodup ∧
      Table.keys (c.captureArgs {} [.integer 1, .integer 2] named) = ["arg1", "arg2", "x"] ∧
      Table.get? "arg2" (c.captureArgs {} [.integer 1, .integer 2] named) =
        some (c.captured {} "arg2" (.integer 3)) := by
  intro c named
  have distinct : (Table.keys named).Nodup := by decide
  obtain ⟨names, places, -⟩ :=
    captureArgs_placed c {} [.integer 1, .integer 2] named distinct
  exact ⟨distinct, names, places 1⟩

/-- The first of two positional arguments is lost to a named one of its name, which comes before the
second. -/
theorem captureArgs_loses :
    ¬ ∀ (c : Capturer) (heap : Heap) (args : List Value) (named : Vars),
      (Table.keys named).Nodup →
      c.captureArgs heap args named =
        c.capturedVars heap (positionalVars args) ++ c.capturedVars heap named ∧
      (c.captureArgs heap args named).length = args.length + named.length := by
  intro always
  obtain ⟨-, length⟩ := always ⟨.ofNames [] [], {}⟩ {} [.integer 1, .integer 2]
    [("arg1", .integer 3)] (by decide)
  have two : (captureArgs ⟨.ofNames [] [], {}⟩ {} [.integer 1, .integer 2]
      [("arg1", .integer 3)]).length = 2 := by decide +kernel
  simp [two] at length

end Capturer
end LiveProbe
