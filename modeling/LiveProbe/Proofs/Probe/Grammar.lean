import LiveProbe.Probe.Document
import LiveProbe.Proofs.Text.Trimming
import Mathlib.Data.List.Forall2
import Mathlib.Data.Nat.Digits.Defs

/-!
The grammar of probe documents. A document has a probe exactly if its parts have the forms below,
and is malformed otherwise; what has to be hooked for the probe is read off the document. Once a
method is named, the lines and the source file may be anything.
-/
namespace LiveProbe

namespace Probe

open Text (Strips)

variable {α β : Type} {document place v : Json} {text : String} {k : Nat}

/-! The forms of the parts. A part may be missing or null unless it is the identity or the kind. -/

def Optionally (Form : Json → Prop) (part : Option Json) : Prop :=
  part = none ∨ part = some .null ∨ ∃ v, part = some v ∧ Form v

def IsText (v : Json) : Prop := ∃ text, v = .string text

def Numeral (text : String) (n : Nat) : Prop :=
  ∃ sign digits, Strips text.toList (sign ++ digits) ∧ (sign = [] ∨ sign = ['+']) ∧
    digits ≠ [] ∧ (∀ c ∈ digits, c.isDigit = true) ∧
    n = Nat.ofDigits 10 (digits.map fun c => c.toNat - 48).reverse

inductive GivesLine : Json → UInt32 → Prop where
  | number (n : UInt32) : GivesLine (.number (.int n.toNat)) n
  | numeral {text : String} {n : UInt32} (numeral : Numeral text n.toNat) :
      GivesLine (.string text) n

def entriesOf (place : Json) : List Json :=
  match place.get? "lines" with
  | some (.array entries) => entries.filter fun entry => !isNull entry
  | _ => []

def Names (place : Json) (m : MethodName) : Prop :=
  place.get? "typeName" = some (.string m.typeName) ∧
    place.get? "methodName" = some (.string m.name)

structure PlaceGrammar (place : Json) : Prop where
  object : ∃ members, place = .object members
  typeName : Optionally IsText (place.get? "typeName")
  methodName : Optionally IsText (place.get? "methodName")
  lines : (¬ ∃ m, Names place m) → Optionally (fun v => ∃ entries, v = .array entries ∧
    ∀ entry ∈ entries, entry ≠ .null → ∃ n, GivesLine entry n) (place.get? "lines")
  sourceFile : (¬ ∃ m, Names place m) → Optionally IsText (place.get? "sourceFile")
  filed : (¬ ∃ m, Names place m) → entriesOf place ≠ [] →
    ∃ file, place.get? "sourceFile" = some (.string file)

structure Grammar (document : Json) : Prop where
  object : ∃ members, document = .object members
  id : ∃ id, document.get? "id" = some (.string id)
  kind : ∃ kind, document.get? "type" = some (.string kind)
  place : Optionally PlaceGrammar (document.get? "where")
  template : Optionally IsText (document.get? "template")
  capturing : Optionally (fun v => ∃ flag, v = .bool flag) (document.get? "captureSnapshot")

def placeOf (document : Json) : Json := (document.get? "where").getD .null

inductive Asks (document : Json) (id : String) : Except Error (Option HookTarget) → Prop where
  | method {m} (named : Names (placeOf document) m) : Asks document id (.ok (some (.method m)))
  | line {entry n file} (unnamed : ¬ ∃ m, Names (placeOf document) m)
      (single : entriesOf (placeOf document) = [entry]) (gives : GivesLine entry n)
      (source : (placeOf document).get? "sourceFile" = some (.string file)) :
      Asks document id (.ok (some (.line ⟨Text.basename file, n⟩)))
  | several (unnamed : ¬ ∃ m, Names (placeOf document) m)
      (many : 1 < (entriesOf (placeOf document)).length) :
      Asks document id (.error (.multipleLines id))
  | nothing (unnamed : ¬ ∃ m, Names (placeOf document) m)
      (without : entriesOf (placeOf document) = []) : Asks document id (.ok none)

/-! Reading a part. It gives what the part stands for, or the document is malformed. -/

structure Parses (result : Except Error α) (As : α → Prop) : Prop where
  ok_iff : ∀ a, result = .ok a ↔ As a
  malformed : ∀ e, result = .error e → ∃ detail, e = .malformedConfig detail

namespace Parses

variable {As : α → Prop} {result : Except Error α}

theorem ok {a : α} (only : ∀ b, As b ↔ b = a) : Parses (.ok a) As where
  ok_iff b := by simp [only, eq_comm]
  malformed := by simp

theorem fails {detail : String} (nothing : ∀ a, ¬ As a) :
    Parses (Probe.malformed detail) As where
  ok_iff a := by simp [Probe.malformed, nothing]
  malformed e raised := ⟨detail, by simpa [Probe.malformed, eq_comm] using raised⟩

theorem congr {As' : α → Prop} (parses : Parses result As) (same : ∀ a, As a ↔ As' a) :
    Parses result As' :=
  ⟨fun a => (parses.ok_iff a).trans (same a), parses.malformed⟩

theorem unique (parses : Parses result As) {a b : α} (as : As a) (as' : As b) : a = b := by
  have same := (parses.ok_iff a).mpr as
  rw [(parses.ok_iff b).mpr as'] at same
  exact (Except.ok.inj same).symm

theorem bind {Bs : β → Prop} {next : α → Except Error β} (first : Parses result As)
    (needs : ∀ b, Bs b → ∃ a, As a) (rest : ∀ a, As a → Parses (next a) Bs) :
    Parses (result >>= next) Bs := by
  cases result with
  | error e =>
    have nothing : ∀ b, ¬ Bs b := by
      intro b bs
      obtain ⟨a, as⟩ := needs b bs
      simpa using (first.ok_iff a).mpr as
    exact ⟨fun b => by simp [Bind.bind, Except.bind, nothing],
      fun e' raised => first.malformed e' (by simpa [Bind.bind, Except.bind] using raised)⟩
  | ok a => exact rest a ((first.ok_iff a).mp rfl)

theorem mapM {As : β → α → Prop} {read : β → Except Error α}
    (each : ∀ b, Parses (read b) (As b)) (bs : List β) :
    Parses (bs.mapM read) (List.Forall₂ As bs) := by
  induction bs with
  | nil => exact ok fun as => List.forall₂_nil_left_iff
  | cons b bs ih =>
    rw [List.mapM_cons]
    refine (each b).bind (fun as all => ?_) fun a head => ih.bind (fun as all => ?_) fun rest tail =>
      ok fun as => ⟨fun all => ?_, ?_⟩
    · obtain _ | ⟨head, -⟩ := all
      exact ⟨_, head⟩
    · obtain _ | ⟨-, tail⟩ := all
      exact ⟨_, tail⟩
    · obtain _ | ⟨head', tail'⟩ := all
      rw [(each b).unique head' head, ih.unique tail' tail]
    · rintro rfl
      exact .cons head tail

theorem exists_iff (parses : Parses result As) : (∃ a, result = .ok a) ↔ ∃ a, As a :=
  exists_congr parses.ok_iff

end Parses

/-- What a part stands for, where `default` is for none. -/
inductive Reads (As : Json → α → Prop) (default : α) : Option Json → α → Prop where
  | missing : Reads As default none default
  | null : Reads As default (some .null) default
  | given {v a} (as : As v a) : Reads As default (some v) a

theorem optionally_iff {As : Json → α → Prop} {default : α} {part : Option Json} :
    (∃ a, Reads As default part a) ↔ Optionally (fun v => ∃ a, As v a) part := by
  constructor
  · rintro ⟨a, reads⟩
    cases reads with
    | missing => exact .inl rfl
    | null => exact .inr (.inl rfl)
    | given as => exact .inr (.inr ⟨_, rfl, _, as⟩)
  · rintro (rfl | rfl | ⟨v, rfl, a, as⟩)
    · exact ⟨default, .missing⟩
    · exact ⟨default, .null⟩
    · exact ⟨a, .given as⟩

def Texts (v : Json) (text : Option String) : Prop := ∃ s, v = .string s ∧ text = some s

def Flags (v : Json) (flag : Bool) : Prop := v = .bool flag

def Lists (v : Json) (lines : List UInt32) : Prop :=
  ∃ entries, v = .array entries ∧
    List.Forall₂ GivesLine (entries.filter fun entry => !isNull entry) lines

theorem reads_none_iff {As : Json → α → Prop} {default a : α} :
    Reads As default none a ↔ a = default := by
  constructor
  · rintro ⟨⟩
    rfl
  · rintro rfl
    exact .missing

theorem reads_null_iff {As : Json → α → Prop} {default a : α} (never : ∀ a, ¬ As .null a) :
    Reads As default (some .null) a ↔ a = default := by
  constructor
  · rintro (_ | _ | as)
    · rfl
    · exact absurd as (never a)
  · rintro rfl
    exact .null

theorem reads_some_iff {As : Json → α → Prop} {default a : α} (other : v ≠ .null) :
    Reads As default (some v) a ↔ As v a := by
  constructor
  · rintro (_ | _ | as)
    · exact absurd rfl other
    · exact as
  · exact .given

theorem requiredText_parses (document : Json) (name : String) :
    Parses (requiredText document name) fun s => document.get? name = some (.string s) := by
  unfold requiredText
  split
  · rename_i s found
    exact .ok fun b => by simp [found, eq_comm]
  · rename_i other
    exact .fails other

theorem optionalText_parses (id : String) (place : Json) (name : String) :
    Parses (optionalText id place name) (Reads Texts none (place.get? name)) := by
  unfold optionalText
  split
  · rename_i s found
    rw [found]
    exact .ok fun text => (reads_some_iff (by simp)).trans (by simp [Texts])
  · rename_i found
    rw [found]
    exact .ok fun text => reads_null_iff (by simp [Texts])
  · rename_i found
    rw [found]
    exact .ok fun text => reads_none_iff
  · rename_i v notText notNull found
    rw [found]
    exact .fails fun text => by simpa [reads_some_iff notNull, Texts] using fun s h => absurd h (notText s)

theorem decimal?_eq_some_iff {digits : List Char} : decimal? digits = some k ↔
    digits ≠ [] ∧ (∀ c ∈ digits, c.isDigit = true) ∧
      k = Nat.ofDigits 10 (digits.map fun c => c.toNat - 48).reverse := by
  have value : digits.foldl (fun n c => n * 10 + (c.toNat - 48)) 0 =
      Nat.ofDigits 10 (digits.map fun c => c.toNat - 48).reverse := by
    rw [Nat.ofDigits_eq_foldr, List.foldr_reverse, List.foldl_map]
    congr 1
    funext n c
    rw [Nat.cast_id, mul_comm, add_comm]
  simp only [decimal?, value, List.all_eq_true]
  split
  · rename_i digital
    constructor
    · rintro ⟨⟩
      exact ⟨digital.1, digital.2, rfl⟩
    · rintro ⟨-, -, rfl⟩
      rfl
  · rename_i other
    simp only [false_iff, reduceCtorEq]
    exact fun ⟨some', digital, _⟩ => other ⟨some', digital⟩

theorem lineOfText?_eq_some_iff : lineOfText? text = some k ↔ Numeral text k := by
  simp only [Numeral, ← Text.trim_eq_iff]
  unfold lineOfText?
  split
  · rename_i ds signed
    rw [decimal?_eq_some_iff, signed]
    constructor
    · exact fun digital => ⟨['+'], ds, rfl, .inr rfl, digital⟩
    · rintro ⟨sign, digits, whole, rfl | rfl, nonempty, digital, value⟩
      · rw [List.nil_append] at whole
        exact absurd (digital '+' (by simp [← whole])) (by decide)
      · rw [List.singleton_append, List.cons.injEq] at whole
        rw [whole.2]
        exact ⟨nonempty, digital, value⟩
  · rename_i unsigned
    rw [decimal?_eq_some_iff]
    constructor
    · exact fun digital => ⟨[], _, rfl, .inl rfl, digital⟩
    · rintro ⟨sign, digits, whole, rfl | rfl, digital⟩
      · rw [whole]
        exact digital
      · exact absurd whole (unsigned digits)

theorem lineNumber_parses (id : String) (line : Json) :
    Parses (lineNumber id line) (GivesLine line) := by
  unfold lineNumber
  extract_lets number?
  have gives : ∀ n : UInt32, GivesLine line n ↔ number? = some n.toNat := by
    intro n
    constructor
    · rintro (_ | numeral)
      · simp [number?]
      · exact lineOfText?_eq_some_iff.mpr numeral
    · intro found
      simp only [number?] at found
      split at found
      · rename_i i
        obtain ⟨nonneg, same⟩ := Option.ite_none_right_eq_some.mp found
        have whole : i = n.toNat := by
          rw [← Option.some.inj same, Int.toNat_of_nonneg nonneg]
        rw [whole]
        exact .number n
      · exact .numeral (lineOfText?_eq_some_iff.mp found)
      · cases found
  split
  · rename_i k kept
    obtain ⟨found, small⟩ := Option.filter_eq_some_iff.mp kept
    have fits : k < UInt32.size := by simpa using small
    refine .ok fun n => ?_
    rw [gives, found, Option.some.injEq, ← UInt32.toNat_inj]
    simp [UInt32.toNat_ofNat_of_lt' fits, eq_comm]
  · rename_i dropped
    refine .fails fun n given => ?_
    rw [(gives n).mp given, Option.filter_eq_none_iff] at dropped
    exact dropped n.toNat rfl (decide_eq_true n.toNat_lt)

theorem lineNumbers_parses (id : String) (place : Json) :
    Parses (lineNumbers id place) (Reads Lists [] (place.get? "lines")) := by
  unfold lineNumbers
  split
  · rename_i entries found
    rw [found]
    refine (Parses.mapM (lineNumber_parses id) _).congr fun lines => ?_
    rw [reads_some_iff (by simp)]
    simp [Lists]
  · rename_i found
    rw [found]
    exact .ok fun lines => reads_null_iff (by simp [Lists])
  · rename_i found
    rw [found]
    exact .ok fun lines => reads_none_iff
  · rename_i v notList notNull found
    rw [found]
    refine .fails fun lines reads => ?_
    obtain ⟨entries, rfl, -⟩ := (reads_some_iff notNull).mp reads
    exact notList entries rfl

theorem capturingOf_parses (id : String) (document : Json) :
    Parses (capturingOf id document) (Reads Flags false (document.get? "captureSnapshot")) := by
  unfold capturingOf
  split
  · rename_i flag found
    rw [found]
    exact .ok fun flag' => (reads_some_iff (by simp)).trans (by simp [Flags, eq_comm])
  · rename_i found
    rw [found]
    exact .ok fun flag => reads_none_iff
  · rename_i found
    rw [found]
    exact .ok fun flag => reads_null_iff (by simp [Flags])
  · rename_i v notFlag notNull found
    rw [found]
    refine .fails fun flag reads => ?_
    have flagged : Flags v flag := (reads_some_iff notNull).mp reads
    exact notFlag flag flagged

/-! Where a probe is to be. -/

structure Unnamed (place : Json) : Prop where
  typeName : ∃ typeName, Reads Texts none (place.get? "typeName") typeName
  methodName : ∃ name, Reads Texts none (place.get? "methodName") name
  incomplete : ¬ ∃ m, Names place m

inductive Locates (place : Json) : ProbeLocation → Prop where
  | method {m} (named : Names place m) : Locates place (.method m)
  | lines {file lines} (unnamed : Unnamed place)
      (given : Reads Lists [] (place.get? "lines") lines)
      (source : Reads Texts none (place.get? "sourceFile") (some file)) :
      Locates place (.lines file lines)
  | nowhere (unnamed : Unnamed place) (given : Reads Lists [] (place.get? "lines") [])
      (source : Reads Texts none (place.get? "sourceFile") none) : Locates place .unknown

theorem reads_texts_some_iff {part : Option Json} :
    Reads Texts none part (some text) ↔ part = some (.string text) := by
  constructor
  · rintro (_ | _ | ⟨s, rfl, same⟩)
    rw [Option.some.inj same]
  · rintro rfl
    exact .given ⟨text, rfl, rfl⟩

theorem Names.unique {m m' : MethodName} (named : Names place m) (named' : Names place m') :
    m = m' := by
  obtain ⟨typeName, name⟩ := named
  obtain ⟨typeName', name'⟩ := named'
  cases m
  cases m'
  simp_all

theorem linesOf_parses (id : String) (unnamed : Unnamed place) :
    Parses (lineNumbers id place >>= fun lines => optionalText id place "sourceFile" >>= fun
      | some file => .ok (.lines file lines)
      | none =>
        if lines.isEmpty then .ok .unknown else faulty id "lines given without a source file")
      (Locates place) := by
  refine (lineNumbers_parses id place).bind ?_ fun lines readsLines =>
    (optionalText_parses id place "sourceFile").bind ?_ fun source readsSource => ?_
  · rintro _ (named | ⟨-, given, -⟩ | ⟨-, given, -⟩)
    · exact absurd ⟨_, named⟩ unnamed.incomplete
    · exact ⟨_, given⟩
    · exact ⟨_, given⟩
  · rintro _ (named | ⟨-, -, source⟩ | ⟨-, -, source⟩)
    · exact absurd ⟨_, named⟩ unnamed.incomplete
    · exact ⟨_, source⟩
    · exact ⟨_, source⟩
  have sameLines : ∀ {lines'}, Reads Lists [] (place.get? "lines") lines' → lines' = lines :=
    fun given => (lineNumbers_parses id place).unique given readsLines
  have sameSource : ∀ {source'}, Reads Texts none (place.get? "sourceFile") source' →
      source' = source :=
    fun given => (optionalText_parses id place "sourceFile").unique given readsSource
  split
  · rename_i file
    refine .ok fun location => ⟨?_, ?_⟩
    · rintro (named | ⟨-, given, source⟩ | ⟨-, -, source⟩)
      · exact absurd ⟨_, named⟩ unnamed.incomplete
      · rw [sameLines given, Option.some.inj (sameSource source)]
      · cases sameSource source
    · rintro rfl
      exact .lines unnamed readsLines readsSource
  · split
    · rename_i without
      rw [List.isEmpty_iff.mp without] at readsLines
      refine .ok fun location => ⟨?_, ?_⟩
      · rintro (named | ⟨-, -, source⟩ | -)
        · exact absurd ⟨_, named⟩ unnamed.incomplete
        · cases sameSource source
        · rfl
      · rintro rfl
        exact .nowhere unnamed readsLines readsSource
    · rename_i some'
      refine .fails ?_
      rintro _ (named | ⟨-, -, source⟩ | ⟨-, given, -⟩)
      · exact absurd ⟨_, named⟩ unnamed.incomplete
      · cases sameSource source
      · exact some' (by rw [← sameLines given]; rfl)

theorem locationOf_parses (id : String) (place : Json) :
    Parses (locationOf id place) (Locates place) := by
  unfold locationOf
  refine (optionalText_parses id place "typeName").bind ?_ fun typeName readsType =>
    (optionalText_parses id place "methodName").bind ?_ fun name readsName => ?_
  · rintro _ (named | ⟨unnamed⟩ | ⟨unnamed⟩)
    · exact ⟨_, reads_texts_some_iff.mpr named.1⟩
    · exact unnamed.typeName
    · exact unnamed.typeName
  · rintro _ (named | ⟨unnamed⟩ | ⟨unnamed⟩)
    · exact ⟨_, reads_texts_some_iff.mpr named.2⟩
    · exact unnamed.methodName
    · exact unnamed.methodName
  split
  · rename_i typeName name
    have named : Names place ⟨typeName, name⟩ :=
      ⟨reads_texts_some_iff.mp readsType, reads_texts_some_iff.mp readsName⟩
    refine .ok fun location => ⟨?_, ?_⟩
    · rintro (named' | ⟨unnamed⟩ | ⟨unnamed⟩)
      · rw [named'.unique named]
      · exact absurd ⟨_, named⟩ unnamed.incomplete
      · exact absurd ⟨_, named⟩ unnamed.incomplete
    · rintro rfl
      exact .method named
  · rename_i notBoth
    refine linesOf_parses id ⟨⟨_, readsType⟩, ⟨_, readsName⟩, ?_⟩
    rintro ⟨m, ofType, ofName⟩
    exact notBoth _ _
      ((optionalText_parses id place _).unique readsType (reads_texts_some_iff.mpr ofType))
      ((optionalText_parses id place _).unique readsName (reads_texts_some_iff.mpr ofName))

def Places (v : Json) (location : ProbeLocation) : Prop :=
  (∃ members, v = .object members) ∧ Locates v location

theorem whereOf_parses (id : String) (document : Json) :
    Parses (whereOf id document) (Reads Places .unknown (document.get? "where")) := by
  unfold whereOf
  split
  · rename_i found
    rw [found]
    exact .ok fun location => reads_none_iff
  · rename_i found
    rw [found]
    exact .ok fun location => reads_null_iff (by simp [Places])
  · rename_i members found
    rw [found]
    refine (locationOf_parses id _).congr fun location => ?_
    rw [reads_some_iff (by simp)]
    simp [Places]
  · rename_i v notNull notObject found
    rw [found]
    refine .fails fun location reads => ?_
    obtain ⟨⟨members, rfl⟩, -⟩ := (reads_some_iff notNull).mp reads
    exact notObject members rfl

structure Describes (document : Json) (p : Probe) : Prop where
  id : document.get? "id" = some (.string p.id)
  kind : document.get? "type" = some (.string p.kind)
  location : Reads Places .unknown (document.get? "where") p.location
  template : Reads Texts none (document.get? "template") p.template
  capturing : Reads Flags false (document.get? "captureSnapshot") p.capturing

theorem ofDocument_parses (document : Json) : Parses (ofDocument document) (Describes document) := by
  unfold ofDocument
  refine (requiredText_parses document "id").bind (fun p described => ⟨_, described.id⟩)
    fun id foundId => (requiredText_parses document "type").bind
      (fun p described => ⟨_, described.kind⟩)
    fun kind foundKind => (whereOf_parses id document).bind
      (fun p described => ⟨_, described.location⟩)
    fun location readsPlace => (optionalText_parses id document "template").bind
      (fun p described => ⟨_, described.template⟩)
    fun template readsTemplate => (capturingOf_parses id document).bind
      (fun p described => ⟨_, described.capturing⟩)
    fun capturing readsFlag => .ok fun p => ⟨fun described => ?_, ?_⟩
  · cases p
    congr 1
    · exact (requiredText_parses document "id").unique described.id foundId
    · exact (requiredText_parses document "type").unique described.kind foundKind
    · exact (whereOf_parses id document).unique described.location readsPlace
    · exact (optionalText_parses id document "template").unique described.template readsTemplate
    · exact (capturingOf_parses id document).unique described.capturing readsFlag
  · rintro rfl
    exact ⟨foundId, foundKind, readsPlace, readsTemplate, readsFlag⟩

/-! The grammar tells which documents describe a probe. -/

theorem optionally_congr {Form Form' : Json → Prop} (same : ∀ v, Form v ↔ Form' v)
    (part : Option Json) : Optionally Form part ↔ Optionally Form' part := by
  simp only [Optionally, same]

theorem optionally_text_iff {part : Option Json} :
    Optionally IsText part ↔ ∃ text, Reads Texts none part text := by
  rw [optionally_iff]
  exact optionally_congr (fun v => by simp [IsText, Texts]) part

theorem isNull_eq_false_iff : isNull v = false ↔ v ≠ .null := by
  cases v <;> simp [isNull]

theorem exists_lists_iff : (∃ lines, Lists v lines) ↔ ∃ entries, v = .array entries ∧
    ∀ entry ∈ entries, entry ≠ .null → ∃ n, GivesLine entry n := by
  have each : ∀ entries : List Json, (∃ lines, List.Forall₂ GivesLine entries lines) ↔
      ∀ entry ∈ entries, ∃ n, GivesLine entry n := by
    intro entries
    induction entries with
    | nil => simp
    | cons entry entries ih =>
      rw [List.forall_mem_cons, ← ih]
      constructor
      · rintro ⟨_, _ | ⟨gives, others⟩⟩
        exact ⟨⟨_, gives⟩, _, others⟩
      · rintro ⟨⟨n, gives⟩, lines, others⟩
        exact ⟨_, .cons gives others⟩
  simp only [Lists]
  rw [exists_comm]
  refine exists_congr fun entries => ?_
  rw [exists_and_left, each]
  simp [isNull_eq_false_iff]

theorem Reads.entriesOf {lines : List UInt32}
    (reads : Reads Lists [] (place.get? "lines") lines) :
    List.Forall₂ GivesLine (entriesOf place) lines := by
  unfold Probe.entriesOf
  cases part : place.get? "lines" with
  | none =>
    rw [part] at reads
    cases reads
    exact .nil
  | some v =>
    rw [part] at reads
    obtain _ | _ | ⟨entries, rfl, gives⟩ := reads
    · exact .nil
    · exact gives

theorem placeGrammar_iff : PlaceGrammar place ↔ ∃ location, Places place location := by
  constructor
  · intro grammar
    by_cases named : ∃ m, Names place m
    · obtain ⟨m, named⟩ := named
      exact ⟨_, grammar.object, .method named⟩
    have unnamed : Unnamed place := ⟨optionally_text_iff.mp grammar.typeName,
      optionally_text_iff.mp grammar.methodName, named⟩
    obtain ⟨lines, given⟩ : ∃ lines, Reads Lists [] (place.get? "lines") lines :=
      optionally_iff.mpr ((optionally_congr (fun v => exists_lists_iff) _).mpr
        (grammar.lines named))
    obtain ⟨source, readsSource⟩ := optionally_text_iff.mp (grammar.sourceFile named)
    cases source with
    | some file => exact ⟨_, grammar.object, .lines unnamed given readsSource⟩
    | none =>
      have without : entriesOf place = [] := by
        by_contra some'
        obtain ⟨file, source⟩ := grammar.filed named some'
        rw [source] at readsSource
        obtain _ | _ | ⟨_, -, other⟩ := readsSource
        cases other
      have gives := given.entriesOf
      rw [without, List.forall₂_nil_left_iff] at gives
      rw [gives] at given
      exact ⟨_, grammar.object, .nowhere unnamed given readsSource⟩
  · rintro ⟨location, object, named | ⟨unnamed, given, source⟩ | ⟨unnamed, given, source⟩⟩
    · exact ⟨object, .inr (.inr ⟨_, named.1, _, rfl⟩), .inr (.inr ⟨_, named.2, _, rfl⟩),
        fun unnamed => absurd ⟨_, named⟩ unnamed, fun unnamed => absurd ⟨_, named⟩ unnamed,
        fun unnamed => absurd ⟨_, named⟩ unnamed⟩
    · refine ⟨object, optionally_text_iff.mpr unnamed.typeName,
        optionally_text_iff.mpr unnamed.methodName, fun _ => ?_,
        fun _ => optionally_text_iff.mpr ⟨_, source⟩,
        fun _ _ => ⟨_, reads_texts_some_iff.mp source⟩⟩
      exact (optionally_congr (fun v => exists_lists_iff) _).mp (optionally_iff.mp ⟨_, given⟩)
    · refine ⟨object, optionally_text_iff.mpr unnamed.typeName,
        optionally_text_iff.mpr unnamed.methodName, fun _ => ?_,
        fun _ => optionally_text_iff.mpr ⟨_, source⟩, fun _ some' => absurd ?_ some'⟩
      · exact (optionally_congr (fun v => exists_lists_iff) _).mp (optionally_iff.mp ⟨_, given⟩)
      · exact List.forall₂_nil_right_iff.mp given.entriesOf

theorem grammar_iff : Grammar document ↔ ∃ p, Describes document p := by
  have placed : Optionally PlaceGrammar (document.get? "where") ↔
      ∃ location, Reads Places .unknown (document.get? "where") location := by
    rw [optionally_iff]
    exact optionally_congr (fun v => placeGrammar_iff) _
  constructor
  · intro grammar
    obtain ⟨id, foundId⟩ := grammar.id
    obtain ⟨kind, foundKind⟩ := grammar.kind
    obtain ⟨location, readsPlace⟩ := placed.mp grammar.place
    obtain ⟨template, readsTemplate⟩ := optionally_text_iff.mp grammar.template
    obtain ⟨capturing, readsFlag⟩ : ∃ flag,
        Reads Flags false (document.get? "captureSnapshot") flag :=
      optionally_iff.mpr grammar.capturing
    exact ⟨⟨id, kind, location, template, capturing⟩, foundId, foundKind, readsPlace,
      readsTemplate, readsFlag⟩
  · rintro ⟨p, described⟩
    refine ⟨?_, ⟨_, described.id⟩, ⟨_, described.kind⟩, placed.mpr ⟨_, described.location⟩,
      optionally_text_iff.mpr ⟨_, described.template⟩, optionally_iff.mp ⟨_, described.capturing⟩⟩
    have found := described.id
    cases document <;> simp [Json.get?] at found ⊢

theorem Describes.asks {p : Probe} (described : Describes document p) :
    Asks document p.id p.target := by
  obtain ⟨id, kind, location, template, capturing⟩ := p
  have readsPlace : Reads Places .unknown (document.get? "where") location := described.location
  have nowhere : placeOf document = .null → Asks document id (.ok none) := by
    intro absent
    refine .nothing ?_ ?_ <;> rw [absent] <;> simp [Names, entriesOf, Json.get?]
  cases part : document.get? "where" with
  | none =>
    rw [part] at readsPlace
    cases readsPlace
    exact nowhere (by simp [placeOf, part])
  | some place =>
    rw [part] at readsPlace
    have here : placeOf document = place := by simp [placeOf, part]
    obtain _ | _ | ⟨-, locates⟩ := readsPlace
    · exact nowhere here
    rw [← here] at locates
    obtain named | ⟨unnamed, given, source⟩ | ⟨unnamed, given, source⟩ := locates
    · exact .method named
    · rename_i file lines
      have gives := given.entriesOf
      match lines, gives with
      | [], gives => exact .nothing unnamed.incomplete (List.forall₂_nil_right_iff.mp gives)
      | [n], gives =>
        obtain ⟨entry, others, entryGives, none', whole⟩ := List.forall₂_cons_right_iff.mp gives
        rw [List.forall₂_nil_right_iff.mp none'] at whole
        exact .line unnamed.incomplete whole entryGives (reads_texts_some_iff.mp source)
      | n :: n' :: lines, gives =>
        refine .several unnamed.incomplete ?_
        rw [gives.length_eq]
        simp
    · exact .nothing unnamed.incomplete (List.forall₂_nil_right_iff.mp given.entriesOf)

/-- A document has a probe exactly if it follows the grammar, and is malformed otherwise; the
document says what has to be hooked. -/
theorem ofDocument_grammar (document : Json) :
    ((∃ p, ofDocument document = .ok p) ↔ Grammar document) ∧
      (¬ Grammar document → ∃ detail, ofDocument document = .error (.malformedConfig detail)) ∧
      ∀ p, ofDocument document = .ok p →
        document.get? "id" = some (.string p.id) ∧ Asks document p.id p.target := by
  have parses := ofDocument_parses document
  have known : (∃ p, ofDocument document = .ok p) ↔ Grammar document :=
    parses.exists_iff.trans grammar_iff.symm
  refine ⟨known, fun faulty => ?_, fun p built => ?_⟩
  · cases result : ofDocument document with
    | ok p => exact absurd (known.mp ⟨p, result⟩) faulty
    | error e =>
      obtain ⟨detail, rfl⟩ := parses.malformed e result
      exact ⟨detail, rfl⟩
  · have described := (parses.ok_iff p).mp built
    exact ⟨described.id, described.asks⟩

end Probe
end LiveProbe
