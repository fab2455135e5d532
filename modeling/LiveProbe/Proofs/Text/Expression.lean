import LiveProbe.Text.Front

/-!
Regular expressions, as far as lists of names need them: how the text of an expression is read, and
where an expression is found. A character that has a meaning of its own stands for itself behind a
backslash; so any name can be written such that nothing in it is special. A text that uses more of
the syntax than what is here is not read.
-/
namespace LiveProbe.Text

inductive Expression where
  | empty
  | char (c : Char)
  /-- Any character but a line break. -/
  | any
  | many (e : Expression)
  | seq (first second : Expression)
  | either (first second : Expression)
  | start
  | stop

namespace Expression

/-- What an expression spans, between what stands before it and what comes after it. -/
inductive Spans : Expression → List Char → List Char → List Char → Prop where
  | empty {before after} : Spans .empty before [] after
  | char {c before after} : Spans (.char c) before [c] after
  | any {c before after} (inside : c ≠ '\n') : Spans .any before [c] after
  | done {e before after} : Spans (.many e) before [] after
  | again {e before text more after} (first : Spans e before text (more ++ after))
      (others : Spans (.many e) (before ++ text) more after) :
      Spans (.many e) before (text ++ more) after
  | seq {e f before text more after} (first : Spans e before text (more ++ after))
      (second : Spans f (before ++ text) more after) : Spans (.seq e f) before (text ++ more) after
  | left {e f before text after} (first : Spans e before text after) :
      Spans (.either e f) before text after
  | right {e f before text after} (second : Spans f before text after) :
      Spans (.either e f) before text after
  | start {after} : Spans .start [] [] after
  | stop {before} : Spans .stop before [] []

def Found (e : Expression) (text : String) : Prop :=
  ∃ before part after, text.toList = before ++ part ++ after ∧ e.Spans before part after

/-! How an expression is read. -/

inductive Token where
  | item (e : Expression)
  | star
  | bar
  | opening
  | closing

def isMeta (c : Char) : Bool :=
  ['\\', '.', '+', '*', '?', '(', ')', '|', '[', ']', '\x7b', '\x7d', '^', '$', '#', '&', '-',
    '~'].contains c

def token? : Char → Option Token
  | '.' => some (.item .any)
  | '^' => some (.item .start)
  | '$' => some (.item .stop)
  | '*' => some .star
  | '|' => some .bar
  | ')' => some .closing
  | c => if isMeta c then none else some (.item (.char c))

def tokens? : List Char → Option (List Token)
  | [] => some []
  | '\\' :: c :: rest => if isMeta c then (tokens? rest).map (.item (.char c) :: ·) else none
  | '(' :: '?' :: ':' :: rest => (tokens? rest).map (.opening :: ·)
  | c :: rest => (token? c).bind fun t => (tokens? rest).map (t :: ·)

/-- Alternatives that are being read, in a group or in none, the latest first: those that are
complete, and the items of the one that is not. -/
structure Level where
  complete : List Expression := []
  items : List Expression := []

namespace Level

def push (e : Expression) (l : Level) : Level := { l with items := e :: l.items }

def current (l : Level) : Expression := l.items.reverse.foldr .seq .empty

def next (l : Level) : Level := { complete := l.current :: l.complete }

def whole (l : Level) : Expression :=
  l.complete.foldl (fun later earlier => .either earlier later) l.current

def repeat? (l : Level) : Option Level :=
  match l.items with
  | e :: rest => some { l with items := .many e :: rest }
  | [] => none

end Level

def parse? : Level → List Level → List Token → Option Expression
  | l, [], [] => some l.whole
  | _, _ :: _, [] => none
  | l, around, .item e :: rest => parse? (l.push e) around rest
  | l, around, .star :: rest => l.repeat?.bind fun l => parse? l around rest
  | l, around, .bar :: rest => parse? l.next around rest
  | l, around, .opening :: rest => parse? {} (l :: around) rest
  | l, outer :: around, .closing :: rest => parse? (outer.push l.whole) around rest
  | _, [], .closing :: _ => none

def read? (text : List Char) : Option Expression := (tokens? text).bind (parse? {} [])

def escape (text : List Char) : List Char :=
  text.flatMap fun c => if isMeta c then ['\\', c] else [c]

def literal (text : List Char) : List Token := text.map fun c => .item (.char c)

theorem tokens?_plain {c : Char} (plain : isMeta c = false) (rest : List Char) :
    tokens? (c :: rest) = (tokens? rest).map (.item (.char c) :: ·) := by
  have itself : token? c = some (.item (.char c)) := by
    unfold token?
    split <;> first | exact absurd plain (by decide) | simp [plain]
  rw [tokens?, itself]
  · rfl
  · rintro c' rest' rfl
    exact absurd plain (by decide)
  · rintro rest' rfl
    exact absurd plain (by decide)

theorem tokens?_escape (text rest : List Char) :
    tokens? (escape text ++ rest) = (tokens? rest).map (literal text ++ ·) := by
  induction text with
  | nil => simp [escape, literal]
  | cons c text ih =>
    have unfolded : escape (c :: text) ++ rest =
        (if isMeta c then ['\\', c] else [c]) ++ (escape text ++ rest) := by
      simp [escape, List.append_assoc]
    rw [unfolded]
    cases special : isMeta c with
    | true => simp [tokens?, special, ih, literal, Function.comp_def]
    | false => simp [tokens?_plain special, ih, literal, Function.comp_def]

theorem parse?_literal (text : List Char) (l : Level) (around : List Level) (rest : List Token) :
    parse? l around (literal text ++ rest) =
      parse? { l with items := (text.map .char).reverse ++ l.items } around rest := by
  induction text generalizing l with
  | nil => rfl
  | cons c text ih =>
    have pushed : parse? l around (literal (c :: text) ++ rest) =
        parse? (l.push (.char c)) around (literal text ++ rest) := by
      simp [literal, parse?]
    rw [pushed, ih]
    simp [Level.push]

/-! What is spanned. -/

variable {e f : Expression} {before text after : List Char}

theorem spans_seq_iff : Spans (.seq e f) before text after ↔
    ∃ first second, text = first ++ second ∧ Spans e before first (second ++ after) ∧
      Spans f (before ++ first) second after := by
  constructor
  · rintro (_ | _)
    exact ⟨_, _, rfl, ‹_›, ‹_›⟩
  · rintro ⟨first, second, rfl, spans, spans'⟩
    exact .seq spans spans'

theorem spans_either_iff : Spans (.either e f) before text after ↔
    Spans e before text after ∨ Spans f before text after := by
  constructor
  · rintro (_ | _)
    · exact Or.inl ‹_›
    · exact Or.inr ‹_›
  · rintro (spans | spans)
    · exact .left spans
    · exact .right spans

theorem spans_many_any_iff : Spans (.many .any) before text after ↔ '\n' ∉ text := by
  constructor
  · intro spans
    generalize repeated : Expression.many .any = e at spans
    induction spans with
    | done => simp
    | again first others _ ih =>
      cases repeated
      cases first with
      | any inside => simpa [inside.symm] using ih rfl
    | _ => cases repeated
  · intro inside
    induction text generalizing before with
    | nil => exact .done
    | cons c text ih =>
      rw [List.mem_cons, not_or] at inside
      have first : Spans .any before [c] (text ++ after) := .any (Ne.symm inside.1)
      exact .again first (ih inside.2)

theorem spans_spelled_iff (name : List Char) (later : List Expression) :
    Spans ((name.map Expression.char ++ later).foldr .seq .empty) before text after ↔
      ∃ rest, text = name ++ rest ∧
        Spans (later.foldr .seq .empty) (before ++ name) rest after := by
  induction name generalizing before text with
  | nil => simp
  | cons c name ih =>
    rw [List.map_cons, List.cons_append, List.foldr_cons, spans_seq_iff]
    constructor
    · rintro ⟨first, second, rfl, spelled, others⟩
      obtain ⟨rest, rfl, spans⟩ := ih.mp others
      cases spelled
      exact ⟨rest, rfl, by simpa using spans⟩
    · rintro ⟨rest, rfl, spans⟩
      exact ⟨[c], name ++ rest, rfl, .char, ih.mpr ⟨rest, rfl, by simpa using spans⟩⟩

theorem spans_whole_iff (l : Level) : l.whole.Spans before text after ↔
    (∃ e ∈ l.complete, e.Spans before text after) ∨ l.current.Spans before text after := by
  obtain ⟨complete, items⟩ := l
  unfold Level.whole
  generalize Level.current ⟨complete, items⟩ = last
  induction complete generalizing last with
  | nil => simp
  | cons e complete ih =>
    rw [List.foldl_cons, ih, spans_either_iff]
    simp [or_assoc, or_comm, or_left_comm]

theorem found_anchored_iff (e : Expression) (text : String) :
    Found ([start, e, stop].foldr .seq .empty) text ↔ e.Spans [] text.toList [] := by
  simp only [List.foldr_cons, List.foldr_nil]
  constructor
  · rintro ⟨before, part, after, whole, spans⟩
    obtain ⟨_, _, rfl, starts, spans⟩ := spans_seq_iff.mp spans
    obtain ⟨_, _, rfl, spans, ends⟩ := spans_seq_iff.mp spans
    obtain ⟨_, _, rfl, stops, nothing⟩ := spans_seq_iff.mp ends
    cases nothing
    cases starts
    cases after with
    | nil =>
      cases stops
      simpa [whole] using spans
    | cons => cases stops
  · intro spans
    refine ⟨[], text.toList, [], by simp, ?_⟩
    refine spans_seq_iff.mpr ⟨[], text.toList, rfl, .start, ?_⟩
    refine spans_seq_iff.mpr ⟨text.toList, [], by simp, by simpa using spans, ?_⟩
    exact spans_seq_iff.mpr ⟨[], [], rfl, .stop, .empty⟩

end Expression
end LiveProbe.Text
