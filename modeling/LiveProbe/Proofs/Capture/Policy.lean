import LiveProbe.Capture.Redactor
import LiveProbe.Proofs.Text.Expression
import Mathlib.Logic.Basic

/-!
Which types are redacted. The configured names are one expression: alternatives between both ends of
a name, in which nothing is special but a star at the very end. What it finds are the names that are
configured, and those that begin like one with a star, as far as what follows stands on one line.
-/
namespace LiveProbe

open Text (Expression)
open Text.Expression (escape literal)

namespace TypePattern

def text : TypePattern → List Char
  | .exact name => escape name.toList
  | .startsWith start => escape start.toList ++ ['.', '*']

def tokens : TypePattern → List Expression.Token
  | .exact name => literal name.toList
  | .startsWith start => literal start.toList ++ [.item .any, .star]

def items : TypePattern → List Expression
  | .exact name => name.toList.map .char
  | .startsWith start => start.toList.map .char ++ [.many .any]

def expression (p : TypePattern) : Expression := p.items.foldr .seq .empty

theorem tokens?_text (p : TypePattern) (rest : List Char) :
    Expression.tokens? (p.text ++ rest) = (Expression.tokens? rest).map (p.tokens ++ ·) := by
  cases p with
  | exact name => exact Expression.tokens?_escape name.toList rest
  | startsWith start =>
    rw [text, List.append_assoc, Expression.tokens?_escape]
    simp [Expression.tokens?, Expression.token?, tokens, Function.comp_def]

theorem parse?_tokens (p : TypePattern) (complete : List Expression)
    (around : List Expression.Level) (rest : List Expression.Token) :
    Expression.parse? { complete } around (p.tokens ++ rest) =
      Expression.parse? { complete, items := p.items.reverse } around rest := by
  cases p with
  | exact name => simp [tokens, items, Expression.parse?_literal]
  | startsWith start =>
    rw [tokens, List.append_assoc, Expression.parse?_literal]
    simp [Expression.parse?, Expression.Level.push, Expression.Level.repeat?, items]

theorem accepts_exact_iff {name typeName : String} :
    (exact name).accepts typeName = true ↔ name = typeName := beq_iff_eq

theorem accepts_startsWith_iff {start typeName : String} :
    (startsWith start).accepts typeName = true ↔
      ∃ rest, typeName.toList = start.toList ++ rest ∧ '\n' ∉ rest := by
  have unfolded : (startsWith start).accepts typeName =
      ((Text.after? start.toList typeName.toList).any fun rest => rest.all (· ≠ '\n')) := by
    unfold accepts
    dsimp only
    cases Text.after? start.toList typeName.toList <;> rfl
  rw [unfolded, Option.any_eq_true]
  refine exists_congr fun rest => and_congr Text.after?_eq_some_iff ?_
  rw [List.all_eq_true]
  exact ⟨fun inside member => by simpa using inside _ member,
    fun inside c member => by simpa using ne_of_mem_of_not_mem member inside⟩

theorem ofName_cases (name : String) :
    (∃ start, name = start ++ "*" ∧ ofName name = .startsWith start) ∨
      (∀ start, name ≠ start ++ "*") ∧ ofName name = .exact name := by
  unfold ofName
  split
  · rename_i start reversed
    refine Or.inl ⟨String.ofList start.reverse, ?_, rfl⟩
    have whole := congrArg List.reverse reversed
    rw [List.reverse_reverse, List.reverse_cons] at whole
    exact String.toList_inj.mp (by simpa using whole)
  · rename_i plain
    refine Or.inr ⟨?_, rfl⟩
    rintro start rfl
    exact plain start.toList.reverse (by simp)

theorem spans_expression_iff (p : TypePattern) (typeName : String) :
    p.expression.Spans [] typeName.toList [] ↔ p.accepts typeName = true := by
  cases p with
  | exact name =>
    have spelled := @Expression.spans_spelled_iff [] typeName.toList [] name.toList []
    rw [List.append_nil] at spelled
    unfold expression items
    rw [spelled, accepts_exact_iff]
    constructor
    · rintro ⟨rest, whole, nothing⟩
      cases nothing
      exact String.toList_inj.mp (by simpa using whole.symm)
    · rintro rfl
      exact ⟨[], by simp, .empty⟩
  | startsWith start =>
    unfold expression items
    rw [Expression.spans_spelled_iff, accepts_startsWith_iff]
    refine exists_congr fun rest => and_congr_right fun _ => ?_
    rw [← @Expression.spans_many_any_iff (start.toList) rest []]
    constructor
    · intro spans
      obtain ⟨run, _, rfl, inside, nothing⟩ := Expression.spans_seq_iff.mp spans
      cases nothing
      simpa using inside
    · intro inside
      exact Expression.spans_seq_iff.mpr ⟨rest, [], by simp, by simpa using inside, .empty⟩

/-! Several patterns, with bars between them. -/

theorem tokens?_texts (ps : List TypePattern) (rest : List Char) :
    Expression.tokens? (List.intercalate ['|'] (ps.map text) ++ rest) =
      (Expression.tokens? rest).map (List.intercalate [.bar] (ps.map tokens) ++ ·) := by
  induction ps with
  | nil => simp [List.intercalate]
  | cons p ps ih =>
    cases ps with
    | nil => simpa [List.intercalate] using p.tokens?_text rest
    | cons q ps =>
      have bar : ∀ text, Expression.tokens? ('|' :: text) =
          (Expression.tokens? text).map (.bar :: ·) := fun text => by
        simp [Expression.tokens?, Expression.token?]
      simp only [List.map_cons, List.intercalate_cons_cons, List.append_assoc] at ih ⊢
      rw [p.tokens?_text, List.singleton_append, bar, ih]
      simp [Function.comp_def]

theorem parse?_tokens_alternatives (p : TypePattern) (ps : List TypePattern)
    (complete : List Expression) (around : List Expression.Level) (rest : List Expression.Token) :
    ∃ l : Expression.Level,
      Expression.parse? { complete } around
          (List.intercalate [.bar] ((p :: ps).map tokens) ++ rest) =
        Expression.parse? l around rest ∧
      ∀ before text after, l.whole.Spans before text after ↔
        (∃ e ∈ complete, e.Spans before text after) ∨
          ∃ q ∈ p :: ps, q.expression.Spans before text after := by
  induction ps generalizing p complete with
  | nil =>
    refine ⟨{ complete, items := p.items.reverse }, ?_, fun before text after => ?_⟩
    · simpa [List.intercalate] using p.parse?_tokens complete around rest
    · rw [Expression.spans_whole_iff]
      simp [Expression.Level.current, expression]
  | cons q ps ih =>
    obtain ⟨l, read, spans⟩ := ih q (p.expression :: complete)
    refine ⟨l, ?_, fun before text after => ?_⟩
    · rw [← read]
      simp only [List.map_cons, List.intercalate_cons_cons, List.append_assoc]
      rw [p.parse?_tokens]
      simp [Expression.parse?, Expression.Level.next, Expression.Level.current, expression]
    · rw [spans]
      simp only [List.mem_cons, or_and_right, exists_or, exists_eq_left]
      rw [or_assoc, or_left_comm]

end TypePattern

namespace Redactor

def policy (r : Redactor) : List Char :=
  ['^', '(', '?', ':'] ++ (List.intercalate ['|'] (r.types.map (·.text)) ++ [')', '$'])

theorem tokens?_policy (r : Redactor) :
    Expression.tokens? r.policy = some (.item .start :: .opening ::
      (List.intercalate [.bar] (r.types.map (·.tokens)) ++ [.closing, .item .stop])) := by
  have ends : Expression.tokens? [')', '$'] = some [.closing, .item .stop] := by
    simp [Expression.tokens?, Expression.token?]
  have inner := TypePattern.tokens?_texts r.types [')', '$']
  rw [ends, Option.map_some] at inner
  simp [policy, Expression.tokens?, Expression.token?, inner]

theorem read?_policy (r : Redactor) (configured : r.types ≠ []) :
    ∃ e, Expression.read? r.policy = some e ∧ ∀ typeName, e.Found typeName ↔
      ∃ p ∈ r.types, p.accepts typeName = true := by
  obtain ⟨p, ps, patterns⟩ := List.exists_cons_of_ne_nil configured
  obtain ⟨l, parsed, spans⟩ := p.parse?_tokens_alternatives ps [] [{ items := [.start] }]
    [.closing, .item .stop]
  refine ⟨[.start, l.whole, .stop].foldr .seq .empty, ?_, fun typeName => ?_⟩
  · unfold Expression.read?
    rw [tokens?_policy, Option.bind_some, patterns]
    simp only [Expression.parse?, Expression.Level.push]
    rw [parsed]
    simp [Expression.parse?, Expression.Level.push, Expression.Level.whole,
      Expression.Level.current]
  · rw [Expression.found_anchored_iff, spans, patterns]
    simp [TypePattern.spans_expression_iff]

/-- A type name goes on where the star of a configured name stands. -/
def Extends (configured typeName rest : String) : Prop :=
  ∃ start, configured = start ++ "*" ∧ typeName = start ++ rest

variable {types : List String} {typeName : String}

theorem accepts_ofName_iff (configured typeName : String) :
    (TypePattern.ofName configured).accepts typeName = true ↔
      configured = typeName ∨ ∃ rest, Extends configured typeName rest ∧ '\n' ∉ rest.toList := by
  rcases TypePattern.ofName_cases configured with ⟨start, rfl, pattern⟩ | ⟨plain, pattern⟩
  · rw [pattern, TypePattern.accepts_startsWith_iff]
    constructor
    · rintro ⟨rest, begins, inside⟩
      refine Or.inr ⟨String.ofList rest, ⟨start, rfl, ?_⟩, by simpa using inside⟩
      exact String.toList_inj.mp (by simpa using begins)
    · rintro (rfl | ⟨rest, ⟨start', same, rfl⟩, inside⟩)
      · exact ⟨['*'], by simp, by decide⟩
      · rw [String.append_left_inj] at same
        exact ⟨rest.toList, by simp [same], inside⟩
  · rw [pattern, TypePattern.accepts_exact_iff]
    constructor
    · exact Or.inl
    · rintro (same | ⟨rest, ⟨start, star, -⟩, -⟩)
      · exact same
      · exact absurd star (plain start)

/-- A type is redacted if its name is configured, or begins like a configured name with a star and
goes on within the line; this is what the policy, read as an expression, finds. -/
theorem redactsTypeName_policy (names types : List String) {typeName : String}
    (named : typeName ≠ "") :
    ((ofNames names types).redactsTypeName typeName = true ↔ ∃ t ∈ types,
      t = typeName ∨ ∃ rest, Extends t typeName rest ∧ '\n' ∉ rest.toList) ∧
    (types ≠ [] → ∃ e, Expression.read? (ofNames names types).policy = some e ∧
      ((ofNames names types).redactsTypeName typeName = true ↔ e.Found typeName)) ∧
    ('\n' ∉ typeName.toList → ((ofNames names types).redactsTypeName typeName = true ↔
      ∃ t ∈ types, t = typeName ∨ ∃ rest, Extends t typeName rest)) := by
  let r := ofNames names types
  have decided : r.redactsTypeName typeName = true ↔
      ∃ p ∈ r.types, p.accepts typeName = true := by
    simp [redactsTypeName, named]
  have law : r.redactsTypeName typeName = true ↔ ∃ t ∈ types,
      t = typeName ∨ ∃ rest, Extends t typeName rest ∧ '\n' ∉ rest.toList := by
    rw [decided]
    simp only [r, ofNames, List.mem_map, exists_exists_and_eq_and, accepts_ofName_iff]
  refine ⟨law, fun configured => ?_, fun inside => ?_⟩
  · obtain ⟨e, read, found⟩ := r.read?_policy (by simpa [r, ofNames] using configured)
    exact ⟨e, read, decided.trans (found typeName).symm⟩
  · refine law.trans ?_
    refine exists_congr fun t => and_congr_right fun _ => or_congr_right ?_
    refine exists_congr fun rest => and_iff_left_of_imp ?_
    rintro ⟨start, -, rfl⟩ member
    exact inside (by simp [member])

/-- Nothing but the star at the end is special, and what it stands for ends with the line. -/
theorem redactsTypeName_policy_special :
    let r := Redactor.ofNames [] ["a|b*c", "Creds*"]
    ("a|b*c" ≠ "" ∧ ∃ e, Expression.read? r.policy = some e ∧
      r.redactsTypeName "a|b*c" = true ∧ e.Found "a|b*c") ∧
    ("Creds\nStore" ≠ "" ∧ r.redactsTypeName "Creds\nStore" = false) := by
  intro r
  obtain ⟨law, policy, -⟩ :=
    redactsTypeName_policy [] ["a|b*c", "Creds*"] (show "a|b*c" ≠ "" by decide)
  obtain ⟨e, read, found⟩ := policy (by simp)
  have itself : r.redactsTypeName "a|b*c" = true := law.mpr ⟨"a|b*c", by simp, Or.inl rfl⟩
  exact ⟨⟨by decide, e, read, itself, found.mp itself⟩, by decide, by decide +kernel⟩

/-- A type name that goes on behind a line break is not found by the star of a configured name. -/
theorem redactsTypeName_misses_break :
    ¬ ∀ (names types : List String) (typeName : String), typeName ≠ "" →
      ((Redactor.ofNames names types).redactsTypeName typeName = true ↔ ∃ t ∈ types,
        t = typeName ∨ ∃ rest, Extends t typeName rest) := by
  intro always
  have law := always [] ["Creds*"] "Creds\nStore" (by decide)
  have missed : (Redactor.ofNames [] ["Creds*"]).redactsTypeName "Creds\nStore" = false := by
    decide +kernel
  rw [missed] at law
  exact absurd (law.mpr ⟨"Creds*", by simp, Or.inr ⟨"\nStore", "Creds", rfl, rfl⟩⟩) (by simp)

end Redactor
end LiveProbe
