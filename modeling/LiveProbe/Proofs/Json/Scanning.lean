import LiveProbe.Proofs.Json.Outlines
import LiveProbe.Proofs.Json.Parts

/-!
The text of a document scanned. A number has no end of its own, so what follows it has to end it;
in the text of a document it does, and the tokens of the text are those of the outline.
-/
namespace LiveProbe.Json

namespace Scanner

def scan (s : Scanner) (text : List Char) : Option (List Token) := text.foldlM step s >>= finish?

theorem scan_append {s s' : Scanner} {text : List Char} (reads : text.foldlM step s = some s')
    (rest : List Char) : scan s (text ++ rest) = scan s' rest := by
  unfold scan
  rw [List.foldlM_append, reads]
  rfl

theorem scan_cons {s s' : Scanner} {c : Char} (reads : step s c = some s') (rest : List Char) :
    scan s (c :: rest) = scan s' rest := by
  have one : [c].foldlM step s = some s' := by
    rw [List.foldlM_cons, reads]
    rfl
  exact scan_append one rest

def Ends (rest : List Char) : Prop := ∀ c ∈ rest.head?, endsWord c = true

theorem foldlM_word {read : List Token} {word : List Char} (seen : List Char)
    (inner : ∀ c ∈ word, endsWord c = false) :
    word.foldlM step ⟨read, .word seen⟩ = some ⟨read, .word (word.reverse ++ seen)⟩ := by
  induction word generalizing seen with
  | nil => rfl
  | cons c word ih =>
    have goes : step ⟨read, .word seen⟩ c = some ⟨read, .word (c :: seen)⟩ := by
      rw [step]
      simp only [inner c List.mem_cons_self, Bool.false_eq_true, if_false]
    rw [List.foldlM_cons, goes, Option.bind_eq_bind, Option.bind_some,
      ih (c :: seen) fun d member => inner d (List.mem_cons_of_mem _ member), List.reverse_cons,
      List.append_assoc, List.singleton_append]

theorem inner_of_all {word : List Char} (all : word.all (fun c => !endsWord c) = true) :
    ∀ c ∈ word, endsWord c = false := by
  intro c member
  simpa only [Bool.not_eq_true'] using List.all_eq_true.mp all c member

theorem scan_word {word : List Char} {t : Token} (inner : ∀ c ∈ word, endsWord c = false)
    (token : wordToken? word = some t) (read : List Token) {rest : List Char} (ends : Ends rest) :
    scan ⟨read, .between⟩ (word ++ rest) = scan ⟨t :: read, .between⟩ rest := by
  cases word with
  | nil => cases token
  | cons c word =>
    have first : step ⟨read, .between⟩ c = some ⟨read, .word [c]⟩ := by
      have outside := inner c List.mem_cons_self
      simp only [endsWord, Bool.or_eq_false_iff, Option.isSome_eq_false_iff,
        Option.isNone_iff_eq_none] at outside
      simp [step, stepBetween, outside]
    have others : word.foldlM step ⟨read, .word [c]⟩ = some ⟨read, .word (c :: word).reverse⟩ := by
      rw [foldlM_word [c] fun d member => inner d (List.mem_cons_of_mem _ member),
        List.reverse_cons]
    have whole : wordToken? (c :: word).reverse.reverse = some t := by
      rw [List.reverse_reverse, token]
    rw [List.cons_append, scan_cons first, scan_append others]
    cases rest with
    | nil =>
      show (wordToken? (c :: word).reverse.reverse).map _ = _
      rw [whole]
      rfl
    | cons d rest =>
      have next : step ⟨read, .word (c :: word).reverse⟩ d = step ⟨t :: read, .between⟩ d := by
        simp only [step, ends d rfl, if_true, whole, Option.bind_eq_bind, Option.bind_some]
        rfl
      unfold scan
      rw [List.foldlM_cons, next, ← List.foldlM_cons]

theorem foldlM_escaped {c : Char} {text : List Char} (escaped : Escaped c text)
    (read : List Token) (seen : List Char) :
    text.foldlM step ⟨read, .string seen⟩ = some ⟨read, .string (text.reverse ++ seen)⟩ := by
  have opens : step ⟨read, .string seen⟩ '\\' = some ⟨read, .escape ('\\' :: seen)⟩ := rfl
  cases escaped with
  | letter d stands other =>
    have letter : step ⟨read, .escape ('\\' :: seen)⟩ d =
        some ⟨read, .string (d :: '\\' :: seen)⟩ := by
      simp [step, other, stands]
    rw [List.foldlM_cons, opens, Option.bind_eq_bind, Option.bind_some, List.foldlM_cons, letter]
    rfl
  | number low =>
    have zeros : ['\\', 'u', '0', '0'].foldlM step ⟨read, .string seen⟩ =
        some ⟨read, .unicode ('0' :: '0' :: 'u' :: '\\' :: seen) 2⟩ := rfl
    have first : ∀ seen, step ⟨read, .unicode seen 2⟩ (hexDigit (c.toNat / 16)) =
        some ⟨read, .unicode (hexDigit (c.toNat / 16) :: seen) 1⟩ := by
      intro seen
      simp [step, hexValue?_hexDigit (c.toNat / 16) (by omega)]
    have second : ∀ seen, step ⟨read, .unicode seen 1⟩ (hexDigit (c.toNat % 16)) =
        some ⟨read, .string (hexDigit (c.toNat % 16) :: seen)⟩ := by
      intro seen
      simp [step, hexValue?_hexDigit (c.toNat % 16) (by omega)]
    show (['\\', 'u', '0', '0'] ++ [hexDigit (c.toNat / 16), hexDigit (c.toNat % 16)]).foldlM
      step ⟨read, .string seen⟩ = _
    rw [List.foldlM_append, zeros, Option.bind_eq_bind, Option.bind_some, List.foldlM_cons, first,
      Option.bind_eq_bind, Option.bind_some, List.foldlM_cons, second]
    rfl
  | itself quote backslash high =>
    have plain : step ⟨read, .string seen⟩ c = some ⟨read, .string (c :: seen)⟩ := by
      simp [step, quote, backslash, Nat.not_lt.mpr high]
    rw [List.foldlM_cons, plain]
    rfl

theorem foldlM_body (s : List Char) (read : List Token) (seen : List Char) :
    (s.flatMap escapeChar).foldlM step ⟨read, .string seen⟩ =
      some ⟨read, .string ((s.flatMap escapeChar).reverse ++ seen)⟩ := by
  induction s generalizing seen with
  | nil => rfl
  | cons c s ih =>
    rw [List.flatMap_cons, List.foldlM_append, foldlM_escaped (escaped_escapeChar c),
      Option.bind_eq_bind, Option.bind_some, ih, List.reverse_append, List.append_assoc]

theorem scan_string (s : String) (read : List Token) (rest : List Char) :
    scan ⟨read, .between⟩ (writeString s ++ rest) =
      scan ⟨.string (body s) :: read, .between⟩ rest := by
  have opens : step ⟨read, .between⟩ '"' = some ⟨read, .string []⟩ := rfl
  have inner : (body s).foldlM step ⟨read, .string []⟩ = some ⟨read, .string (body s).reverse⟩ := by
    rw [body, foldlM_body, List.append_nil]
  have closes : step ⟨read, .string (body s).reverse⟩ '"' =
      some ⟨.string (body s) :: read, .between⟩ := by
    rw [step]
    simp [push]
  rw [writeString_eq, List.cons_append, List.append_assoc, scan_cons opens, scan_append inner,
    List.singleton_append, scan_cons closes]

theorem mem_write_int {n : Int} {c : Char} (member : c ∈ (Number.int n).write) :
    c = '-' ∨ c.isDigit = true := by
  change c ∈ Decimal.signed (n < 0) (Decimal.digits n.natAbs) at member
  unfold Decimal.signed at member
  split at member
  · exact (List.mem_cons.mp member).imp_right Numeral.isDigit_of_mem_digits
  · exact Or.inr (Numeral.isDigit_of_mem_digits member)

theorem endsWord_digit {c : Char} (digit : c.isDigit = true) : endsWord c = false := by
  have other : ∀ d, d.isDigit = false → c ≠ d := by
    rintro d no rfl
    rw [digit] at no
    cases no
  have noMark : punctuation? c = none := by
    unfold punctuation?
    split
    all_goals first | rfl | cases digit
  simp [endsWord, isBlank, noMark, other ' ' rfl, other '\n' rfl, other '\t' rfl, other '\r' rfl,
    other '"' rfl]

theorem not_endsWord_int {n : Int} {c : Char} (member : c ∈ (Number.int n).write) :
    endsWord c = false := by
  rcases mem_write_int member with rfl | digit
  · rfl
  · exact endsWord_digit digit

theorem wordToken?_int (n : Int) :
    wordToken? (Number.int n).write = some (.number (.ofInt n)) := by
  have noLetter : ∀ word, 'l' ∈ word ∨ 'e' ∈ word → (Number.int n).write ≠ word := by
    rintro word letter rfl
    rcases letter with member | member
    · rcases mem_write_int member with same | digit
      · exact absurd same (by decide)
      · cases digit
    · rcases mem_write_int member with same | digit
      · exact absurd same (by decide)
      · cases digit
  rw [wordToken?, if_neg (noLetter _ (by decide)), if_neg (noLetter _ (by decide)),
    if_neg (noLetter _ (by decide))]
  exact congrArg (Option.map Token.number) (Numeral.ofText?_signed _ _)

theorem ends_writeItems (items : List Json) (rest : List Char) :
    Ends (writeItems items ++ rest) := by
  cases items <;> exact fun c first => by cases first; rfl

theorem ends_writeMembers (members : List (String × Json)) (rest : List Char) :
    Ends (writeMembers members ++ rest) := by
  rcases members with _ | ⟨⟨n, v⟩, members⟩ <;> exact fun c first => by cases first; rfl

-- What has been read before is left open, for the parts come one after the other; what follows is
-- left open too, as long as it ends a number.
mutual
theorem scan_write : ∀ (j : Json) (_ : j.Every Whole) (read : List Token) {rest : List Char}
    (_ : Ends rest), scan ⟨read, .between⟩ (j.write ++ rest) =
      scan ⟨j.outline.tokens.reverse ++ read, .between⟩ rest
  | .null, _, read, _, ends => scan_word (inner_of_all rfl) rfl read ends
  | .bool true, _, read, _, ends => scan_word (inner_of_all rfl) rfl read ends
  | .bool false, _, read, _, ends => scan_word (inner_of_all rfl) rfl read ends
  | .number (.int n), _, read, _, ends => by
    rw [outline, Number.numeral_int]
    exact scan_word (fun c => not_endsWord_int) (wordToken?_int n) read ends
  | .number (.float bits), whole, _, _, _ => by
    cases whole (.number (.float bits)) (by simp [parts])
  | .string s, _, read, rest, _ => scan_string s read rest
  | .array [], _, read, rest, _ => rfl
  | .array (v :: items), whole, read, rest, _ => by
    obtain ⟨first, others⟩ := List.forall_mem_cons.mp (every_array.mp whole).2
    have opens : step ⟨read, .between⟩ '[' = some ⟨.openArray :: read, .between⟩ := rfl
    show scan _ ('[' :: (v.write ++ writeItems items ++ rest)) =
      scan ⟨(.openArray :: (v.outline.tokens ++ Outline.itemTokens (outlineItems items))).reverse ++
        read, .between⟩ rest
    rw [scan_cons opens, List.append_assoc, scan_write v first _ (ends_writeItems items rest),
      scan_writeItems items others, List.reverse_cons, List.reverse_append]
    simp only [List.append_assoc, List.singleton_append]
  | .object [], _, read, rest, _ => rfl
  | .object ((n, v) :: members), whole, read, rest, _ => by
    obtain ⟨first, others⟩ := List.forall_mem_cons.mp (every_object.mp whole).2
    have opens : step ⟨read, .between⟩ '\x7b' = some ⟨.openObject :: read, .between⟩ := rfl
    have colon : ∀ read, step ⟨read, .between⟩ ':' = some ⟨.colon :: read, .between⟩ := fun _ => rfl
    show scan _ ('\x7b' :: (writeString n ++ ':' :: v.write ++ writeMembers members ++ rest)) =
      scan ⟨(.openObject :: .string (body n) :: .colon ::
        (v.outline.tokens ++ Outline.memberTokens (outlineMembers members))).reverse ++ read,
          .between⟩ rest
    rw [scan_cons opens]
    simp only [List.append_assoc]
    rw [scan_string, List.cons_append, scan_cons (colon _),
      scan_write v first _ (ends_writeMembers members rest), scan_writeMembers members others]
    simp only [List.reverse_cons, List.reverse_append, List.append_assoc, List.cons_append,
      List.nil_append]
theorem scan_writeItems : ∀ (items : List Json) (_ : ∀ v ∈ items, v.Every Whole)
    (read : List Token) (rest : List Char),
    scan ⟨read, .between⟩ (writeItems items ++ rest) =
      scan ⟨(Outline.itemTokens (outlineItems items)).reverse ++ read, .between⟩ rest
  | [], _, _, _ => rfl
  | v :: items, whole, read, rest => by
    obtain ⟨first, others⟩ := List.forall_mem_cons.mp whole
    have comma : step ⟨read, .between⟩ ',' = some ⟨.comma :: read, .between⟩ := rfl
    show scan _ (',' :: (v.write ++ writeItems items ++ rest)) =
      scan ⟨(.comma :: (v.outline.tokens ++ Outline.itemTokens (outlineItems items))).reverse ++
        read, .between⟩ rest
    rw [scan_cons comma, List.append_assoc, scan_write v first _ (ends_writeItems items rest),
      scan_writeItems items others, List.reverse_cons, List.reverse_append]
    simp only [List.append_assoc, List.singleton_append]
theorem scan_writeMembers : ∀ (members : List (String × Json)) (_ : ∀ m ∈ members, m.2.Every Whole)
    (read : List Token) (rest : List Char),
    scan ⟨read, .between⟩ (writeMembers members ++ rest) =
      scan ⟨(Outline.memberTokens (outlineMembers members)).reverse ++ read, .between⟩ rest
  | [], _, _, _ => rfl
  | (n, v) :: members, whole, read, rest => by
    obtain ⟨first, others⟩ := List.forall_mem_cons.mp whole
    have comma : step ⟨read, .between⟩ ',' = some ⟨.comma :: read, .between⟩ := rfl
    have colon : ∀ read, step ⟨read, .between⟩ ':' = some ⟨.colon :: read, .between⟩ := fun _ => rfl
    show scan _ (',' :: (writeString n ++ ':' :: v.write ++ writeMembers members ++ rest)) =
      scan ⟨(.comma :: .string (body n) :: .colon ::
        (v.outline.tokens ++ Outline.memberTokens (outlineMembers members))).reverse ++ read,
          .between⟩ rest
    rw [scan_cons comma]
    simp only [List.append_assoc]
    rw [scan_string, List.cons_append, scan_cons (colon _),
      scan_write v first _ (ends_writeMembers members rest), scan_writeMembers members others]
    simp only [List.reverse_cons, List.reverse_append, List.append_assoc, List.cons_append,
      List.nil_append]
end

end Scanner

theorem ofText?_compact {j : Json} (whole : j.Every Whole) :
    Outline.ofText? j.compact = some j.outline := by
  have scanned : tokens? j.write = some j.outline.tokens := by
    have all := @Scanner.scan_write j whole [] [] fun _ none => by cases none
    rw [List.append_nil, List.append_nil] at all
    refine all.trans ?_
    show some j.outline.tokens.reverse.reverse = _
    rw [List.reverse_reverse]
  rw [Outline.ofText?, compact, String.toList_ofList, scanned]
  exact Outline.ofTokens?_tokens j.outline

end LiveProbe.Json
