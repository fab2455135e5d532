import LiveProbe.Json.Numeral

/-!
The tokens of a document's text. The scanner goes through the text character by character; a
string keeps its body as it is written, and its escapes are resolved when its text is asked for. A
body whose escapes name half a surrogate pair has no text.
-/
namespace LiveProbe.Json

inductive Token where
  | openArray
  | closeArray
  | openObject
  | closeObject
  | comma
  | colon
  | null
  | bool (b : Bool)
  | number (n : Numeral)
  | string (body : List Char)
  deriving DecidableEq, Repr

def hexValue? (c : Char) : Option Nat :=
  if c.isDigit then some (c.toNat - '0'.toNat)
  else if 'a' ≤ c && c ≤ 'f' then some (c.toNat - 'a'.toNat + 10)
  else if 'A' ≤ c && c ≤ 'F' then some (c.toNat - 'A'.toNat + 10)
  else none

def hexValues? (a b c d : Char) : Option Nat := do
  return (((← hexValue? a) * 16 + (← hexValue? b)) * 16 + (← hexValue? c)) * 16 + (← hexValue? d)

def simpleEscape? (c : Char) : Option Char :=
  match c with
  | '"' => some '"'
  | '\\' => some '\\'
  | '/' => some '/'
  | 'b' => some (Char.ofNat 8)
  | 'f' => some (Char.ofNat 12)
  | 'n' => some '\n'
  | 'r' => some '\r'
  | 't' => some '\t'
  | _ => none

def isHighSurrogate (n : Nat) : Bool := 0xD800 ≤ n && n < 0xDC00

def isLowSurrogate (n : Nat) : Bool := 0xDC00 ≤ n && n < 0xE000

/-- Resolves the escapes of a string's body. A pair of surrogates stands for one character, one of
them alone for none. -/
def unescape? : List Char → Option (List Char)
  | [] => some []
  | '\\' :: 'u' :: a :: b :: c :: d :: '\\' :: 'u' :: e :: f :: g :: h :: rest => do
    let first ← hexValues? a b c d
    if isHighSurrogate first then
      let second ← hexValues? e f g h
      if isLowSurrogate second then
        let rest ← unescape? rest
        return Char.ofNat (0x10000 + (first - 0xD800) * 0x400 + (second - 0xDC00)) :: rest
      else none
    else if isLowSurrogate first then none
    else
      let rest ← unescape? ('\\' :: 'u' :: e :: f :: g :: h :: rest)
      return Char.ofNat first :: rest
  | '\\' :: 'u' :: a :: b :: c :: d :: rest => do
    let n ← hexValues? a b c d
    if isHighSurrogate n || isLowSurrogate n then none
    else
      let rest ← unescape? rest
      return Char.ofNat n :: rest
  | '\\' :: c :: rest => do
    let c ← simpleEscape? c
    let rest ← unescape? rest
    return c :: rest
  | c :: rest => (unescape? rest).map (c :: ·)

def textOfBody? (body : List Char) : Option String := (unescape? body).map String.ofList

inductive Scanning where
  | between
  | word (read : List Char)
  | string (read : List Char)
  | escape (read : List Char)
  | unicode (read : List Char) (left : Nat)

/-- The tokens read so far, in reverse, and where the scanner stands. -/
structure Scanner where
  tokens : List Token
  mode : Scanning

def isBlank (c : Char) : Bool := c == ' ' || c == '\n' || c == '\t' || c == '\r'

def punctuation? (c : Char) : Option Token :=
  match c with
  | '[' => some .openArray
  | ']' => some .closeArray
  | '\x7b' => some .openObject
  | '\x7d' => some .closeObject
  | ',' => some .comma
  | ':' => some .colon
  | _ => none

def wordToken? (word : List Char) : Option Token :=
  if word = "null".toList then some .null
  else if word = "true".toList then some (.bool true)
  else if word = "false".toList then some (.bool false)
  else (Numeral.ofText? word).map .number

namespace Scanner

def start : Scanner := ⟨[], .between⟩

def push (t : Token) (s : Scanner) : Scanner := ⟨t :: s.tokens, .between⟩

def stepBetween (s : Scanner) (c : Char) : Scanner :=
  if isBlank c then s
  else if c == '"' then { s with mode := .string [] }
  else match punctuation? c with
    | some t => s.push t
    | none => { s with mode := .word [c] }

def endsWord (c : Char) : Bool := isBlank c || c == '"' || (punctuation? c).isSome

def step (s : Scanner) (c : Char) : Option Scanner :=
  match s.mode with
  | .between => some (s.stepBetween c)
  | .word read =>
    if endsWord c then do
      let t ← wordToken? read.reverse
      return (s.push t).stepBetween c
    else some { s with mode := .word (c :: read) }
  | .string read =>
    if c == '"' then some (s.push (.string read.reverse))
    else if c == '\\' then some { s with mode := .escape (c :: read) }
    else if c.toNat < 0x20 then none
    else some { s with mode := .string (c :: read) }
  | .escape read =>
    if c == 'u' then some { s with mode := .unicode (c :: read) 4 }
    else (simpleEscape? c).map fun _ => { s with mode := .string (c :: read) }
  | .unicode read left =>
    (hexValue? c).map fun _ =>
      { s with mode := if left = 1 then .string (c :: read) else .unicode (c :: read) (left - 1) }

def finish? (s : Scanner) : Option (List Token) :=
  match s.mode with
  | .between => some s.tokens.reverse
  | .word read => (wordToken? read.reverse).map fun t => (t :: s.tokens).reverse
  | _ => none

end Scanner

def tokens? (text : List Char) : Option (List Token) :=
  text.foldlM Scanner.step .start >>= Scanner.finish?

end LiveProbe.Json
