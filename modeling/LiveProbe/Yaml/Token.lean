import LiveProbe.Yaml.Scalar

/-!
The tokens of a document. Indentation opens and closes blocks, and a text turns out to be a key
only when the colon behind it is met: its place is remembered, and the tokens for it are put there
afterwards.
-/
namespace LiveProbe.Yaml

inductive Token where
  | directive
  | documentStart
  | documentEnd
  | blockSequence
  | blockMapping
  | blockEnd
  | flowSequence
  | flowSequenceEnd
  | flowMapping
  | flowMappingEnd
  | entry
  | comma
  | key
  | value
  | anchor (name : List Char)
  | alias (name : List Char)
  | tag
  | scalar (text : String) (isPlain : Bool)
  deriving DecidableEq

/-- A place where a key may have begun: the count of tokens before it, and where it stands. One at
the start of a block's line has to become a key. -/
structure KeyPlace where
  tokens : Nat
  required : Bool
  line : Nat
  column : Nat
  offset : Nat

structure Scanner where
  cursor : Cursor
  tokens : Array Token := #[]
  blocks : List Nat := []
  keyAllowed : Bool := true
  /-- Place of a possible key, outside of brackets and in each open pair of them, innermost
  first. -/
  places : List (Option KeyPlace) := [none]

namespace Scanner

def inFlow (s : Scanner) : Bool := s.places.length > 1

def push (t : Token) (s : Scanner) : Scanner := { s with tokens := s.tokens.push t }

def mark (t : Token) (size : Nat) (keyAllowed : Bool) (s : Scanner) : Scanner :=
  { s.push t with cursor := s.cursor.skip size, keyAllowed }

def openBlock (t : Token) (column : Nat) (place : Nat) (s : Scanner) : Scanner :=
  if s.inFlow || s.blocks.head?.any (column ≤ ·) then s
  else
    { s with
      blocks := column :: s.blocks
      tokens := (s.tokens.toList.take place ++ t :: s.tokens.toList.drop place).toArray }

def closeBlocks (column : Option Nat) (s : Scanner) : Scanner :=
  if s.inFlow then s
  else
    let closed := s.blocks.takeWhile fun b => column.all (· < b)
    { s with
      blocks := s.blocks.drop closed.length
      tokens := s.tokens ++ (closed.map fun _ => Token.blockEnd).toArray }

def forgetKey? (s : Scanner) : Option Scanner :=
  match s.places with
  | some k :: rest => if k.required then none else some { s with places := none :: rest }
  | _ => some s

def noteKey? (s : Scanner) : Option Scanner :=
  if s.keyAllowed then do
    let s ← s.forgetKey?
    let place : KeyPlace := {
      tokens := s.tokens.size
      required := !s.inFlow && s.blocks.head? == some s.cursor.column
      line := s.cursor.line
      column := s.cursor.column
      offset := s.cursor.offset }
    return { s with places := some place :: s.places.drop 1 }
  else some s

def keyLimit : Nat := 1024

/-- A key ends on its line and is not too long; a required one that does not is an error. -/
def dropStaleKeys? (s : Scanner) : Option Scanner := do
  let places ← s.places.mapM fun place => match place with
    | none => some none
    | some k =>
      if k.line < s.cursor.line || k.offset + keyLimit < s.cursor.offset then
        if k.required then none else some none
      else some (some k)
  return { s with places }

/-- Past blanks, comments and line ends. Tabs count as blanks where no key may begin. -/
def skipBlank : Nat → Scanner → Scanner
  | 0, s => s
  | fuel + 1, s =>
    match s.cursor.rest with
    | [] => s
    | d :: _ =>
      if d == ' ' || (d == '\t' && (s.inFlow || !s.keyAllowed)) then
        skipBlank fuel { s with cursor := s.cursor.next }
      else if d == '#' then skipBlank fuel { s with cursor := s.cursor.restOfLine }
      else if isBreak d then
        skipBlank fuel
          { s with cursor := s.cursor.nextLine, keyAllowed := s.keyAllowed || !s.inFlow }
      else s

def isNameChar (c : Char) : Bool := c.isAlphanum || c == '_' || c == '-'

def endsName (rest : List Char) : Bool :=
  match rest with
  | [] => true
  | d :: _ => isSpace d || isBreak d || "?:,]\x7d%@\x60".toList.contains d

def name? (make : List Char → Token) (s : Scanner) : Option Scanner := do
  let s ← s.noteKey?
  let name := (s.cursor.rest.drop 1).takeWhile isNameChar
  if name.isEmpty || !endsName (s.cursor.rest.drop (name.length + 1)) then none
  return s.mark (make name) (name.length + 1) false

/-- Tags are read over; only handles that are known by themselves may stand in them. -/
def tag? (s : Scanner) : Option Scanner := do
  let s ← s.noteKey?
  let body := s.cursor.rest.drop 1
  let size ← match body with
    | '<' :: rest =>
      let inner := rest.takeWhile (· ≠ '>')
      if rest.length ≤ inner.length then none else some (inner.length + 2)
    | _ =>
      let word := body.takeWhile fun d => !isSpace d && !isBreak d && !isFlowMark d
      if (word.drop 1).contains '!' then none
      else if word == ['!'] then none
      else some word.length
  if !(s.cursor.blankAt (size + 1) || (s.inFlow && (s.cursor.rest.drop (size + 1)).head? == some ','))
  then none
  return s.mark .tag (size + 1) false

def scalarToken (r : Read) (isPlain : Bool) (keyAllowed : Bool) (s : Scanner) : Scanner :=
  { s.push (.scalar (String.ofList r.text) isPlain) with
    cursor := r.cursor, keyAllowed := keyAllowed || r.broken }

def entry? (s : Scanner) : Option Scanner := do
  let s ← if s.inFlow then some s
    else if !s.keyAllowed then none
    else some (s.openBlock .blockSequence s.cursor.column s.tokens.size)
  return (← s.forgetKey?).mark .entry 1 true

def explicitKey? (s : Scanner) : Option Scanner := do
  let s ← if s.inFlow then some s
    else if !s.keyAllowed then none
    else some (s.openBlock .blockMapping s.cursor.column s.tokens.size)
  return (← s.forgetKey?).mark .key 1 (!s.inFlow)

/-- A colon. The key it belongs to has either been noted or stands behind a question mark. -/
def value? (s : Scanner) : Option Scanner :=
  match s.places with
  | some k :: rest =>
    let tokens := (s.tokens.toList.take k.tokens ++ .key :: s.tokens.toList.drop k.tokens).toArray
    let s := { s with tokens, places := none :: rest }
    some ((s.openBlock .blockMapping k.column k.tokens).mark .value 1 false)
  | _ =>
    if s.inFlow then some (s.mark .value 1 false)
    else if !s.keyAllowed then none
    else some ((s.openBlock .blockMapping s.cursor.column s.tokens.size).mark .value 1 true)

def openFlow? (t : Token) (s : Scanner) : Option Scanner := do
  let s ← s.noteKey?
  return { s.mark t 1 true with places := none :: s.places }

def closeFlow? (t : Token) (s : Scanner) : Option Scanner := do
  let s ← s.forgetKey?
  return { s.mark t 1 false with places := if s.inFlow then s.places.drop 1 else s.places }

def marker? (t : Token) (s : Scanner) : Option Scanner :=
  ((s.closeBlocks none).forgetKey?).map (·.mark t 3 false)

def indicators : List Char := "-?:,[]\x7b\x7d#&*!|>'\"%@\x60".toList

def beginsPlain (s : Scanner) (d : Char) : Bool :=
  (!indicators.contains d && !isSpace d) ||
    (d == '-' && !((s.cursor.rest.drop 1).head?.any isSpace)) ||
    (!s.inFlow && (d == '?' || d == ':') && !s.cursor.blankAt 1)

def other? (s : Scanner) (d : Char) : Option Scanner :=
  let fuel := s.cursor.rest.length + 1
  if d == '&' then s.name? .anchor
  else if d == '*' then s.name? .alias
  else if d == '!' then s.tag?
  else if (d == '|' || d == '>') && !s.inFlow then do
    let s ← s.forgetKey?
    let r ← block (d == '>') s.blocks.head? s.cursor.next
    return s.scalarToken r false true
  else if d == '\'' then do
    let s ← s.noteKey?
    let r ← singleQuoted fuel s.cursor.next [] {}
    return s.scalarToken r false false
  else if d == '"' then do
    let s ← s.noteKey?
    let r ← doubleQuoted fuel s.cursor.next [] {}
    return s.scalarToken r false false
  else if s.beginsPlain d then do
    let s ← s.noteKey?
    let r ← plain s.inFlow ((s.blocks.head?.map (· + 1)).getD 0) fuel s.cursor [] {} true
    return s.scalarToken r true false
  else none

def step? (s : Scanner) (d : Char) : Option Scanner :=
  if s.cursor.column == 0 && d == '%' then
    ((s.closeBlocks none).forgetKey?).map fun s =>
      { s.push .directive with cursor := s.cursor.restOfLine, keyAllowed := false }
  else if s.cursor.atMarker then s.marker? (if d == '-' then .documentStart else .documentEnd)
  else if d == '[' then s.openFlow? .flowSequence
  else if d == '\x7b' then s.openFlow? .flowMapping
  else if d == ']' then s.closeFlow? .flowSequenceEnd
  else if d == '\x7d' then s.closeFlow? .flowMappingEnd
  else if d == ',' then s.forgetKey?.map (·.mark .comma 1 true)
  else if d == '-' && s.cursor.blankAt 1 then s.entry?
  else if d == '?' && (s.inFlow || s.cursor.blankAt 1) then s.explicitKey?
  else if d == ':' && (s.inFlow || s.cursor.blankAt 1) then s.value?
  else s.other? d

def scan? : Nat → Scanner → Option (List Token)
  | 0, _ => none
  | fuel + 1, s => do
    let s ← (skipBlank (s.cursor.rest.length + 1) s).dropStaleKeys?
    let s := if s.cursor.atEnd then s else s.closeBlocks (some s.cursor.column)
    match s.cursor.rest with
    | [] => return (← ((s.closeBlocks none).forgetKey?)).tokens.toList
    | d :: _ => scan? fuel (← s.step? d)

end Scanner

def tokens? (text : String) : Option (List Token) :=
  let chars := match text.toList with
    | c :: rest => if c.toNat == 0xFEFF then rest else c :: rest
    | [] => []
  if chars.all isAdmitted then
    Scanner.scan? (chars.length + 1) { cursor := { rest := chars } }
  else none

end LiveProbe.Yaml
