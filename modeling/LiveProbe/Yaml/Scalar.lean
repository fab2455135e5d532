import LiveProbe.Json.Token
import LiveProbe.Yaml.Cursor

/-!
Scalars, the texts of a document. Plain and quoted ones may go on over several lines; the gap
between two lines is folded into one space, or into the empty lines it holds. Block scalars take
the lines indented below them.
-/
namespace LiveProbe.Yaml

/-- Blanks and line ends after the last character of a scalar, the blanks in reverse. Blanks count
only before a line end. -/
structure Gap where
  blanks : List Char := []
  broken : Bool := false
  firstBreak : List Char := []
  moreBreaks : List Char := []

namespace Gap

def addBlank (g : Gap) (c : Char) : Gap :=
  if g.broken then g else { g with blanks := c :: g.blanks }

def addBreak (g : Gap) (text : List Char) : Gap :=
  if g.broken then { g with moreBreaks := g.moreBreaks ++ text }
  else { broken := true, firstBreak := text }

def fold (g : Gap) : List Char :=
  if !g.broken then g.blanks.reverse
  else if g.firstBreak == ['\n'] then
    if g.moreBreaks.isEmpty then [' '] else g.moreBreaks
  else g.firstBreak ++ g.moreBreaks

end Gap

structure Read where
  text : List Char
  cursor : Cursor
  broken : Bool := false

def isFlowMark (c : Char) : Bool := c == ',' || c == '[' || c == ']' || c == '\x7b' || c == '\x7d'

/-- Reads a plain scalar, whose text so far is kept in reverse. Outside of brackets its further
lines are indented at least to `indent`. -/
def plain (inFlow : Bool) (indent : Nat) : Nat → Cursor → List Char → Gap → Bool → Option Read
  | 0, _, _, _, _ => none
  | fuel + 1, c, text, gap, fresh =>
    let stop : Option Read := some ⟨text.reverse, c, gap.broken⟩
    match c.rest with
    | [] => stop
    | d :: _ =>
      if isSpace d then
        if gap.broken && c.column < indent && d == '\t' then none
        else plain inFlow indent fuel c.next text (gap.addBlank d) true
      else if isBreak d then
        plain inFlow indent fuel c.nextLine text (gap.addBreak c.breakText) true
      else if fresh && ((!inFlow && gap.broken && c.column < indent) || c.atMarker || d == '#') then
        stop
      else if inFlow && d == ':' && ((c.rest.drop 1).head?.any fun e => isFlowMark e || e == '?') then
        none
      else if (d == ':' && c.blankAt 1) || (inFlow && isFlowMark d) then stop
      else plain inFlow indent fuel c.next (d :: (gap.fold.reverse ++ text)) {} false

def singleQuoted : Nat → Cursor → List Char → Gap → Option Read
  | 0, _, _, _ => none
  | fuel + 1, c, text, gap =>
    match c.rest with
    | [] => none
    | d :: rest =>
      if isSpace d then singleQuoted fuel c.next text (gap.addBlank d)
      else if isBreak d then singleQuoted fuel c.nextLine text (gap.addBreak c.breakText)
      else if c.atMarker then none
      else
        let text := gap.fold.reverse ++ text
        if d == '\'' then
          if rest.head? == some '\'' then singleQuoted fuel (c.skip 2) ('\'' :: text) {}
          else some ⟨text.reverse, c.next, false⟩
        else singleQuoted fuel c.next (d :: text) {}

def escapes : List (Char × Nat) :=
  [('0', 0), ('a', 7), ('b', 8), ('t', 9), ('\t', 9), ('n', 10), ('v', 11), ('f', 12), ('r', 13),
   ('e', 27), (' ', 32), ('"', 34), ('/', 47), ('\\', 92), ('N', 0x85), ('_', 0xA0), ('L', 0x2028),
   ('P', 0x2029)]

def numberEscapes : List (Char × Nat) := [('x', 2), ('u', 4), ('U', 8)]

def hexNumber? (ds : List Char) : Option Nat :=
  ds.foldlM (fun n d => (Json.hexValue? d).map (n * 16 + ·)) 0

def escape? : List Char → Option (Char × Nat)
  | [] => none
  | d :: rest =>
    match Table.get? d escapes, Table.get? d numberEscapes with
    | some n, _ => some (Char.ofNat n, 1)
    | none, some size => do
      let ds := rest.take size
      let n ← hexNumber? ds
      if ds.length = size ∧ n.isValidChar then some (Char.ofNat n, size + 1) else none
    | none, none => none

/-- Reads a double-quoted scalar from behind its opening quote. A backslash before a line end joins
the lines. -/
def doubleQuoted : Nat → Cursor → List Char → Gap → Option Read
  | 0, _, _, _ => none
  | fuel + 1, c, text, gap =>
    match c.rest with
    | [] => none
    | d :: rest =>
      if isSpace d then doubleQuoted fuel c.next text (gap.addBlank d)
      else if isBreak d then doubleQuoted fuel c.nextLine text (gap.addBreak c.breakText)
      else if c.atMarker then none
      else
        let text := gap.fold.reverse ++ text
        if d == '"' then some ⟨text.reverse, c.next, false⟩
        else if d == '\\' then
          if rest.head?.any isBreak then
            doubleQuoted fuel c.next.nextLine text { broken := true }
          else match escape? rest with
            | some (e, size) => doubleQuoted fuel (c.skip (size + 1)) (e :: text) {}
            | none => none
        else doubleQuoted fuel c.next (d :: text) {}

inductive Chomping where
  | strip
  | clip
  | keep
  deriving DecidableEq

/-- Chomping and indentation of a block scalar, in either order, and how many characters they
take. -/
def blockHeader? (rest : List Char) : Option (Chomping × Option Nat × Nat) :=
  let chomping (c : Char) : Option Chomping :=
    if c == '+' then some .keep else if c == '-' then some .strip else none
  let step (c : Char) : Option Nat := if '1' ≤ c && c ≤ '9' then some (c.toNat - 48) else none
  match rest with
  | a :: b :: _ =>
    match chomping a, step a with
    | some m, _ => match step b with
      | some n => some (m, some n, 2)
      | none => if b == '0' then none else some (m, none, 1)
    | none, some n => match chomping b with
      | some m => some (m, some n, 2)
      | none => some (.clip, some n, 1)
    | none, none => if a == '0' then none else some (.clip, none, 0)
  | [a] =>
    match chomping a, step a with
    | some m, _ => some (m, none, 1)
    | none, some n => some (.clip, some n, 1)
    | none, none => if a == '0' then none else some (.clip, none, 0)
  | [] => some (.clip, none, 0)

/-- Empty lines before the next line of a block scalar. Without a known indentation the deepest
line decides. -/
def blockBreaks (indent : Option Nat) : Nat → Cursor → List Char → Nat →
    Option (Cursor × List Char × Nat)
  | 0, _, _, _ => none
  | fuel + 1, c, breaks, deepest =>
    let free := indent.all fun n => c.column < n
    match c.rest with
    | d :: _ =>
      if free && d == ' ' then blockBreaks indent fuel c.next breaks deepest
      else
        let deepest := max deepest c.column
        if free && d == '\t' then none
        else if isBreak d then
          blockBreaks indent fuel c.nextLine (breaks ++ c.breakText) deepest
        else some (c, breaks, deepest)
    | [] => some (c, breaks, max deepest c.column)

/-- The lines of a block scalar; `text` is kept in reverse. In a folded one a line end between two
lines that do not start with a blank becomes a space. -/
def blockLines (folded : Bool) (indent : Nat) : Nat → Cursor → List Char → List Char → List Char →
    Bool → Option (Cursor × List Char × List Char × List Char)
  | 0, _, _, _, _, _ => none
  | fuel + 1, c, text, lastBreak, breaks, wasBlank =>
    if c.column ≠ indent || c.atEnd then some (c, text, lastBreak, breaks)
    else
      let blank := c.rest.head?.any isSpace
      let joint :=
        if folded && lastBreak == ['\n'] && !wasBlank && !blank then
          if breaks.isEmpty then [' '] else []
        else lastBreak
      let line := c.rest.takeWhile fun d => !isBreak d
      let text := line.reverse ++ (breaks.reverse ++ (joint.reverse ++ text))
      let c := c.skip line.length
      let lastBreak := c.breakText
      let c := if c.atEnd then c else c.nextLine
      match blockBreaks (some indent) (c.rest.length + 1) c [] 0 with
      | none => none
      | some (c, breaks, _) => blockLines folded indent fuel c text lastBreak breaks blank

def block (folded : Bool) (outer : Option Nat) (c : Cursor) : Option Read := do
  let (chomping, step, size) ← blockHeader? c.rest
  let c := c.skip size
  let c := c.skip (c.rest.takeWhile isSpace).length
  let c := if c.rest.head? == some '#' then c.restOfLine else c
  if !c.atEnd && !c.rest.head?.any isBreak then none
  let c := if c.atEnd then c else c.nextLine
  let fuel := c.rest.length + 1
  let known := step.map fun n => (outer.getD 0) + n
  let (c, breaks, deepest) ← blockBreaks known fuel c [] 0
  let indent := known.getD (max deepest (max ((outer.map (· + 1)).getD 0) 1))
  let (c, text, lastBreak, breaks) ← blockLines folded indent fuel c [] [] breaks false
  let ending := match chomping with
    | .strip => []
    | .clip => lastBreak
    | .keep => lastBreak ++ breaks
  return ⟨text.reverse ++ ending, c, false⟩

end LiveProbe.Yaml
