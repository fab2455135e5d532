/-!
Positions in a text that is laid out in lines. Several characters end a line; a carriage return
and a line feed end one line together.
-/
namespace LiveProbe.Yaml

structure Cursor where
  rest : List Char
  line : Nat := 0
  column : Nat := 0
  offset : Nat := 0

def isSpace (c : Char) : Bool := c == ' ' || c == '\t'

def isBreak (c : Char) : Bool :=
  c == '\n' || c == '\r' || c.toNat == 0x85 || c.toNat == 0x2028 || c.toNat == 0x2029

def isAdmitted (c : Char) : Bool :=
  let n := c.toNat
  n == 0x09 || n == 0x0A || n == 0x0D || (0x20 ≤ n && n ≤ 0x7E) || n == 0x85 ||
    (0xA0 ≤ n && n ≤ 0xD7FF) || (0xE000 ≤ n && n ≤ 0xFFFD && n != 0xFEFF) || 0x10000 ≤ n

namespace Cursor

def next (c : Cursor) : Cursor :=
  { c with rest := c.rest.drop 1, column := c.column + 1, offset := c.offset + 1 }

def skip (n : Nat) (c : Cursor) : Cursor :=
  { c with rest := c.rest.drop n, column := c.column + n, offset := c.offset + n }

def nextLine (c : Cursor) : Cursor :=
  let n := match c.rest with
    | '\r' :: '\n' :: _ => 2
    | _ => 1
  { rest := c.rest.drop n, line := c.line + 1, column := 0, offset := c.offset + n }

/-- The text for the end of the line here: a line feed, apart from the two separators that stand
for themselves. -/
def breakText (c : Cursor) : List Char :=
  match c.rest with
  | d :: _ => if d.toNat == 0x2028 || d.toNat == 0x2029 then [d] else ['\n']
  | [] => []

def atEnd (c : Cursor) : Bool := c.rest.isEmpty

def blankAt (c : Cursor) (n : Nat) : Bool :=
  match c.rest.drop n with
  | d :: _ => isSpace d || isBreak d
  | [] => true

def atMarker (c : Cursor) : Bool :=
  c.column == 0 && (c.rest.take 3 == ['-', '-', '-'] || c.rest.take 3 == ['.', '.', '.']) &&
    c.blankAt 3

def restOfLine (c : Cursor) : Cursor :=
  c.skip (c.rest.takeWhile fun d => !isBreak d).length

end Cursor
end LiveProbe.Yaml
