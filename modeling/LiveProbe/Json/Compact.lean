import LiveProbe.Decimal.Layout
import LiveProbe.Json.Basic

/-!
The compact text of a document: no blanks between its parts, and in strings only quotes,
backslashes and controls escaped.
-/
namespace LiveProbe

def Number.write : Number → List Char
  | .int n => Decimal.signed (n < 0) (Decimal.digits n.natAbs)
  | .float bits => (Decimal.Layout.document.render bits).toList

namespace Json

def hexDigit (n : Nat) : Char := (Nat.digitChar n)

def escapeChar (c : Char) : List Char :=
  match c with
  | '"' => ['\\', '"']
  | '\\' => ['\\', '\\']
  | '\n' => ['\\', 'n']
  | '\r' => ['\\', 'r']
  | '\t' => ['\\', 't']
  | c =>
    if c.toNat = 8 then ['\\', 'b']
    else if c.toNat = 12 then ['\\', 'f']
    else if c.toNat < 0x20 then
      ['\\', 'u', '0', '0', hexDigit (c.toNat / 16), hexDigit (c.toNat % 16)]
    else [c]

def writeString (s : String) : List Char := '"' :: s.toList.flatMap escapeChar ++ ['"']

mutual
def write : Json → List Char
  | .null => "null".toList
  | .bool true => "true".toList
  | .bool false => "false".toList
  | .number n => n.write
  | .string s => writeString s
  | .array [] => ['[', ']']
  | .array (v :: rest) => '[' :: write v ++ writeItems rest
  | .object [] => ['\x7b', '\x7d']
  | .object ((n, v) :: rest) => '\x7b' :: writeString n ++ ':' :: write v ++ writeMembers rest
def writeItems : List Json → List Char
  | [] => [']']
  | v :: rest => ',' :: write v ++ writeItems rest
def writeMembers : List (String × Json) → List Char
  | [] => ['\x7d']
  | (n, v) :: rest => ',' :: writeString n ++ ':' :: write v ++ writeMembers rest
end

def compact (document : Json) : String := String.ofList document.write

end Json
end LiveProbe
