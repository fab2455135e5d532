import LiveProbe.Json.Token

/-!
The outline of a text: its tree of arrays and objects, with numbers and strings as they are
written and members in order. Any text of correct form has one, however deep it is; what its parts are read as
is decided later, and only for the parts that are asked for.
-/
namespace LiveProbe.Json

inductive Outline where
  | null
  | bool (b : Bool)
  | number (n : Numeral)
  | string (body : List Char)
  | array (items : List Outline)
  | object (members : List (List Char × Outline))

namespace Outline

/-- An array or object that is still open, its parts in reverse. -/
inductive Frame where
  | items (done : List Outline)
  | members (done : List (List Char × Outline)) (name : List Char)

/-- What has been read of a text, by what may come next. -/
inductive Reading where
  | value (open_ : List Frame)
  | firstItem (open_ : List Frame)
  | firstMember (open_ : List Frame)
  | name (open_ : List Frame) (done : List (List Char × Outline))
  | colon (open_ : List Frame) (done : List (List Char × Outline)) (name : List Char)
  | after (open_ : List Frame) (value : Outline)

namespace Reading

def beginValue (frames : List Frame) : Token → Option Reading
  | .null => some (.after frames .null)
  | .bool b => some (.after frames (.bool b))
  | .number n => some (.after frames (.number n))
  | .string s => some (.after frames (.string s))
  | .openArray => some (.firstItem frames)
  | .openObject => some (.firstMember frames)
  | _ => none

def step : Reading → Token → Option Reading
  | .value frames, t => beginValue frames t
  | .firstItem frames, .closeArray => some (.after frames (.array []))
  | .firstItem frames, t => beginValue (.items [] :: frames) t
  | .firstMember frames, .closeObject => some (.after frames (.object []))
  | .firstMember frames, .string n => some (.colon frames [] n)
  | .name frames done, .string n => some (.colon frames done n)
  | .colon frames done n, .colon => some (.value (.members done n :: frames))
  | .after (.items done :: frames) v, .comma => some (.value (.items (v :: done) :: frames))
  | .after (.items done :: frames) v, .closeArray =>
    some (.after frames (.array (v :: done).reverse))
  | .after (.members done n :: frames) v, .comma => some (.name frames ((n, v) :: done))
  | .after (.members done n :: frames) v, .closeObject =>
    some (.after frames (.object ((n, v) :: done).reverse))
  | _, _ => none

def finish? : Reading → Option Outline
  | .after [] v => some v
  | _ => none

end Reading

def ofTokens? (tokens : List Token) : Option Outline :=
  tokens.foldlM Reading.step (.value []) >>= Reading.finish?

def ofText? (text : String) : Option Outline := tokens? text.toList >>= ofTokens?

end Outline
end LiveProbe.Json
