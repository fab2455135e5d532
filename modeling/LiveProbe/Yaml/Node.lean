import LiveProbe.Yaml.Token

/-!
The tree of a document. Aliases are replaced by the nodes they name, which must stand before them.
A text without any node holds an empty plain scalar.
-/
namespace LiveProbe.Yaml

inductive Node where
  | scalar (text : String) (isPlain : Bool)
  | sequence (items : List Node)
  | mapping (entries : List (Node × Node))

namespace Node

def empty : Node := .scalar "" true

abbrev Anchors := List (List Char × Node)

structure Rest where
  tokens : List Token
  anchors : Anchors := []

def properties : List Token → Option (List Char) → Bool → List Token × Option (List Char) × Bool
  | .anchor name :: rest, none, _ => properties rest (some name) true
  | .tag :: rest, anchor, _ => properties rest anchor true
  | rest, anchor, found => (rest, anchor, found)

def isBlockStop : Token → Bool
  | .key => true
  | .value => true
  | .blockEnd => true
  | _ => false

def isSequenceStop : Token → Bool
  | .comma => true
  | .value => true
  | .flowSequenceEnd => true
  | _ => false

def isMappingStop : Token → Bool
  | .comma => true
  | .value => true
  | .flowMappingEnd => true
  | _ => false

mutual
/-- A node. In a block it may be laid out in lines; a list may stand at its key's own column. -/
def node? (inBlock listHere : Bool) : Nat → Rest → Option (Node × Rest)
  | 0, _ => none
  | fuel + 1, r =>
    match r.tokens with
    | .alias name :: rest => (Table.get? name r.anchors).map fun n => (n, { r with tokens := rest })
    | tokens => do
      let (tokens, anchor, found) := properties tokens none false
      let r := { r with tokens }
      let bare : Option (Node × Rest) := if found then some (empty, r) else none
      let (n, r) ← match tokens, inBlock, listHere with
        | .entry :: _, _, true => listItems? fuel [] r
        | .scalar text isPlain :: rest, _, _ => some (.scalar text isPlain, { r with tokens := rest })
        | .flowSequence :: rest, _, _ => flowItems? fuel true [] { r with tokens := rest }
        | .flowMapping :: rest, _, _ => flowEntries? fuel true [] { r with tokens := rest }
        | .blockSequence :: rest, true, _ => blockItems? fuel [] { r with tokens := rest }
        | .blockMapping :: rest, true, _ => blockEntries? fuel [] { r with tokens := rest }
        | _, _, _ => bare
      match anchor with
      | some name => return (n, { r with anchors := (name, n) :: r.anchors })
      | none => return (n, r)

def orEmpty? (inBlock listHere : Bool) (stops : Token → Bool) :
    Nat → Rest → Option (Node × Rest)
  | 0, _ => none
  | fuel + 1, r =>
    match r.tokens with
    | t :: _ => if stops t then some (empty, r) else node? inBlock listHere fuel r
    | [] => some (empty, r)

def listItems? : Nat → List Node → Rest → Option (Node × Rest)
  | 0, _, _ => none
  | fuel + 1, done, r =>
    match r.tokens with
    | .entry :: rest => do
      let stops (t : Token) : Bool := t == .entry || isBlockStop t
      let (n, r) ← orEmpty? true false stops fuel { r with tokens := rest }
      listItems? fuel (n :: done) r
    | _ => some (.sequence done.reverse, r)

def blockItems? : Nat → List Node → Rest → Option (Node × Rest)
  | 0, _, _ => none
  | fuel + 1, done, r =>
    match r.tokens with
    | .entry :: rest => do
      let stops (t : Token) : Bool := t == .entry || t == .blockEnd
      let (n, r) ← orEmpty? true false stops fuel { r with tokens := rest }
      blockItems? fuel (n :: done) r
    | .blockEnd :: rest => some (.sequence done.reverse, { r with tokens := rest })
    | _ => none

def blockEntries? : Nat → List (Node × Node) → Rest → Option (Node × Rest)
  | 0, _, _ => none
  | fuel + 1, done, r =>
    match r.tokens with
    | .key :: rest => do
      let (k, r) ← orEmpty? true true isBlockStop fuel { r with tokens := rest }
      match r.tokens with
      | .value :: rest =>
        let (v, r) ← orEmpty? true true isBlockStop fuel { r with tokens := rest }
        blockEntries? fuel ((k, v) :: done) r
      | _ => blockEntries? fuel ((k, empty) :: done) r
    | .blockEnd :: rest => some (.mapping done.reverse, { r with tokens := rest })
    | _ => none

/-- Items between brackets; one of them may be a single pair. -/
def flowItems? : Nat → Bool → List Node → Rest → Option (Node × Rest)
  | 0, _, _, _ => none
  | fuel + 1, first, done, r =>
    match r.tokens with
    | .flowSequenceEnd :: rest => some (.sequence done.reverse, { r with tokens := rest })
    | tokens => do
      let tokens ← if first then some tokens else match tokens with
        | .comma :: rest => some rest
        | _ => none
      match tokens with
      | .flowSequenceEnd :: rest => return (.sequence done.reverse, { r with tokens := rest })
      | .key :: rest =>
        let (k, r) ← orEmpty? false false isSequenceStop fuel { r with tokens := rest }
        match r.tokens with
        | .value :: rest =>
          let stops (t : Token) : Bool := t == .comma || t == .flowSequenceEnd
          let (v, r) ← orEmpty? false false stops fuel { r with tokens := rest }
          flowItems? fuel false (.mapping [(k, v)] :: done) r
        | _ => flowItems? fuel false (.mapping [(k, empty)] :: done) r
      | tokens =>
        let (n, r) ← node? false false fuel { r with tokens }
        flowItems? fuel false (n :: done) r

def flowEntries? : Nat → Bool → List (Node × Node) → Rest → Option (Node × Rest)
  | 0, _, _, _ => none
  | fuel + 1, first, done, r =>
    match r.tokens with
    | .flowMappingEnd :: rest => some (.mapping done.reverse, { r with tokens := rest })
    | tokens => do
      let tokens ← if first then some tokens else match tokens with
        | .comma :: rest => some rest
        | _ => none
      match tokens with
      | .flowMappingEnd :: rest => return (.mapping done.reverse, { r with tokens := rest })
      | .key :: rest =>
        let (k, r) ← orEmpty? false false isMappingStop fuel { r with tokens := rest }
        match r.tokens with
        | .value :: rest =>
          let stops (t : Token) : Bool := t == .comma || t == .flowMappingEnd
          let (v, r) ← orEmpty? false false stops fuel { r with tokens := rest }
          flowEntries? fuel false ((k, v) :: done) r
        | _ => flowEntries? fuel false ((k, empty) :: done) r
      | tokens =>
        let (k, r) ← node? false false fuel { r with tokens }
        flowEntries? fuel false ((k, empty) :: done) r
end

def isEnd (tokens : List Token) : Bool := tokens.all (· == .documentEnd)

def startsDocument : Token → Bool
  | .documentStart => true
  | .directive => true
  | _ => false

def ofTokens? (tokens : List Token) : Option Node :=
  let fuel := 4 * tokens.length + 4
  let whole (tokens : List Token) : Option Node := do
    let (n, r) ← node? true false fuel { tokens }
    if isEnd r.tokens then some n else none
  match tokens with
  | [] => some empty
  | t :: _ =>
    if startsDocument t then
      match tokens.dropWhile (· == .directive) with
      | .documentStart :: rest =>
        if isEnd rest then some empty
        else if rest.head?.any startsDocument then none
        else whole rest
      | _ => none
    else whole tokens

def ofText? (text : String) : Option Node := tokens? text >>= ofTokens?

end Node
end LiveProbe.Yaml
