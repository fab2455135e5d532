import LiveProbe.Json.Outline

/-!
The tokens an outline is made of, each part in its place. A reader that goes through them stands
behind the outline, with what was open before still open.
-/
namespace LiveProbe.Json.Outline

mutual
def tokens : Outline → List Token
  | .null => [.null]
  | .bool b => [.bool b]
  | .number n => [.number n]
  | .string body => [.string body]
  | .array [] => [.openArray, .closeArray]
  | .array (v :: rest) => .openArray :: (tokens v ++ itemTokens rest)
  | .object [] => [.openObject, .closeObject]
  | .object ((n, v) :: rest) =>
    .openObject :: .string n :: .colon :: (tokens v ++ memberTokens rest)
def itemTokens : List Outline → List Token
  | [] => [.closeArray]
  | v :: rest => .comma :: (tokens v ++ itemTokens rest)
def memberTokens : List (List Char × Outline) → List Token
  | [] => [.closeObject]
  | (n, v) :: rest => .comma :: .string n :: .colon :: (tokens v ++ memberTokens rest)
end

theorem foldlM_firstItem (o : Outline) (frames : List Frame) :
    o.tokens.foldlM Reading.step (.firstItem frames) =
      o.tokens.foldlM Reading.step (.value (.items [] :: frames)) := by
  rcases o with _ | _ | _ | _ | items | members
  · rfl
  · rfl
  · rfl
  · rfl
  · cases items <;> rfl
  · cases members <;> rfl

mutual
theorem foldlM_tokens : ∀ (o : Outline) (frames : List Frame),
    o.tokens.foldlM Reading.step (.value frames) = some (.after frames o)
  | .null, _ => rfl
  | .bool _, _ => rfl
  | .number _, _ => rfl
  | .string _, _ => rfl
  | .array [], _ => rfl
  | .array (v :: rest), frames => by
    have first := foldlM_firstItem v frames
    rw [foldlM_tokens v] at first
    show (v.tokens ++ itemTokens rest).foldlM Reading.step (.firstItem frames) = _
    rw [List.foldlM_append, first]
    exact foldlM_itemTokens rest v [] frames
  | .object [], _ => rfl
  | .object ((n, v) :: rest), frames => by
    show (v.tokens ++ memberTokens rest).foldlM Reading.step (.value (.members [] n :: frames)) = _
    rw [List.foldlM_append, foldlM_tokens v]
    exact foldlM_memberTokens rest n v [] frames
theorem foldlM_itemTokens : ∀ (rest : List Outline) (v : Outline) (done : List Outline)
    (frames : List Frame),
    (itemTokens rest).foldlM Reading.step (.after (.items done :: frames) v) =
      some (.after frames (.array ((v :: done).reverse ++ rest)))
  | [], v, done, frames => by
    rw [List.append_nil]
    rfl
  | next :: rest, v, done, frames => by
    show (next.tokens ++ itemTokens rest).foldlM Reading.step
      (.value (.items (v :: done) :: frames)) = _
    rw [List.foldlM_append, foldlM_tokens next]
    refine (foldlM_itemTokens rest next (v :: done) frames).trans ?_
    rw [List.reverse_cons, List.append_assoc, List.singleton_append]
theorem foldlM_memberTokens : ∀ (rest : List (List Char × Outline)) (n : List Char) (v : Outline)
    (done : List (List Char × Outline)) (frames : List Frame),
    (memberTokens rest).foldlM Reading.step (.after (.members done n :: frames) v) =
      some (.after frames (.object (((n, v) :: done).reverse ++ rest)))
  | [], n, v, done, frames => by
    rw [List.append_nil]
    rfl
  | (m, next) :: rest, n, v, done, frames => by
    show (next.tokens ++ memberTokens rest).foldlM Reading.step
      (.value (.members ((n, v) :: done) m :: frames)) = _
    rw [List.foldlM_append, foldlM_tokens next]
    refine (foldlM_memberTokens rest m next ((n, v) :: done) frames).trans ?_
    rw [List.reverse_cons, List.append_assoc, List.singleton_append]
end

theorem ofTokens?_tokens (o : Outline) : ofTokens? o.tokens = some o := by
  rw [ofTokens?, foldlM_tokens]
  rfl

end LiveProbe.Json.Outline
