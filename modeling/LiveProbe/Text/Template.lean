import LiveProbe.Text.Front

/-! Templates: a mark in a text stands for another text. -/
namespace LiveProbe.Text

/-- Replaces the mark wherever it stands, from left to right; `skip` characters are still part of
the mark that was replaced last. -/
def fillFrom (mark content : List Char) : Nat → List Char → List Char
  | _, [] => []
  | skip + 1, _ :: rest => fillFrom mark content skip rest
  | 0, c :: rest =>
    if startsWith mark (c :: rest) then content ++ fillFrom mark content (mark.length - 1) rest
    else c :: fillFrom mark content 0 rest

def fill (mark content text : String) : String :=
  String.ofList (fillFrom mark.toList content.toList 0 text.toList)

end LiveProbe.Text
