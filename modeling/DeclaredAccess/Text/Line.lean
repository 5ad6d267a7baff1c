import DeclaredAccess.Text.Span

/-! The first line of a text. -/

namespace DeclaredAccess.Text

/-- The characters that end a line. -/
def lineEndSpans : List Span := Span.ofPairs [(10, 13), (28, 30), (133, 133), (8232, 8233)]

def isLineEnd (c : Char) : Bool := within lineEndSpans c

/-- The text up to its first line end; the empty text has no line at all. -/
def firstLine? (s : String) : Option String :=
  if s.isEmpty then none else some (String.ofList (s.toList.takeWhile fun c => !isLineEnd c))

end DeclaredAccess.Text
