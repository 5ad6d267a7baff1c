import DeclaredAccess.Text.Span

/-! White space, and text without it at its ends. -/

namespace DeclaredAccess.Text

/-- White space: the controls that separate text, the blank of every width, and the line and
paragraph separators. -/
def blankSpans : List Span := Span.ofPairs
  [(9, 13), (28, 32), (133, 133), (160, 160), (5760, 5760), (8192, 8202), (8232, 8233),
   (8239, 8239), (8287, 8287), (12288, 12288)]

def isBlank (c : Char) : Bool := within blankSpans c

/-- The text without the white space at its two ends. -/
def trim (s : String) : String :=
  String.ofList ((s.toList.dropWhile isBlank).reverse.dropWhile isBlank).reverse

end DeclaredAccess.Text
