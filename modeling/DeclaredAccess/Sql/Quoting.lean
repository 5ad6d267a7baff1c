/-! Quoted text inside a statement. A name stands in double quotes with each quote inside it
doubled. A text stands in single quotes, also with its quotes doubled; where it has a backslash,
backslashes are doubled as well and the text is marked by `E`, set off by a blank. -/

namespace DeclaredAccess.Sql

/-- The characters with every `mark` doubled. -/
def doubled (mark : Char) (cs : List Char) : List Char :=
  cs.flatMap fun c => if c = mark then [mark, mark] else [c]

def writeName (cs : List Char) : List Char := '"' :: doubled '"' cs ++ ['"']

def writeText (cs : List Char) : List Char :=
  if '\\' ∈ cs then ' ' :: 'E' :: '\'' :: doubled '\\' (doubled '\'' cs) ++ ['\'']
  else '\'' :: doubled '\'' cs ++ ['\'']

end DeclaredAccess.Sql
