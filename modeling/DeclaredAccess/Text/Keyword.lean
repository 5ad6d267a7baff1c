/-! Keywords are written in ASCII capitals. A spelling denotes a keyword when its capitals
are the keyword's letters, so the letters past ASCII whose capitals are ASCII count too. -/

namespace DeclaredAccess.Text

/-- The ASCII capitals of a character; a character that has none stands for itself. -/
def capitals (c : Char) : List Char :=
  if c.toNat < 128 then [c.toUpper]
  else match c with
    | 'ß' => ['S', 'S']
    | 'ı' => ['I']
    | 'ſ' => ['S']
    | 'ﬀ' => ['F', 'F']
    | 'ﬁ' => ['F', 'I']
    | 'ﬂ' => ['F', 'L']
    | 'ﬃ' => ['F', 'F', 'I']
    | 'ﬄ' => ['F', 'F', 'L']
    | 'ﬅ' => ['S', 'T']
    | 'ﬆ' => ['S', 'T']
    | c => [c]

/-- The text in ASCII capitals. Where it has a character without ASCII capitals it is no keyword. -/
def keyword (s : String) : String := String.ofList (s.toList.flatMap capitals)

end DeclaredAccess.Text
