/-! Sets of code points given as sorted spans. A property of characters is a short list of
spans; membership is a scan, so a law about a table is a law about its entries. -/

namespace DeclaredAccess.Text

/-- Every `step`-th code point from `first` to `last`. -/
structure Span where
  first : Nat
  last : Nat
  step : Nat := 1

namespace Span

def contains (s : Span) (n : Nat) : Bool :=
  s.first ≤ n && n ≤ s.last && (n - s.first) % s.step == 0

/-- The spans without gaps, from pairs of first and last code point. -/
def ofPairs (pairs : List (Nat × Nat)) : List Span := pairs.map fun p => ⟨p.1, p.2, 1⟩

/-- The spans with a step, from triples of first and last code point and step. -/
def ofTriples (triples : List (Nat × Nat × Nat)) : List Span :=
  triples.map fun t => ⟨t.1, t.2.1, t.2.2⟩

end Span

/-- Whether the code point of `c` lies in one of `spans`. -/
def within (spans : List Span) (c : Char) : Bool := spans.any (·.contains c.toNat)

end DeclaredAccess.Text
