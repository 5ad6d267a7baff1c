import DeclaredAccess.Text.Blank
import DeclaredAccess.Text.Digit

/-! Reading a whole number from text: an optional sign and decimal digits of any script, with
single underscores allowed between digits and white space allowed around the whole. -/

namespace DeclaredAccess.Number

/-- No more digits than this are read. -/
def digitLimit : Nat := 4300

/-- White space around a number; the four ASCII information separators do not count. -/
def isPadding (c : Char) : Bool :=
  if c.toNat < 128 then c == ' ' || (9 ≤ c.toNat && c.toNat ≤ 13) else Text.isBlank c

/-- The digits' values, the most significant first. -/
def digits? : List Char → Option (List Nat)
  | [] => none
  | [c] => (Text.decimalValue? c).map ([·])
  | c :: '_' :: r => do return (← Text.decimalValue? c) :: (← digits? r)
  | c :: d :: r => do return (← Text.decimalValue? c) :: (← digits? (d :: r))

/-- The number that decimal digits denote. -/
def ofDigits (ds : List Nat) : Nat := ds.foldl (fun n d => 10 * n + d) 0

def natural? (cs : List Char) : Option Nat := do
  let ds ← digits? cs
  guard (ds.length ≤ digitLimit)
  return ofDigits ds

/-- A number after its padding. -/
def signed? : List Char → Option Int
  | '-' :: r => (natural? r).map fun n => -Int.ofNat n
  | '+' :: r => (natural? r).map Int.ofNat
  | cs => (natural? cs).map Int.ofNat

def integer? (s : String) : Option Int :=
  signed? ((s.toList.dropWhile isPadding).reverse.dropWhile isPadding).reverse

end DeclaredAccess.Number
