import DeclaredAccess.Number.Shortest
import DeclaredAccess.Sql.Quoting
import DeclaredAccess.Text.Blank
import DeclaredAccess.Value

/-! Values as constants of a statement. A list is an array: its items stand between braces in a
quoted text, and unless they are texts a cast to their type follows. -/

namespace DeclaredAccess.Sql

/-- Why a value cannot be a constant. -/
inductive ConstantError
  /-- A text has a NUL character. -/
  | nul
  /-- The items of an array are of several types. -/
  | mixed
  /-- An object has no written form. -/
  | object
  deriving DecidableEq, Repr

namespace Constant

mutual

/-- What an array holds at any depth, nulls left out. -/
def leaves : Value → List Value
  | .list items => leavesOf items
  | .null => []
  | v => [v]

def leavesOf : List Value → List Value
  | [] => []
  | v :: r => leaves v ++ leavesOf r

end

/-- The types that the items of an array can have. -/
inductive ElementType
  | text | bool | int | float
  deriving DecidableEq, Repr

def elementType? : Value → Option ElementType
  | .text _ => some .text
  | .bool _ => some .bool
  | .int _ => some .int
  | .float _ => some .float
  | .null | .list _ | .object _ => none

/-- The one type of an array's items; an array without any is one of texts. -/
def arrayType (items : List Value) : Except ConstantError ElementType :=
  match items.mapM elementType? with
  | none => .error .object
  | some types => match types.eraseDups with
    | [] => .ok .text
    | [t] => .ok t
    | _ => .error .mixed

/-- What decides how many bits a whole number takes: `n` for `n` and also for `-n - 1`. -/
def magnitude : Value → Nat
  | .int (.ofNat n) => n
  | .int (.negSucc n) => n
  | _ => 0

/-- The least of the types for whole numbers that holds every item. -/
def intType (items : List Value) : String :=
  let fits (bits : Nat) : Bool := items.all fun v => magnitude v < Nat.pow 2 bits
  if fits 15 then "int2" else if fits 31 then "int4" else if fits 63 then "int8" else "numeric"

/-- The cast behind an array; the server takes an array of texts for what it is. -/
def cast (items : List Value) : ElementType → String
  | .text => ""
  | .bool => "::bool[]"
  | .int => "::" ++ intType items ++ "[]"
  | .float => "::float8[]"

/-- White space of any script, and the marks of an array's text. -/
def isMark (c : Char) : Bool :=
  c == '"' || c == '\x7b' || c == '\x7d' || c == ',' || c == '\\' || Text.isBlank c

/-- Whether a text stands in quotes inside an array: it would read as something else without. -/
def needsQuotes (cs : List Char) : Bool :=
  cs.isEmpty || cs.any isMark || cs.map Char.toLower == ['n', 'u', 'l', 'l']

/-- A text inside an array: in its quotes a backslash stands before each quote and backslash. -/
def writeItem (cs : List Char) : List Char :=
  if needsQuotes cs then
    '"' :: cs.flatMap (fun c => if c = '"' || c = '\\' then ['\\', c] else [c]) ++ ['"']
  else cs

mutual

/-- A value inside an array. -/
def writeElement : Value → List Char
  | .null => ['N', 'U', 'L', 'L']
  | .bool b => if b then ['t'] else ['f']
  | .int n => (toString n).toList
  | .float x => x.text.toList
  | .text s => writeItem s.toList
  | .list items => '\x7b' :: [','].intercalate (writeElements items) ++ ['\x7d']
  | .object _ => []

def writeElements : List Value → List (List Char)
  | [] => []
  | v :: r => writeElement v :: writeElements r

end

def hasNul : Value → Bool
  | .text s => s.toList.contains '\x00'
  | _ => false

/-- A number; a blank keeps its sign apart from what stands before it. -/
def writeNumber (isNegative : Bool) (s : String) : List Char :=
  if isNegative then ' ' :: s.toList else s.toList

/-- The characters of a constant. -/
def write : Value → Except ConstantError (List Char)
  | .null => .ok ['N', 'U', 'L', 'L']
  | .bool b => .ok (if b then ['t', 'r', 'u', 'e'] else ['f', 'a', 'l', 's', 'e'])
  | .int n => .ok (writeNumber (n < 0) (toString n))
  | .float x => .ok (writeNumber (x.negative && !x.isZero) x.text)
  | .text s => if hasNul s then .error .nul else .ok (writeText s.toList)
  | .list items => do
    let found := leavesOf items
    let type ← arrayType found
    if found.any hasNul then .error .nul
    else return writeText (writeElement (.list items)) ++ (cast found type).toList
  | .object _ => .error .object

end Constant

/-- A part of a statement's text. -/
inductive Piece
  /-- Keywords and punctuation, as they are. -/
  | fixed (s : String)
  | name (s : String)
  | constant (v : Value)

def Piece.write : Piece → Except ConstantError (List Char)
  | fixed s => .ok s.toList
  | name s => .ok (writeName s.toList)
  | constant v => Constant.write v

end DeclaredAccess.Sql
