import DeclaredAccess.Number.Integer
import DeclaredAccess.Text.Split

/-! Versions of the server, and the features that come with them. -/

namespace DeclaredAccess

/-- A version in three numbers. -/
structure Version where
  major : Int
  minor : Int := 0
  patch : Int := 0
  deriving DecidableEq, Repr

namespace Version

/-- The version by its leading numbers; missing ones are zero, and further ones do not matter. -/
def ofParts? : List Int → Option Version
  | [] => none
  | [a] => some ⟨a, 0, 0⟩
  | [a, b] => some ⟨a, b, 0⟩
  | a :: b :: c :: _ => some ⟨a, b, c⟩

/-- The version in front of the first blank, by numbers between points. -/
def ofText? (s : String) : Option Version := do
  let numeric := (Text.trim s).toList.takeWhile (· != ' ')
  let parts := (Text.split '.' numeric).filter fun w => !w.isEmpty
  ofParts? (← parts.mapM fun w => Number.integer? (String.ofList w))

def text (v : Version) : String :=
  toString v.major ++ "." ++ toString v.minor ++ "." ++ toString v.patch

/-- Whether `v` is `w` or later, by the first number in which they differ. -/
def atLeast (v w : Version) : Bool :=
  if v.major ≠ w.major then v.major > w.major
  else if v.minor ≠ w.minor then v.minor > w.minor
  else v.patch ≥ w.patch

/-- Assumed of a server that does not tell its version. -/
def assumed : Version := ⟨9, 0, 0⟩

end Version

/-- What a server can do from some version on. -/
inductive Feature
  | privileges | extension | schemaCreateIfNotExists
  deriving DecidableEq, Repr

namespace Feature

def since : Feature → Version
  | privileges => ⟨9, 0, 0⟩
  | extension => ⟨9, 1, 0⟩
  | schemaCreateIfNotExists => ⟨9, 3, 0⟩

end Feature

def Version.supports (v : Version) (f : Feature) : Bool := v.atLeast f.since

end DeclaredAccess
