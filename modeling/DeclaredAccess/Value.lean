import DeclaredAccess.Keyed
import DeclaredAccess.Number.Binary64

/-! The values of a resource: what a declaration says and what a catalog answers, before it is
known to be of the type that is asked for. -/

namespace DeclaredAccess

inductive Value
  | null
  | bool (b : Bool)
  | int (n : Int)
  | float (x : Number.Binary64)
  | text (s : String)
  | list (items : List Value)
  | object (fields : List (String × Value))
  deriving Inhabited

instance : Coe String Value := ⟨.text⟩

namespace Value

/-- Nothing, zero and everything empty count as not given. -/
def truthy : Value → Bool
  | null => false
  | bool b => b
  | int n => n != 0
  | float x => !x.isZero
  | text s => !s.isEmpty
  | list items => !items.isEmpty
  | object fields => !fields.isEmpty

/-- Lists and objects, which hold other values. -/
def isCollection : Value → Bool
  | list _ | object _ => true
  | _ => false

def text? : Value → Option String
  | text s => some s
  | _ => none

/-- What a value holds when it is taken for a list: a text its characters, an object its names. -/
def items? : Value → Option (List Value)
  | text s => some (s.toList.map fun c => text (String.singleton c))
  | list items => some items
  | object fields => some (fields.map fun f => text f.1)
  | _ => none

/-- A number as a quotient of whole numbers; the truth values are one and zero. -/
def quotient? : Value → Option (Int × Nat)
  | bool b => some (if b then 1 else 0, 1)
  | int n => some (n, 1)
  | float x => some x.quotient
  | _ => none

def sameNumber (a b : Value) : Bool := match a.quotient?, b.quotient? with
  | some (p, q), some (r, s) => p * s == r * q
  | _, _ => false

mutual

/-- Deep equality. The order of an object's fields does not matter. -/
def same : Value → Value → Bool
  | null, null => true
  | text a, text b => a == b
  | list a, list b => sameItems a b
  | object a, object b => a.length == b.length && sameFields a b
  | a, b => sameNumber a b

def sameItems : List Value → List Value → Bool
  | [], [] => true
  | a :: r, b :: s => same a b && sameItems r s
  | _, _ => false

def sameFields : List (String × Value) → List (String × Value) → Bool
  | [], _ => true
  | (k, v) :: r, fields =>
    (match Keyed.get? fields k with
      | some w => same v w
      | none => false) && sameFields r fields

end

instance : BEq Value := ⟨same⟩

end Value

/-- The named values of a resource. -/
abbrev Fields := Keyed Value

/-- The value of a field; one that is missing is null. -/
def Fields.value (f : Fields) (key : String) : Value := (Keyed.get? f key).getD .null

end DeclaredAccess
