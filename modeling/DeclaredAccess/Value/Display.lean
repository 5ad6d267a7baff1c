import DeclaredAccess.Number.Shortest
import DeclaredAccess.Text.Quoted
import DeclaredAccess.Value

/-! The text of a value in a message. -/

namespace DeclaredAccess.Value

mutual

/-- The value as it is quoted in a message. -/
def quoted : Value → String
  | null => "None"
  | bool b => if b then "True" else "False"
  | int n => toString n
  | float x => x.text
  | text s => Text.quoted s
  | list items => "[" ++ ", ".intercalate (quotedItems items) ++ "]"
  | object fields => "\x7b" ++ ", ".intercalate (quotedFields fields) ++ "\x7d"

def quotedItems : List Value → List String
  | [] => []
  | v :: r => quoted v :: quotedItems r

def quotedFields : List (String × Value) → List String
  | [] => []
  | (k, v) :: r => (Text.quoted k ++ ": " ++ quoted v) :: quotedFields r

end

/-- The value inside running text: a text stands there as it is. -/
def plain : Value → String
  | text s => s
  | v => v.quoted

end DeclaredAccess.Value
