import DeclaredAccess.Error

/-! A resource as it was declared and last applied, and the typed reading of its fields. -/

namespace DeclaredAccess

/-- The identifier is empty while the resource does not exist. During an update `previous` holds
the fields from before the change. -/
structure Resource where
  id : String := ""
  values : Fields := []
  previous : Option Fields := none

namespace Resource

/-- The value of a field, where it has one. -/
def get? (r : Resource) (key : String) : Option Value := match r.values.value key with
  | .null => none
  | v => some v

def getD (r : Resource) (key : String) (default : Value) : Value := (r.get? key).getD default

def put (r : Resource) (key : String) (v : Value) : Resource :=
  { r with values := Keyed.put r.values key v }

def setId (r : Resource) (id : String) : Resource := { r with id }

/-- Whether a field changed; nothing changes outside an update. -/
def hasChange (r : Resource) (key : String) : Bool := match r.previous with
  | none => false
  | some p => !(p.value key).same (r.values.value key)

/-- A field before and after the change. -/
def change (r : Resource) (key : String) : Value × Value :=
  ((r.previous.getD r.values).value key, r.values.value key)

/-- The resource in a message. -/
def quoted (r : Resource) : String :=
  "ResourceData(id=" ++ Text.quoted r.id ++ ", values=" ++ (Value.object r.values).quoted ++ ")"

/-- Whether a field is given and counts. -/
def flag (r : Resource) (key : String) (default : Bool := false) : Bool :=
  (r.getD key (.bool default)).truthy

/-- A field that has to be a text that is not empty. -/
def required (r : Resource) (kind : ResourceKind) (key : String) : Except Error String :=
  match r.get? key with
  | some (.text s) => if s.isEmpty then .error (.config (.missing kind key)) else .ok s
  | _ => .error (.config (.missing kind key))

/-- A field that may be missing, and has to be a text otherwise. -/
def optional (r : Resource) (key : String) (default : String := "") : Except Error String :=
  match r.get? key with
  | none => .ok default
  | some (.text s) => .ok s
  | some v => .error (.config (.notText key v))

/-- A field that has to be a list of texts; what does not count is the empty list. -/
def texts (r : Resource) (key : String) : Except Error (List String) := do
  let v := r.getD key (.list [])
  if !v.truthy then return []
  match v.items? with
  | none => .error (.shape (.notAList v))
  | some items => match items.mapM Value.text? with
    | some ts => return ts
    | none => .error (.config (.notTexts key items))

end Resource

end DeclaredAccess
