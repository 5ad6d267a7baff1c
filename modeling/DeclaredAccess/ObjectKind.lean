import DeclaredAccess.Privilege.Set

/-! The kinds of object that privileges are granted on. -/

namespace DeclaredAccess

inductive ObjectKind
  | database | schema | table | sequence | function
  deriving DecidableEq, Repr

namespace ObjectKind

def all : List ObjectKind := [database, schema, table, sequence, function]

/-- The kind's name in a declaration. -/
def name : ObjectKind → String
  | database => "database"
  | schema => "schema"
  | table => "table"
  | sequence => "sequence"
  | function => "function"

/-- The keyword for one object of the kind. -/
def keyword : ObjectKind → String
  | database => "DATABASE"
  | schema => "SCHEMA"
  | table => "TABLE"
  | sequence => "SEQUENCE"
  | function => "FUNCTION"

/-- The keyword for all objects of the kind in a schema. -/
def plural (k : ObjectKind) : String := k.keyword ++ "S"

def ofName? (s : String) : Option ObjectKind := all.find? (·.name == s)

/-- Whether objects of the kind live inside a schema. -/
def inSchema : ObjectKind → Bool
  | table | sequence | function => true
  | database | schema => false

/-- The privileges that can be granted on the kind. -/
def allowed : ObjectKind → PrivilegeSet
  | database => .ofList [.create, .connect, .temporary]
  | schema => .ofList [.create, .usage]
  | table => .ofList [.select, .insert, .update, .delete, .truncate, .references, .trigger]
  | sequence => .ofList [.usage, .select, .update]
  | function => .ofList [.execute]

/-- The kinds that a grant is declared on; privileges on schemas are declared with the schema. -/
def grantable : List ObjectKind := [database, table, sequence, function]

end ObjectKind

/-- What a privilege statement applies to: a database or schema by its own name, or the objects of
a kind in a schema, all of them where none is listed. -/
structure Target where
  kind : ObjectKind
  name : String := ""
  schema : String := ""
  objects : List String := []
  deriving DecidableEq, Repr

/-- The target in running text. -/
def Target.describe (t : Target) : String :=
  if t.kind.inSchema then
    if t.objects.isEmpty then "all " ++ t.kind.name ++ "s in schema " ++ t.schema
    else t.kind.name ++ " " ++ ", ".intercalate (t.objects.map fun o => t.schema ++ "." ++ o)
  else t.kind.name ++ " " ++ t.name

end DeclaredAccess
