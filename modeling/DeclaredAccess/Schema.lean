import DeclaredAccess.Policy.Block
import DeclaredAccess.Resource
import DeclaredAccess.Text.Split

/-! A declared schema: its owner, and the policies of roles on it. -/

namespace DeclaredAccess

/-- Points and colons part the fields of identifiers, so a database may not contain one. A
database that is not given is the default one. -/
def Resource.database (r : Resource) (kind : ResourceKind) (default : String) :
    Except Error String := do
  let given ← r.optional "database"
  let database := if given.isEmpty then default else given
  if database.toList.any fun c => c == '.' || c == ':' then
    throw (.config (.databaseMarks kind database))
  return database

/-- An empty owner leaves the schema to the connecting role. -/
structure Schema where
  name : String
  database : String
  owner : String := ""
  ifNotExists : Bool := true
  dropCascade : Bool := false
  policies : List Declaration := []

namespace Schema

def ofResource (r : Resource) (defaultDatabase : String) : Except Error Schema := do
  let database ← r.database .schema defaultDatabase
  return {
    name := ← r.required .schema "name"
    database
    owner := ← r.optional "owner"
    ifNotExists := r.flag "if_not_exists" true
    dropCascade := r.flag "drop_cascade"
    policies := ← Declaration.ofBlocks (r.getD "policy" (.list [])) }

def target (name : String) : Target := { kind := .schema, name }

/-- The identifier: the database, a point, and the schema. -/
def idOf (database name : String) : String := database ++ "." ++ name

/-- Database and schema of an identifier. The first point parts them, so the schema may contain
points. -/
def ofId (id : String) : Except Error (String × String) :=
  let (database, name) := Text.cut '.' id.toList
  if database.isEmpty || name.isEmpty then .error (.config (.schemaId id))
  else .ok (String.ofList database, String.ofList name)

end Schema

end DeclaredAccess
